import DatanodeLedger.Cache
import DatanodeLedger.Proofs.Slab.Refinement
import Mathlib.Logic.Function.Basic

/-! The cache pipeline as three sequences of blocks, none of which shares an id with another block. The lists in
the arena behave as these sequences do. -/
namespace DatanodeLedger

namespace CacheLists

/-- What can be asked of the cache lists that changes them. -/
inductive Op where
  | add (stage : CacheStage) (b : CachedBlock)
  | remove (stage : CacheStage) (id : UInt64)
  | moveTo (stage : CacheStage) (b : CachedBlock)
  | clear (stage : CacheStage)
  | clearAll
  deriving DecidableEq, Repr

inductive Answer where
  | added (linked : Bool)
  | removed (b : Option CachedBlock)
  | moved (source : Option CacheStage)
  | dropped (count : Nat)
  | cleared
  deriving DecidableEq, Repr

def perform (c : CacheLists) : Op → Except Fault (Answer × CacheLists)
  | .add stage b => (c.add stage b).map fun (linked, c) => (.added linked, c)
  | .remove stage id => (c.remove stage id).map fun (b, c) => (.removed b, c)
  | .moveTo stage b => (c.moveTo stage b).map fun (source, c) => (.moved source, c)
  | .clear stage => (c.clear stage).map fun (count, c) => (.dropped count, c)
  | .clearAll => .ok (.cleared, c.clearAll)

/-- One operation after the other, with all the answers. -/
def run (c : CacheLists) : List Op → Except Fault (List Answer × CacheLists)
  | [] => .ok ([], c)
  | op :: ops => do
    let (answer, c) ← c.perform op
    let (answers, c) ← c.run ops
    pure (answer :: answers, c)

end CacheLists

abbrev Pipeline := CacheStage → List CachedBlock

theorem CacheStage.index_inj {stage other : CacheStage} (h : stage.index = other.index) : stage = other := by
  cases stage <;> cases other <;> first | rfl | cases h

namespace Pipeline
open CacheLists (Op Answer)

def ids (p : Pipeline) : List UInt64 := (CacheStage.all.flatMap p).map CachedBlock.id

/-- The stage that holds a block. -/
def holder? (p : Pipeline) (id : UInt64) : Option CacheStage :=
  CacheStage.all.find? fun stage => id ∈ (p stage).map CachedBlock.id

def without (p : Pipeline) (id : UInt64) : Pipeline := fun stage => (p stage).filter fun b => b.id ≠ id

def append (p : Pipeline) (stage : CacheStage) (b : CachedBlock) : Pipeline :=
  Function.update p stage (p stage ++ [b])

def perform (p : Pipeline) : Op → Answer × Pipeline
  | .add stage b => if b.id ∈ p.ids then (.added false, p) else (.added true, p.append stage b)
  | .remove stage id =>
    (.removed ((p stage).find? fun b => b.id = id),
      Function.update p stage ((p stage).filter fun b => b.id ≠ id))
  | .moveTo stage b => (.moved (p.holder? b.id), (p.without b.id).append stage b)
  | .clear stage => (.dropped (p stage).length, Function.update p stage [])
  | .clearAll => (.cleared, fun _ => [])

def run (p : Pipeline) : List Op → List Answer × Pipeline
  | [] => ([], p)
  | op :: ops =>
    let (answer, p) := p.perform op
    let (answers, p) := run p ops
    (answer :: answers, p)

/-- The entry of a block in the arena. -/
def entry (b : CachedBlock) : UInt64 × CachedBlock := (b.id, b)

/-- The lists of the arena, in the order of the stages. -/
def plain (p : Pipeline) : Slab.Plain UInt64 CachedBlock := CacheStage.all.map fun stage => (p stage).map entry

variable {p : Pipeline} {stage : CacheStage} {id : UInt64} {b : CachedBlock}

theorem getElem?_plain (p : Pipeline) (stage : CacheStage) :
    p.plain[stage.index]? = some ((p stage).map entry) := by
  cases stage <;> rfl

theorem plain_update (p : Pipeline) (stage : CacheStage) (row : List CachedBlock) :
    plain (Function.update p stage row) = p.plain.set stage.index (row.map entry) := by
  cases stage <;> rfl

theorem keys_map_entry (row : List CachedBlock) : (row.map entry).map Prod.fst = row.map CachedBlock.id :=
  List.map_map

theorem keys_plain (p : Pipeline) : p.plain.keys = p.ids := by
  unfold Slab.Plain.keys plain ids
  rw [← List.flatMap_def, List.map_flatMap, List.map_flatMap]
  exact List.flatMap_congr fun stage _ => keys_map_entry (p stage)

theorem plain_without (p : Pipeline) (id : UInt64) : plain (p.without id) = p.plain.without id := by
  unfold plain Slab.Plain.without
  rw [List.map_map]
  refine List.map_congr_left fun stage _ => ?_
  have hrow : ((p stage).map entry).filter (fun e => e.1 ≠ id) = (p.without id stage).map entry := List.filter_map
  exact hrow.symm

theorem mem_ids : id ∈ p.ids ↔ ∃ stage, id ∈ (p stage).map CachedBlock.id := by
  have hall : ∀ stage : CacheStage, stage ∈ CacheStage.all := fun stage => by cases stage <;> decide
  unfold ids
  rw [List.map_flatMap, List.mem_flatMap]
  exact ⟨fun ⟨stage, _, h⟩ => ⟨stage, h⟩, fun ⟨stage, h⟩ => ⟨stage, hall stage, h⟩⟩

theorem owner?_plain (p : Pipeline) (id : UInt64) : p.plain.owner? id = (p.holder? id).map CacheStage.index := by
  unfold Slab.Plain.owner? holder? plain CacheStage.all
  simp only [List.map_cons, List.map_nil, keys_map_entry, List.findIdx?_cons, List.find?_cons]
  cases decide (id ∈ (p .pendingCached).map CachedBlock.id) <;>
    cases decide (id ∈ (p .cached).map CachedBlock.id) <;>
    cases decide (id ∈ (p .pendingUncached).map CachedBlock.id) <;> rfl

theorem mem_of_holder? (h : p.holder? id = some stage) : id ∈ (p stage).map CachedBlock.id :=
  of_decide_eq_true (List.find?_some (p := fun stage => decide (id ∈ (p stage).map CachedBlock.id)) h)

/-- A block that is on a list is on no other. -/
theorem holder?_eq_some_iff (hp : p.ids.Nodup) : p.holder? id = some stage ↔ id ∈ (p stage).map CachedBlock.id := by
  refine ⟨mem_of_holder?, fun hid => ?_⟩
  have howner := Slab.Plain.owner?_eq (keys_plain p ▸ hp) (getElem?_plain p stage) (keys_map_entry (p stage) ▸ hid)
  rw [owner?_plain, Option.map_eq_some_iff] at howner
  obtain ⟨other, hother, hindex⟩ := howner
  exact CacheStage.index_inj hindex ▸ hother

theorem filter_of_notMem {row : List CachedBlock} (h : id ∉ row.map CachedBlock.id) :
    row.filter (fun b => b.id ≠ id) = row :=
  List.filter_eq_self.2 fun _ hb => decide_eq_true fun hid => h (List.mem_map.2 ⟨_, hb, hid⟩)

/-- A block is taken off the one list that holds it. -/
theorem without_eq (hp : p.ids.Nodup) (h : p.holder? id = some stage) :
    p.without id = Function.update p stage ((p stage).filter fun b => b.id ≠ id) := by
  funext other
  by_cases hother : other = stage
  · subst hother
    rw [Function.update_self]
    rfl
  · rw [Function.update_of_ne hother]
    refine filter_of_notMem fun hid => hother ?_
    exact Option.some.inj (((holder?_eq_some_iff hp).2 hid).symm.trans h)

/-- The arena holds for an id what stands on the list that has it. -/
theorem exists_of_holder? (hp : p.ids.Nodup) (h : p.holder? id = some stage) :
    ∃ b, ((p stage).find? fun b => b.id = id) = some b ∧ p.plain.value? id = some b := by
  obtain ⟨b, hb, hid⟩ := List.mem_map.1 (mem_of_holder? h)
  cases hfind : (p stage).find? fun b => b.id = id with
  | none => exact (List.find?_eq_none.1 hfind b hb (decide_eq_true hid)).elim
  | some found =>
    have hmem : entry found ∈ (p stage).map entry := List.mem_map_of_mem (List.mem_of_find?_eq_some hfind)
    have hsame := List.find?_some hfind
    rw [decide_eq_true_iff] at hsame
    exact ⟨found, rfl, Slab.Plain.value?_eq (keys_plain p ▸ hp) (getElem?_plain p stage) (hsame ▸ hmem)⟩

end Pipeline

namespace CacheLists
variable {c : CacheLists} {p : Pipeline} {stage : CacheStage} {id : UInt64}

/-- The arena shows the lists of a pipeline. -/
def Shows (c : CacheLists) (p : Pipeline) : Prop := c.slab.Shows p.plain

namespace Shows

theorem ids_nodup (h : c.Shows p) : p.ids.Nodup := Pipeline.keys_plain p ▸ Slab.Shows.keys_nodup h

theorem start : ({} : CacheLists).Shows fun _ => [] := Slab.withLists_shows 3

theorem update {s : Slab UInt64 CachedBlock} {row : List CachedBlock}
    (h : s.Shows (p.plain.set stage.index (row.map Pipeline.entry))) :
    (⟨s⟩ : CacheLists).Shows (Function.update p stage row) := by
  unfold Shows
  rwa [Pipeline.plain_update]

theorem without {s : Slab UInt64 CachedBlock} (h : s.Shows (p.plain.without id)) :
    (⟨s⟩ : CacheLists).Shows (p.without id) := by
  unfold Shows
  rwa [Pipeline.plain_without]

theorem notMem_keys (hid : id ∉ p.ids) : id ∉ p.plain.keys := Pipeline.keys_plain p ▸ hid

/-- A block whose id is new is appended. -/
theorem pushBack (h : c.Shows p) {b : CachedBlock} (hb : b.id ∉ p.ids) (stage : CacheStage) :
    ∃ s, c.slab.pushBack stage.index b.id b = .ok (true, s) ∧ (⟨s⟩ : CacheLists).Shows (p.append stage b) := by
  obtain ⟨s, hpush, hs⟩ := Slab.Shows.pushBack h (Pipeline.getElem?_plain p stage) (notMem_keys hb) b
  refine ⟨s, hpush, update ?_⟩
  rwa [List.map_append]

theorem add (h : c.Shows p) (stage : CacheStage) (b : CachedBlock) :
    ∃ c', c.perform (.add stage b) = .ok ((p.perform (.add stage b)).1, c') ∧
      c'.Shows (p.perform (.add stage b)).2 := by
  by_cases hb : b.id ∈ p.ids
  · have hkeys : b.id ∈ p.plain.keys := Pipeline.keys_plain p ▸ hb
    refine ⟨c, ?_, by simpa only [Pipeline.perform, if_pos hb] using h⟩
    simp only [perform, CacheLists.add, (Slab.Shows.push_refused h hkeys stage.index b).2, lift, Except.map,
      Pipeline.perform, if_pos hb]
  · obtain ⟨s, hpush, hs⟩ := h.pushBack hb stage
    refine ⟨⟨s⟩, ?_, by simpa only [Pipeline.perform, if_neg hb] using hs⟩
    simp only [perform, CacheLists.add, hpush, lift, Except.map, Pipeline.perform, if_neg hb]

theorem remove (h : c.Shows p) (stage : CacheStage) (id : UInt64) :
    ∃ c', c.perform (.remove stage id) = .ok ((p.perform (.remove stage id)).1, c') ∧
      c'.Shows (p.perform (.remove stage id)).2 := by
  have hrem := Slab.Shows.removeFrom h stage.index id
  rw [Pipeline.owner?_plain] at hrem
  by_cases hholder : p.holder? id = some stage
  · obtain ⟨b, hfind, hvalue⟩ := Pipeline.exists_of_holder? h.ids_nodup hholder
    obtain ⟨s, hremove, hs⟩ := Slab.Shows.remove_eq h id
    rw [Pipeline.owner?_plain, hvalue, hholder] at hremove
    rw [hholder, Option.map_some, if_pos rfl, hremove] at hrem
    have hshows := without hs
    rw [Pipeline.without_eq h.ids_nodup hholder] at hshows
    refine ⟨⟨s⟩, ?_, hshows⟩
    simp only [perform, CacheLists.remove, hrem, Pipeline.perform, hfind]
    rfl
  · have hnot : id ∉ (p stage).map CachedBlock.id :=
      fun hid => hholder ((Pipeline.holder?_eq_some_iff h.ids_nodup).2 hid)
    have hindex : (p.holder? id).map CacheStage.index ≠ some stage.index := by
      rw [Ne, Option.map_eq_some_iff]
      rintro ⟨other, hother, hsame⟩
      exact hholder (CacheStage.index_inj hsame ▸ hother)
    have hnone : ((p stage).find? fun b => b.id = id) = none :=
      List.find?_eq_none.2 fun b hb hid => hnot (List.mem_map.2 ⟨b, hb, of_decide_eq_true hid⟩)
    have hsame : (p.perform (.remove stage id)).2 = p := by
      refine Eq.trans ?_ (Function.update_eq_self stage p)
      exact congrArg (Function.update p stage) (Pipeline.filter_of_notMem hnot)
    rw [if_neg hindex] at hrem
    refine ⟨c, ?_, hsame.symm ▸ h⟩
    simp only [perform, CacheLists.remove, hrem, lift, Except.map, Pipeline.perform, hnone]

private theorem moveTo_eq {stage : CacheStage} {b : CachedBlock} {found : Option (Nat × CachedBlock)}
    {s s' : Slab UInt64 CachedBlock} {source : Option CacheStage} {linked : Bool}
    (hremove : c.slab.remove b.id = .ok (found, s))
    (hsource : (found.mapM fun e => CacheStage.ofIndex e.1) = .ok source)
    (hpush : s.pushBack stage.index b.id b = .ok (linked, s')) : c.moveTo stage b = .ok (source, ⟨s'⟩) := by
  unfold CacheLists.moveTo
  rw [hremove]
  simp only [bind, Except.bind, hsource, hpush, pure, Except.pure]

/-- A block is taken off the list that holds it, which frees its id, and appended where it is wanted. -/
theorem moveTo (h : c.Shows p) (stage : CacheStage) (b : CachedBlock) :
    ∃ c', c.perform (.moveTo stage b) = .ok ((p.perform (.moveTo stage b)).1, c') ∧
      c'.Shows (p.perform (.moveTo stage b)).2 := by
  obtain ⟨s, hremove, hs⟩ := Slab.Shows.remove_eq h b.id
  have hfree : b.id ∉ (p.without b.id).ids := by
    rw [Pipeline.mem_ids]
    rintro ⟨other, hother⟩
    obtain ⟨d, hd, hid⟩ := List.mem_map.1 hother
    exact of_decide_eq_true (List.mem_filter.1 hd).2 hid
  obtain ⟨s', hpush, hs'⟩ := (without hs).pushBack hfree stage
  have hsource : (((p.plain.owner? b.id).bind fun l => (p.plain.value? b.id).map (l, ·)).mapM fun e =>
      CacheStage.ofIndex e.1) = .ok (p.holder? b.id) := by
    rw [Pipeline.owner?_plain]
    cases hholder : p.holder? b.id with
    | none => rfl
    | some source =>
      obtain ⟨d, -, hvalue⟩ := Pipeline.exists_of_holder? h.ids_nodup hholder
      rw [hvalue]
      cases source <;> rfl
  refine ⟨⟨s'⟩, ?_, hs'⟩
  have hmove := moveTo_eq hremove hsource hpush
  simp only [perform, hmove, Except.map, Pipeline.perform]

theorem clear (h : c.Shows p) (stage : CacheStage) :
    ∃ c', c.perform (.clear stage) = .ok ((p.perform (.clear stage)).1, c') ∧
      c'.Shows (p.perform (.clear stage)).2 := by
  obtain ⟨s, hclear, hs⟩ := Slab.Shows.clearList h (Pipeline.getElem?_plain p stage)
  rw [List.length_map] at hclear
  refine ⟨⟨s⟩, ?_, update hs⟩
  simp only [perform, CacheLists.clear, hclear, lift, Except.map, Pipeline.perform]

/-- Operation by operation, the lists answer as the pipeline does and show what it becomes. -/
theorem perform (h : c.Shows p) (op : Op) :
    ∃ c', c.perform op = .ok ((p.perform op).1, c') ∧ c'.Shows (p.perform op).2 := by
  cases op with
  | add stage b => exact h.add stage b
  | remove stage id => exact h.remove stage id
  | moveTo stage b => exact h.moveTo stage b
  | clear stage => exact h.clear stage
  | clearAll => exact ⟨_, rfl, Slab.Shows.clear h⟩

theorem run (h : c.Shows p) (ops : List Op) : ∃ c', c.run ops = .ok ((p.run ops).1, c') ∧ c'.Shows (p.run ops).2 := by
  induction ops generalizing c p with
  | nil => exact ⟨c, rfl, h⟩
  | cons op ops ih =>
    obtain ⟨c₁, hstep, h₁⟩ := h.perform op
    obtain ⟨c', hrun, hc'⟩ := ih h₁
    refine ⟨c', ?_, hc'⟩
    simp only [CacheLists.run, hstep, hrun, bind, Except.bind, pure, Except.pure]
    rfl

end Shows

/-- Whatever is asked of the lists, they answer as the pipeline does. -/
structure Agrees (c : CacheLists) (p : Pipeline) : Prop where
  blocks : ∀ stage, c.blocks stage = .ok (p stage)
  length : ∀ stage, c.length stage = .ok (p stage).length
  listOf? : ∀ id, c.listOf? id = .ok (p.holder? id)
  contains : ∀ stage id, c.contains stage id = .ok (decide (id ∈ (p stage).map CachedBlock.id))
  isEmpty : c.isEmpty = CacheStage.all.all fun stage => (p stage).isEmpty

theorem Shows.listOf?_eq (h : c.Shows p) (id : UInt64) : c.listOf? id = .ok (p.holder? id) := by
  have hlist := Slab.Shows.listOf?_eq h id
  rw [Pipeline.owner?_plain] at hlist
  unfold CacheLists.listOf?
  rw [hlist]
  cases p.holder? id with
  | none => rfl
  | some stage => cases stage <;> rfl

theorem Shows.agrees (h : c.Shows p) : c.Agrees p where
  blocks stage := by
    unfold CacheLists.blocks
    rw [Slab.Shows.entries_eq h (Pipeline.getElem?_plain p stage)]
    simp only [Except.map, List.map_map]
    exact congrArg Except.ok (List.map_id _)
  length stage := by
    unfold CacheLists.length
    rw [Slab.Shows.length_eq h (Pipeline.getElem?_plain p stage), List.length_map]
  listOf? := h.listOf?_eq
  contains stage id := by
    unfold CacheLists.contains
    rw [h.listOf?_eq]
    simp only [bind, Except.bind, pure, Except.pure, Pipeline.holder?_eq_some_iff h.ids_nodup]
  isEmpty := by
    have hempty := (Slab.Shows.agrees h).isEmpty
    unfold CacheLists.isEmpty
    rw [hempty]
    unfold Pipeline.plain CacheStage.all
    simp only [List.map_cons, List.map_nil, List.flatten_cons, List.flatten_nil, List.all_cons, List.all_nil]
    cases p .pendingCached <;> cases p .cached <;> cases p .pendingUncached <;> rfl

/-- The cache lists do in every run what three sequences of blocks do: a block is appended unless its id is on one of
them, is removed from the very sequence that is named, and is moved to the end of a sequence, whichever held it
before. No id is ever on two of them, or twice on one, and nothing goes wrong in any run. -/
theorem run_refines_pipeline (ops : List Op) :
    ∃ c answers p, run {} ops = .ok (answers, c) ∧ Pipeline.run (fun _ => []) ops = (answers, p) ∧
      p.ids.Nodup ∧ c.Agrees p := by
  obtain ⟨c, hrun, hc⟩ := Shows.start.run ops
  exact ⟨c, _, _, hrun, rfl, hc.ids_nodup, hc.agrees⟩

end CacheLists
end DatanodeLedger
