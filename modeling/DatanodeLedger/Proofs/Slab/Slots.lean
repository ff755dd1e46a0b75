import DatanodeLedger.Proofs.Slab.Plain
import DatanodeLedger.Proofs.Slab.Segment
import Mathlib.Algebra.GroupWithZero.Nat

/-! What operations do with the slots of a slab, links apart. An entry that is linked gets the slot that was
vacated last, or a new one if none is vacant; entries that are unlinked give their slots back. A run adds slots
only where it links more entries than it has vacated slots for. -/
namespace DatanodeLedger.Slab
variable {κ α : Type} {s s' s'' : Slab κ α} {l slot i : Nat} {e : Entry κ α} {k : κ} {a : α}

/-- An entry without its links. -/
structure Tenant (κ α : Type) where
  key : κ
  value : α
  list : Nat

def Entry.tenant (e : Entry κ α) : Tenant κ α := ⟨e.key, e.value, e.list⟩

/-- Who sits in a slot. -/
def tenant? (s : Slab κ α) (i : Nat) : Option (Tenant κ α) := s.slots[i]?.join.map Entry.tenant

theorem tenant?_of_slot {c : Option (Entry κ α)} (h : s.slots[i]? = some c) :
    s.tenant? i = c.map Entry.tenant := by
  rw [tenant?, h, Option.join_some]

theorem tenant?_of_size_le (h : s.slots.size ≤ i) : s.tenant? i = none := by
  rw [tenant?, Array.getElem?_eq_none h]
  rfl

theorem tenant?_setSlot_of_ne (s : Slab κ α) (h : slot ≠ i) (c : Option (Entry κ α)) :
    (s.setSlot slot c).tenant? i = s.tenant? i := by
  rw [tenant?, slots_setSlot_of_ne s h, tenant?]

theorem tenant?_setSlot_none (s : Slab κ α) (slot i : Nat) :
    (s.setSlot slot none).tenant? i = s.tenant? i ∨ (s.setSlot slot none).tenant? i = none := by
  by_cases h : slot = i
  · right
    rw [tenant?, slots_setSlot, if_pos h]
    cases s.slots[i]? <;> rfl
  · exact .inl (s.tenant?_setSlot_of_ne h none)

/-- Nothing has changed but links, the ends of lists and the index. -/
structure SameTenants (s s' : Slab κ α) : Prop where
  tenant : ∀ i, s'.tenant? i = s.tenant? i
  size : s'.slots.size = s.slots.size
  free : s'.free = s.free

/-- The slots of so many entries are given back, and nobody else is touched. -/
structure Releases (s s' : Slab κ α) (count : Nat) : Prop where
  tenant : ∀ i, s'.tenant? i = s.tenant? i ∨ s'.tenant? i = none
  size : s'.slots.size = s.slots.size
  free : s'.free.length = s.free.length + count

/-- An entry is given the slot that was vacated last, or a new one behind the others if none is vacant, and nobody
else is touched. -/
structure Occupies (s s' : Slab κ α) : Prop where
  tenant : ∀ i, i ≠ s.free.headD s.slots.size → s'.tenant? i = s.tenant? i
  size : s'.slots.size = if s.free = [] then s.slots.size + 1 else s.slots.size
  free : s'.free = s.free.tail

/-- How many entries an operation has linked, by its answer. -/
def Answer.joined : Answer α → Nat
  | pushed true => 1
  | _ => 0

/-- How many entries an operation has unlinked, by its answer, which does not tell when all were. -/
def Answer.left : Answer α → Nat
  | removed (some _) | taken (some _) => 1
  | dropped count => count
  | _ => 0

/-- At no moment have more entries been linked than have been unlinked before, `spare` of them apart. -/
def Churns (spare : Nat) (answers : List (Answer α)) : Prop :=
  ∀ early, early <+: answers → (early.map Answer.joined).sum ≤ (early.map Answer.left).sum + spare

theorem churns_cons {spare : Nat} {answer : Answer α} {answers : List (Answer α)} :
    Churns spare (answer :: answers) ↔ ∀ early, early <+: answers →
      answer.joined + (early.map Answer.joined).sum ≤
        answer.left + (early.map Answer.left).sum + spare := by
  constructor
  · intro h early hearly
    have hcons := h (answer :: early) ((List.prefix_cons_inj answer).2 hearly)
    simpa only [List.map_cons, List.sum_cons] using hcons
  · intro h early hearly
    rcases List.prefix_cons_iff.1 hearly with rfl | ⟨later, rfl, hlater⟩
    · exact Nat.zero_le _
    · simpa only [List.map_cons, List.sum_cons] using h later hlater

namespace SameTenants

theorem trans (h : s.SameTenants s') (h' : s'.SameTenants s'') : s.SameTenants s'' where
  tenant i := (h'.tenant i).trans (h.tenant i)
  size := h'.size.trans h.size
  free := h'.free.trans h.free

theorem releases (h : s.SameTenants s') : s.Releases s' 0 :=
  ⟨fun i => .inl (h.tenant i), h.size, congrArg List.length h.free⟩

end SameTenants

theorem Releases.trans {c c' : Nat} (h : s.Releases s' c) (h' : s'.Releases s'' c') :
    s.Releases s'' (c' + c) where
  tenant i := by
    rcases h'.tenant i with heq | hnone
    · rw [heq]
      exact h.tenant i
    · exact .inr hnone
  size := h'.size.trans h.size
  free := by
    rw [h'.free, h.free]
    omega

theorem Releases.refl (s : Slab κ α) : s.Releases s 0 := ⟨fun _ => .inl rfl, rfl, rfl⟩

theorem Occupies.trans (h : s.Occupies s') (h' : s'.SameTenants s'') : s.Occupies s'' where
  tenant i hi := (h'.tenant i).trans (h.tenant i hi)
  size := h'.size.trans h.size
  free := h'.free.trans h.free

section inversion
variable {ε β γ : Type} {x : Except ε β} {c : γ}

private theorem exists_of_bind_eq_ok {f : β → Except ε γ} (h : x >>= f = .ok c) :
    ∃ b, x = .ok b ∧ f b = .ok c := by
  cases x with
  | error => cases h
  | ok b => exact ⟨b, rfl, h⟩

private theorem exists_of_map_eq_ok {f : β → γ} (h : x.map f = .ok c) : ∃ b, x = .ok b ∧ f b = c := by
  cases x with
  | error => cases h
  | ok b => exact ⟨b, rfl, Except.ok.inj h⟩

end inversion

theorem slot_of_entry (h : s.entry slot = .ok e) : s.slots[slot]? = some (some e) := by
  unfold entry at h
  split at h
  · rename_i he
    cases h
    exact he
  · cases h
  · cases h

theorem sameTenants_modifyEnds (s : Slab κ α) (l : Nat) (f : Ends → Ends) :
    s.SameTenants (s.modifyEnds l f) := ⟨fun _ => rfl, rfl, rfl⟩

theorem sameTenants_setSlot {e' : Entry κ α} (h : s.entry slot = .ok e) (he : e'.tenant = e.tenant) :
    s.SameTenants (s.setSlot slot (some e')) where
  tenant i := by
    by_cases hi : slot = i
    · subst hi
      have hslot := slot_of_entry h
      rw [tenant?_of_slot hslot, tenant?_of_slot (slots_setSlot_self hslot _), Option.map_some, he,
        Option.map_some]
    · exact s.tenant?_setSlot_of_ne hi _
  size := Array.size_setIfInBounds
  free := rfl

theorem sameTenants_linkNext {before next : Option Nat} (h : s.linkNext l before next = .ok s') :
    s.SameTenants s' := by
  cases before with
  | none =>
    cases h
    exact sameTenants_modifyEnds s l _
  | some slot =>
    obtain ⟨e, he, rfl⟩ := exists_of_map_eq_ok h
    exact sameTenants_setSlot he rfl

theorem sameTenants_linkPrev {after prev : Option Nat} (h : s.linkPrev l after prev = .ok s') :
    s.SameTenants s' := by
  cases after with
  | none =>
    cases h
    exact sameTenants_modifyEnds s l _
  | some slot =>
    obtain ⟨e, he, rfl⟩ := exists_of_map_eq_ok h
    exact sameTenants_setSlot he rfl

theorem occupies_alloc (s : Slab κ α) (e : Entry κ α) : s.Occupies (s.alloc e).2 := by
  cases hf : s.free with
  | nil =>
    have halloc : s.alloc e = (s.slots.size, { s with slots := s.slots.push (some e) }) := by
      rw [alloc, hf]
    rw [halloc]
    refine ⟨fun i hi => ?_, ?_, ?_⟩
    · rw [hf] at hi
      have hslot : (s.slots.push (some e))[i]? = s.slots[i]? := Array.getElem?_push.trans (if_neg hi)
      simp only [tenant?, hslot]
    · rw [if_pos hf]
      exact Array.size_push _
    · simp only [hf, List.tail_nil]
  | cons slot free =>
    have halloc : s.alloc e = (slot, { s.setSlot slot (some e) with free }) := by
      rw [alloc, hf]
    rw [halloc]
    refine ⟨fun i hi => ?_, ?_, ?_⟩
    · rw [hf] at hi
      exact s.tenant?_setSlot_of_ne (Ne.symm hi) _
    · rw [if_neg (hf ▸ List.cons_ne_nil slot free)]
      exact Array.size_setIfInBounds
    · rw [hf]
      rfl

/-- Once its slot is found, an entry is only linked. -/
private theorem occupies_of_linked (hlink : (s.alloc e).2.SameTenants s') (l : Nat) (f : Ends → Ends)
    (index : Table κ Nat) : s.Occupies { s'.modifyEnds l f with index } :=
  ((occupies_alloc s e).trans hlink).trans ⟨fun _ => rfl, rfl, rfl⟩

/-- A slot that is unlinked is emptied before its neighbours are joined and given back after. -/
theorem releases_unlink (h : s.unlink slot = .ok (e, s')) : s.Releases s' 1 := by
  unfold unlink at h
  split at h
  · obtain ⟨e', -, h⟩ := exists_of_bind_eq_ok h
    obtain ⟨s₁, hnext, h⟩ := exists_of_bind_eq_ok h
    obtain ⟨s₂, hprev, h⟩ := exists_of_bind_eq_ok h
    obtain ⟨ends, -, h⟩ := exists_of_bind_eq_ok h
    have hsame := (sameTenants_linkNext hnext).trans (sameTenants_linkPrev hprev)
    split at h
    · cases h
    · cases h
      refine ⟨fun i => ?_, hsame.size.trans Array.size_setIfInBounds, ?_⟩
      · exact (s.tenant?_setSlot_none slot i).imp (hsame.tenant i).trans (hsame.tenant i).trans
      · exact congrArg (fun free : List Nat => (slot :: free).length) hsame.free
  · cases h
  · cases h

variable [DecidableEq κ]

theorem pushFront_cases {linked : Bool} (h : s.pushFront l k a = .ok (linked, s')) :
    linked = false ∧ s' = s ∨ linked = true ∧ s.Occupies s' := by
  unfold pushFront at h
  split at h
  · cases h
    exact .inl ⟨rfl, rfl⟩
  · obtain ⟨ends, -, h⟩ := exists_of_bind_eq_ok h
    obtain ⟨s₂, hlink, h⟩ := exists_of_bind_eq_ok h
    cases h
    exact .inr ⟨rfl, occupies_of_linked (sameTenants_linkPrev hlink) l _ _⟩

theorem pushBack_cases {linked : Bool} (h : s.pushBack l k a = .ok (linked, s')) :
    linked = false ∧ s' = s ∨ linked = true ∧ s.Occupies s' := by
  unfold pushBack at h
  split at h
  · cases h
    exact .inl ⟨rfl, rfl⟩
  · obtain ⟨ends, -, h⟩ := exists_of_bind_eq_ok h
    obtain ⟨s₂, hlink, h⟩ := exists_of_bind_eq_ok h
    cases h
    exact .inr ⟨rfl, occupies_of_linked (sameTenants_linkNext hlink) l _ _⟩

theorem releases_remove {found : Option (Nat × α)} (h : s.remove k = .ok (found, s')) :
    s.Releases s' (Answer.removed found).left := by
  unfold remove at h
  split at h
  · cases h
    exact .refl s
  · obtain ⟨⟨e, s₁⟩, hunlink, h⟩ := exists_of_map_eq_ok h
    cases h
    have hindex : s.SameTenants { s with index := s.index.erase k } := ⟨fun _ => rfl, rfl, rfl⟩
    exact hindex.releases.trans (releases_unlink hunlink)

theorem releases_removeFrom {value : Option α} (h : s.removeFrom l k = .ok (value, s')) :
    s.Releases s' (Answer.taken value).left := by
  unfold removeFrom at h
  obtain ⟨owner, -, h⟩ := exists_of_bind_eq_ok h
  split at h
  · obtain ⟨⟨found, s₁⟩, hremove, h⟩ := exists_of_bind_eq_ok h
    cases h
    cases found with
    | none => exact releases_remove hremove
    | some found => exact releases_remove hremove
  · cases h
    exact .refl s

/-- Slot by slot, whatever the links lead to. -/
theorem releases_vacate {fuel count : Nat} {start : Option Nat}
    (h : s.vacate fuel start = .ok (count, s')) : s.Releases s' count := by
  induction fuel generalizing s start count with
  | zero =>
    cases h
    exact .refl _
  | succ fuel ih =>
    cases start with
    | none =>
      cases h
      exact .refl _
    | some slot =>
      obtain ⟨e, -, h⟩ := exists_of_bind_eq_ok h
      obtain ⟨⟨rest, s₁⟩, hrest, h⟩ := exists_of_bind_eq_ok h
      cases h
      have hfirst : s.Releases
          { s.setSlot slot none with index := s.index.erase e.key, free := slot :: s.free } 1 :=
        ⟨s.tenant?_setSlot_none slot, Array.size_setIfInBounds, rfl⟩
      exact hfirst.trans (ih hrest)

theorem releases_clearList {count : Nat} (h : s.clearList l = .ok (count, s')) :
    s.Releases s' count := by
  unfold clearList at h
  obtain ⟨head, -, h⟩ := exists_of_bind_eq_ok h
  obtain ⟨⟨count', s₁⟩, hvacate, h⟩ := exists_of_bind_eq_ok h
  cases h
  have hends := (releases_vacate hvacate).trans (sameTenants_modifyEnds s₁ l fun _ => {}).releases
  rwa [Nat.zero_add] at hends

/-- An operation that does not empty the slab links one entry or unlinks as many as it answers. -/
theorem perform_cases {op : Op κ α} {answer : Answer α} (h : s.perform op = .ok (answer, s'))
    (hop : op ≠ .clear) :
    answer.joined = 0 ∧ s.Releases s' answer.left ∨
      answer.joined = 1 ∧ answer.left = 0 ∧ s.Occupies s' := by
  cases op with
  | pushFront l k a =>
    obtain ⟨⟨linked, s₁⟩, hpush, h⟩ := exists_of_map_eq_ok h
    cases h
    rcases pushFront_cases hpush with ⟨rfl, rfl⟩ | ⟨rfl, hslot⟩
    · exact .inl ⟨rfl, .refl _⟩
    · exact .inr ⟨rfl, rfl, hslot⟩
  | pushBack l k a =>
    obtain ⟨⟨linked, s₁⟩, hpush, h⟩ := exists_of_map_eq_ok h
    cases h
    rcases pushBack_cases hpush with ⟨rfl, rfl⟩ | ⟨rfl, hslot⟩
    · exact .inl ⟨rfl, .refl _⟩
    · exact .inr ⟨rfl, rfl, hslot⟩
  | remove k =>
    obtain ⟨⟨found, s₁⟩, hremove, h⟩ := exists_of_map_eq_ok h
    cases h
    exact .inl ⟨rfl, releases_remove hremove⟩
  | removeFrom l k =>
    obtain ⟨⟨value, s₁⟩, hremove, h⟩ := exists_of_map_eq_ok h
    cases h
    exact .inl ⟨rfl, releases_removeFrom hremove⟩
  | clearList l =>
    obtain ⟨⟨count, s₁⟩, hclear, h⟩ := exists_of_map_eq_ok h
    cases h
    exact .inl ⟨rfl, releases_clearList hclear⟩
  | clear => exact absurd rfl hop

theorem run_cons {op : Op κ α} {ops : List (Op κ α)} {answers : List (Answer α)}
    (h : s.run (op :: ops) = .ok (answers, s')) :
    ∃ answer rest s₁, s.perform op = .ok (answer, s₁) ∧ s₁.run ops = .ok (rest, s') ∧
      answers = answer :: rest := by
  obtain ⟨⟨answer, s₁⟩, hop, h⟩ := exists_of_bind_eq_ok h
  obtain ⟨⟨rest, s₂⟩, hops, h⟩ := exists_of_bind_eq_ok h
  cases h
  exact ⟨answer, rest, s₁, hop, hops, rfl⟩

theorem run_concat {op : Op κ α} {ops : List (Op κ α)} {answers : List (Answer α)} {answer : Answer α}
    (h : s.run ops = .ok (answers, s')) (hop : s'.perform op = .ok (answer, s'')) :
    s.run (ops ++ [op]) = .ok (answers ++ [answer], s'') := by
  induction ops generalizing s answers with
  | nil =>
    cases h
    simp only [List.nil_append, run, hop, bind, Except.bind, pure, Except.pure]
  | cons first ops ih =>
    obtain ⟨answer', rest, s₁, hfirst, hrest, rfl⟩ := run_cons h
    simp only [List.cons_append, run, hfirst, ih hrest, bind, Except.bind, pure, Except.pure]

theorem size_le_perform {op : Op κ α} {answer : Answer α} (h : s.perform op = .ok (answer, s'))
    (hop : op ≠ .clear) : s.slots.size ≤ s'.slots.size := by
  rcases perform_cases h hop with ⟨-, hrel⟩ | ⟨-, -, hocc⟩
  · exact Nat.le_of_eq hrel.size.symm
  · rw [hocc.size]
    split
    · exact Nat.le_succ _
    · exact Nat.le_refl _

theorem size_le_run {ops : List (Op κ α)} {answers : List (Answer α)}
    (h : s.run ops = .ok (answers, s')) (hops : .clear ∉ ops) : s.slots.size ≤ s'.slots.size := by
  induction ops generalizing s answers with
  | nil =>
    cases h
    exact Nat.le_refl _
  | cons op ops ih =>
    obtain ⟨answer, rest, s₁, hop, hrest, -⟩ := run_cons h
    obtain ⟨hne, hops⟩ := not_or.1 (mt List.mem_cons.2 hops)
    exact Nat.le_trans (size_le_perform hop (Ne.symm hne)) (ih hrest hops)

/-- A run adds no slots exactly if it never links more than it has unlinked before, the vacant slots apart. -/
theorem size_run_eq_iff {ops : List (Op κ α)} {answers : List (Answer α)}
    (h : s.run ops = .ok (answers, s')) (hops : .clear ∉ ops) :
    s'.slots.size = s.slots.size ↔ Churns s.free.length answers := by
  induction ops generalizing s answers with
  | nil =>
    cases h
    refine iff_of_true rfl fun early hearly => ?_
    rw [List.prefix_nil.1 hearly]
    exact Nat.zero_le _
  | cons op ops ih =>
    obtain ⟨answer, rest, s₁, hop, hrest, rfl⟩ := run_cons h
    obtain ⟨hne, hops⟩ := not_or.1 (mt List.mem_cons.2 hops)
    have hlater := ih hrest hops
    rw [churns_cons]
    rcases perform_cases hop (Ne.symm hne) with ⟨hjoined, hrel⟩ | ⟨hjoined, hleft, hocc⟩
    · rw [← hrel.size, hlater, hjoined]
      have hfree := hrel.free
      refine forall₂_congr fun early _ => ?_
      omega
    · rw [hjoined, hleft]
      have hsize := hocc.size
      by_cases hfull : s.free = []
      · -- the first answer alone is one entry too many
        rw [if_pos hfull] at hsize
        refine iff_of_false ?_ fun hchurns => ?_
        · have hmono := size_le_run hrest hops
          omega
        · have hfirst := hchurns [] List.nil_prefix
          rw [hfull] at hfirst
          simp at hfirst
      · rw [if_neg hfull] at hsize
        have hfree := congrArg List.length hocc.free
        rw [List.length_tail] at hfree
        have hspare := List.length_pos_iff.2 hfull
        rw [← hsize, hlater]
        refine forall₂_congr fun early _ => ?_
        omega

/-- The second key takes the slot of the first. -/
example : ((withLists 1 : Slab Nat Nat).run [.pushBack 0 1 10, .remove 1, .pushFront 0 2 20]).map
    (fun r => r.2.slots.size) = .ok 1 := rfl

end DatanodeLedger.Slab
