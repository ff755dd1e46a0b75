import DatanodeLedger.Proofs.Membership.Attach
import DatanodeLedger.Proofs.Membership.Requests

/-! What adding, removing and replacing a block come to, case by case, on a ledger whose lists and
back-references agree. All that is said of these requests elsewhere is read off these cases. -/
namespace DatanodeLedger
open Ledger (Alike)
variable {l l' : Ledger} {n : NodeRef} {id : String} {b old new : BlockRef} {s t : StorageRef}

namespace Ledger

/-- The block is off the list of the volume, and everything else is where it was. -/
abbrev Detached (l : Ledger) (s : StorageRef) (b : BlockRef) (l' : Ledger) : Prop :=
  l.Rewritten s b ((l.listed s).erase b) (swapRemove s (l.block b).holders) l'

/-- The block is in front of the list of the volume, and everything else is where it was. -/
abbrev Attached (l : Ledger) (s : StorageRef) (b : BlockRef) (l' : Ledger) : Prop :=
  l.Rewritten s b (b :: l.listed s) (l.holders b ++ [s]) l'

/-- Only the block on this one volume is no longer listed. -/
theorem Detached.mem_listed (h : l.Detached s b l') (hl : l.Coherent) {u : StorageRef} {c : BlockRef} :
    c ∈ l'.listed u ↔ c ∈ l.listed u ∧ ¬ (u = s ∧ c = b) := by
  by_cases hu : u = s
  · subst hu
    rw [h.listed_self, (hl.listed_nodup u).mem_erase_iff]
    exact ⟨fun hc => ⟨hc.2, fun hub => hc.1 hub.2⟩, fun hc => ⟨fun hcb => hc.2 ⟨rfl, hcb⟩, hc.1⟩⟩
  · rw [h.listed_of_ne u hu]
    exact ⟨fun hc => ⟨hc, fun hub => hu hub.1⟩, And.left⟩

/-- Only the block on this one volume is listed in addition. -/
theorem Attached.mem_listed (h : l.Attached s b l') {u : StorageRef} {c : BlockRef} :
    c ∈ l'.listed u ↔ u = s ∧ c = b ∨ c ∈ l.listed u := by
  by_cases hu : u = s
  · subst hu
    rw [h.listed_self, List.mem_cons]
    exact ⟨fun hc => hc.imp_left fun hcb => ⟨rfl, hcb⟩, fun hc => hc.imp_left And.right⟩
  · rw [h.listed_of_ne u hu]
    exact ⟨.inr, fun hc => hc.elim (fun hub => (hu hub.1).elim) fun hc => hc⟩

/-- What an addition to the volume `id` of a node answers, and the ledger after it. The block can be
taken off the volume that held it and still be refused by the one that was to hold it. -/
inductive Addition (l : Ledger) (n : NodeRef) (id : String) (b : BlockRef) :
    Except Fault Bool → Ledger → Prop
  | foreign {l' : Ledger} (e : Fault) (h : l.Alike l') : Addition l n id b (.error e) l'
  | unknown {l' : Ledger} (ht : l.storageOf? n id = none) (h : l.Alike l') :
    Addition l n id b (.ok false) l'
  | present {t : StorageRef} {l' : Ledger} (ht : l.storageOf? n id = some t)
    (hs : l.holderOn? b (l.node n).uuid = some t) (h : l.Alike l') : Addition l n id b (.ok false) l'
  | refused {t : StorageRef} {l' : Ledger} (ht : l.storageOf? n id = some t)
    (hs : l.holderOn? b (l.node n).uuid = none) (ho : l.Occupied t b) (h : l.Alike l') :
    Addition l n id b (.ok false) l'
  | placed {t : StorageRef} {l' : Ledger} (ht : l.storageOf? n id = some t)
    (hs : l.holderOn? b (l.node n).uuid = none) (ho : ¬ l.Occupied t b) (h : l.Attached t b l') :
    Addition l n id b (.ok true) l'
  | lost {s t : StorageRef} {l' : Ledger} (ht : l.storageOf? n id = some t)
    (hs : l.holderOn? b (l.node n).uuid = some s) (hne : s ≠ t) (ho : l.Occupied t b)
    (h : l.Detached s b l') : Addition l n id b (.ok false) l'
  | moved {s t : StorageRef} {l₁ l' : Ledger} (ht : l.storageOf? n id = some t)
    (hs : l.holderOn? b (l.node n).uuid = some s) (hne : s ≠ t) (ho : ¬ l.Occupied t b)
    (h : l.Detached s b l₁) (h' : l₁.Attached t b l') : Addition l n id b (.ok true) l'

/-- What a removal from a volume, if there is one to remove from, answers, and the ledger after it. -/
inductive Removal (l : Ledger) (s? : Option StorageRef) (b : BlockRef) : Except Fault Bool → Ledger → Prop
  | foreign {l' : Ledger} (e : Fault) (h : l.Alike l') : Removal l s? b (.error e) l'
  | missing {l' : Ledger} (hb : ∀ s, s? = some s → b ∉ l.listed s) (h : l.Alike l') :
    Removal l s? b (.ok false) l'
  | taken {s : StorageRef} {l' : Ledger} (hs : s? = some s) (hb : b ∈ l.listed s) (h : l.Detached s b l') :
    Removal l s? b (.ok true) l'

/-- What a replacement answers, and the ledger after it. -/
inductive Replacement (l : Ledger) (n : NodeRef) (old new : BlockRef) : Except Fault BlockRef → Ledger → Prop
  | foreign {l' : Ledger} (e : Fault) (h : l.Alike l') : Replacement l n old new (.error e) l'
  | absent {l' : Ledger} (hs : l.holderOn? old (l.node n).uuid = none) (h : l.Alike l') :
    Replacement l n old new
      (.error (.replacedNotOnNode (l.block old).block.shown (l.node n).uuid)) l'
  | refused {s : StorageRef} {l' : Ledger} (hs : l.holderOn? old (l.node n).uuid = some s)
    (h : l.Detached s old l') (ho : l'.Occupied s new) :
    Replacement l n old new
      (.error (.replacementOnStorage (l.block new).block.shown (l.storage s).id)) l'
  | replaced {s : StorageRef} {l₁ l' : Ledger} (hs : l.holderOn? old (l.node n).uuid = some s)
    (h : l.Detached s old l₁) (ho : ¬ l₁.Occupied s new) (h' : l₁.Attached s new l') :
    Replacement l n old new (.ok new) l'

/-- The holder of a block on a node lists it, is live, and has the uuid of the node. -/
theorem Coherent.of_holderOn? (h : l.Coherent) {uuid : String} (hs : l.holderOn? b uuid = some s) :
    b ∈ l.listed s ∧ l.isLive s = true ∧ (l.storage s).owner = uuid := by
  obtain ⟨hlive, hb⟩ := h.mem_holders.1 (List.mem_of_find?_eq_some hs)
  exact ⟨hb, hlive, eq_of_beq (List.find?_some (p := fun s => (l.storage s).owner == uuid) hs)⟩

/-- If a node has no holder of a block, no live volume with its uuid lists it. -/
theorem Coherent.of_holderOn?_eq_none (h : l.Coherent) {uuid : String} (hs : l.holderOn? b uuid = none)
    (hlive : l.isLive t = true) (howner : (l.storage t).owner = uuid) : b ∉ l.listed t := by
  intro hb
  have hfind := List.find?_eq_none.1 hs t (h.mem_holders.2 ⟨hlive, hb⟩)
  exact hfind (beq_iff_eq.2 howner)

/-- A rewritten list of one volume does not bear on what occupies another. -/
theorem Rewritten.occupied_iff {c : BlockRef} {bs : List BlockRef} {hs : List StorageRef}
    (h : l.Rewritten s c bs hs l') (hne : t ≠ s) : l'.Occupied t b ↔ l.Occupied t b := by
  unfold Occupied
  rw [h.listed_of_ne t hne, h.block b]
  simp only [h.block]

namespace Alike
variable {l'' : Ledger} (h : l.Alike l')
include h

theorem occupied_iff : l'.Occupied s b ↔ l.Occupied s b := by
  unfold Occupied
  rw [h.listed s]
  simp only [h.block]

theorem attached (h' : l'.Attached s b l'') : l.Attached s b l'' := by
  unfold Attached at h'
  rw [h.listed s, h.holders b] at h'
  exact h.rewritten h'

theorem detached (h' : l'.Detached s b l'') : l.Detached s b l'' := by
  unfold Detached at h'
  rw [h.listed s, h.block b] at h'
  exact h.rewritten h'

end Alike

theorem Rewritten.alike {bs : List BlockRef} {hs : List StorageRef} {l'' : Ledger}
    (h : l.Rewritten s b bs hs l') (h' : l'.Alike l'') : l.Rewritten s b bs hs l'' where
  grows := h.grows.trans h'.quiet.toGrows
  coherent := h'.quiet.coherent h.coherent
  live t := (h'.live t).trans (h.live t)
  held := h'.held.trans h.held
  volumes n := (h'.volumes n).trans (h.volumes n)
  uuid n := (h'.uuid n).trans (h.uuid n)
  owner t := (congrArg Storage.owner (h'.storage t)).trans (h.owner t)
  block c := (congrArg BlockRecord.block (h'.block c)).trans (h.block c)
  listed_self := (h'.listed s).trans h.listed_self
  listed_of_ne t ht := (h'.listed t).trans (h.listed_of_ne t ht)
  holders_self := (congrArg BlockRecord.holders (h'.block b)).trans h.holders_self
  holders_of_ne c hc := (congrArg BlockRecord.holders (h'.block c)).trans (h.holders_of_ne c hc)

/-- An addition is not told apart from one that is surrounded by what does not bear on membership. -/
theorem Addition.alike {l₀ l'' : Ledger} {answer : Except Fault Bool} (h₀ : l₀.Alike l)
    (h : l.Addition n id b answer l') (h' : l'.Alike l'') : l₀.Addition n id b answer l'' := by
  have hid : l₀.storageOf? n id = l.storageOf? n id := (h₀.storageOf? n id).symm
  have hholder : l₀.holderOn? b (l₀.node n).uuid = l.holderOn? b (l.node n).uuid := by
    rw [h₀.uuid, h₀.holderOn?]
  cases h with
  | foreign e h => exact .foreign e (h₀.trans (h.trans h'))
  | unknown ht h => exact .unknown (hid.trans ht) (h₀.trans (h.trans h'))
  | present ht hs h => exact .present (hid.trans ht) (hholder.trans hs) (h₀.trans (h.trans h'))
  | refused ht hs ho h =>
    exact .refused (hid.trans ht) (hholder.trans hs) (h₀.occupied_iff.1 ho) (h₀.trans (h.trans h'))
  | placed ht hs ho h =>
    have ho₀ : ¬ l₀.Occupied _ b := fun hc => ho (h₀.occupied_iff.2 hc)
    exact .placed (hid.trans ht) (hholder.trans hs) ho₀ ((h₀.attached h).alike h')
  | lost ht hs hne ho h =>
    have ho₀ := h₀.occupied_iff.1 ho
    exact .lost (hid.trans ht) (hholder.trans hs) hne ho₀ ((h₀.detached h).alike h')
  | moved ht hs hne ho h₁ h =>
    have ho₀ : ¬ l₀.Occupied _ b := fun hc => ho (h₀.occupied_iff.2 hc)
    exact .moved (hid.trans ht) (hholder.trans hs) hne ho₀ (h₀.detached h₁) (h.alike h')

/-- What taking in a reported block answers, and the ledger after it. -/
inductive ReportedAddition (l : Ledger) (c : CoordinatorRef) (uuid id : String) (b : BlockRef) :
    Except Fault (Except Error Bool) → Ledger → Prop
  | unregistered (hn : (l.coordinator c).nodes.find? uuid = none) :
    ReportedAddition l c uuid id b (.ok (.error (.unregisteredDatanode uuid))) l
  | unknown {n : NodeRef} (hn : (l.coordinator c).nodes.find? uuid = some n)
    (ht : l.storageOf? n id = none) : ReportedAddition l c uuid id b (.ok (.error (.unknownStorage uuid id))) l
  | added {n : NodeRef} {answer : Except Fault Bool} {l' : Ledger}
    (hn : (l.coordinator c).nodes.find? uuid = some n) (h : l.Addition n id b answer l') :
    ReportedAddition l c uuid id b (answer.map .ok) l'

/-- The volumes that a held node knows are made and live. -/
theorem Coherent.of_storageOf? (h : l.Coherent) (hn : n ∈ l.heldNodes) (ht : l.storageOf? n id = some t) :
    t.index < l.storages.size ∧ l.isLive t = true ∧ (l.storage t).owner = (l.node n).uuid := by
  obtain ⟨hlt, howner⟩ := h.owned n t (Table.mem_values_of_find? ht)
  exact ⟨hlt, isLive_of_storageOf? hn ht, howner⟩

end Ledger

namespace Request

/-- A guard passes, and nothing that bears on membership changes; or it is a fault. -/
theorem exec_check (n : NodeRef) (g : Guard) (s : Service) :
    (∃ e, (check n g).exec s = (.error e, s)) ∨
      ∃ l, (check n g).exec s = (.ok ⟨⟩, { s with ledger := l }) ∧ s.ledger.Alike l := by
  unfold check
  rw [exec_bind_ok (exec_node ..)]
  split
  · exact .inr ⟨_, rfl, Ledger.alike_lock n _⟩
  · split
    · exact .inl ⟨_, rfl⟩
    · exact .inr ⟨s.ledger, rfl, .refl _⟩

/-- A request that begins with a check of the guard: either the check is a fault, or the rest runs on a
ledger that is alike. -/
theorem exec_checked {α : Type} {r : Request α} {s : Service}
    {P : Except Fault α × Service → Prop} (h : s.ledger.Coherent) (n : NodeRef) (g : Guard)
    (foreign : ∀ e, P (.error e, s))
    (passed : ∀ l, s.ledger.Alike l → l.Coherent → P (r.exec { s with ledger := l })) :
    P ((do check n g; r).exec s) := by
  rw [exec_bind]
  rcases exec_check n g s with ⟨e, he⟩ | ⟨l, he, halike⟩
  · rw [he]
    exact foreign e
  · rw [he]
    exact passed l halike (halike.quiet.coherent h)

/-- Attaching a block after requests that do not bear on membership. -/
private theorem exec_attach {s : Service} {l₁ : Ledger} (h : l₁.Coherent) (ht : t.index < l₁.storages.size)
    (hlive : l₁.isLive t = true) (hb : b.index < l₁.blocks.size) (hs : s.ledger = l₁) :
    (l₁.Occupied t b ∧ (attempt fun l => l.attach t b).exec s = (.ok false, s)) ∨
      ∃ l', ¬ l₁.Occupied t b ∧ (attempt fun l => l.attach t b).exec s = (.ok true, { s with ledger := l' }) ∧
        l₁.Attached t b l' := by
  subst hs
  by_cases ho : s.ledger.Occupied t b
  · exact .inl ⟨ho, exec_attempt_ok s (h.attach_refused ho)⟩
  · obtain ⟨l', he, hatt⟩ := h.attach ht hlive hb ho
    exact .inr ⟨l', ho, exec_attempt_ok s he, hatt⟩

private theorem exec_detach {s : Service} {l₁ : Ledger} (h : l₁.Coherent) (hb : b ∈ l₁.listed t)
    (hs : s.ledger = l₁) :
    ∃ l', (attempt fun l => l.detach t b).exec s = (.ok true, { s with ledger := l' }) ∧
      l₁.Detached t b l' := by
  subst hs
  obtain ⟨l', he, hdet⟩ := h.detach hb
  exact ⟨l', exec_attempt_ok s he, hdet⟩

theorem exec_addBlock {s : Service} (h : s.ledger.Coherent) (hn : n ∈ s.ledger.heldNodes)
    (hb : b.index < s.ledger.blocks.size) (g : Guard) (id : String) :
    s.ledger.Addition n id b ((addBlock g n id b).exec s).1 ((addBlock g n id b).exec s).2.ledger := by
  unfold addBlock
  refine exec_checked (P := fun p => s.ledger.Addition n id b p.1 p.2.ledger) h n g
    (fun e => .foreign e (.refl _)) fun l halike hl => ?_
  rw [exec_bind_ok (exec_ledger _)]
  simp only [halike.storageOf?, halike.holderOn?, halike.uuid]
  cases ht : s.ledger.storageOf? n id with
  | none => exact .unknown ht halike
  | some t =>
    obtain ⟨hlt, hlive, -⟩ := h.of_storageOf? hn ht
    have hlt' : t.index < l.storages.size := halike.storages ▸ hlt
    have hlive' : l.isLive t = true := (halike.live t).trans hlive
    have hb' : b.index < l.blocks.size := halike.blocks ▸ hb
    cases hs : s.ledger.holderOn? b (s.ledger.node n).uuid with
    | none =>
      rcases exec_attach (s := { s with ledger := l }) hl hlt' hlive' hb' rfl with
        ⟨ho, hatt⟩ | ⟨l', ho, hatt, hrew⟩
      · simp only [hatt]
        exact .refused ht hs (halike.occupied_iff.1 ho) halike
      · simp only [hatt]
        exact .placed ht hs (fun hc => ho (halike.occupied_iff.2 hc)) (halike.attached hrew)
    | some a =>
      by_cases hne : a = t
      · subst hne
        simp only [if_true]
        exact .present ht hs halike
      · obtain ⟨hba, -, -⟩ := h.of_holderOn? hs
        obtain ⟨l₁, hdet, hrew⟩ := exec_detach
          (s := { ledger := l, journal := _ }) hl (halike.listed a ▸ hba) rfl
        simp only [if_neg hne]
        rw [exec_bind_ok (exec_record ..)]
        simp only
        rw [exec_bind_ok hdet]
        simp only
        have ho₁ : l₁.Occupied t b ↔ s.ledger.Occupied t b :=
          (hrew.occupied_iff (Ne.symm hne)).trans halike.occupied_iff
        rcases exec_attach (s := { ledger := l₁, journal := _ }) hrew.coherent
          (Nat.lt_of_lt_of_le hlt' hrew.grows.storages) ((hrew.live t).trans hlive')
          (Nat.lt_of_lt_of_le hb' hrew.grows.blocks) rfl with ⟨ho, hatt⟩ | ⟨l', ho, hatt, hrew'⟩
        · rw [hatt]
          exact .lost ht hs hne (ho₁.1 ho) (halike.detached hrew)
        · rw [hatt]
          exact .moved ht hs hne (fun hc => ho (ho₁.2 hc)) (halike.detached hrew) hrew'

theorem exec_removeBlock {s : Service} (h : s.ledger.Coherent) (g : Guard) (n : NodeRef) (b : BlockRef) :
    s.ledger.Removal (s.ledger.holderOn? b (s.ledger.node n).uuid) b
      ((removeBlock g n b).exec s).1 ((removeBlock g n b).exec s).2.ledger := by
  unfold removeBlock
  refine exec_checked (P := fun p => s.ledger.Removal _ b p.1 p.2.ledger) h n g
    (fun e => .foreign e (.refl _)) fun l halike hl => ?_
  rw [exec_bind_ok (exec_ledger _)]
  simp only [halike.holderOn?, halike.uuid]
  cases hs : s.ledger.holderOn? b (s.ledger.node n).uuid with
  | none => exact .missing (fun t ht => by cases ht) halike
  | some a =>
    obtain ⟨hba, -, -⟩ := h.of_holderOn? hs
    obtain ⟨l₁, hdet, hrew⟩ := exec_detach (s := { s with ledger := l }) hl (halike.listed a ▸ hba) rfl
    simp only [hdet]
    exact .taken rfl hba (halike.detached hrew)

theorem exec_removeBlockFrom {s : Service} (h : s.ledger.Coherent) (g : Guard) (n : NodeRef) (id : String)
    (b : BlockRef) :
    s.ledger.Removal (s.ledger.storageOf? n id) b
      ((removeBlockFrom g n id b).exec s).1 ((removeBlockFrom g n id b).exec s).2.ledger := by
  unfold removeBlockFrom
  refine exec_checked (P := fun p => s.ledger.Removal _ b p.1 p.2.ledger) h n g
    (fun e => .foreign e (.refl _)) fun l halike hl => ?_
  rw [exec_bind_ok (exec_ledger _)]
  simp only [halike.storageOf?]
  cases hs : s.ledger.storageOf? n id with
  | none => exact .missing (fun t ht => by cases ht) halike
  | some a =>
    by_cases hba : b ∈ s.ledger.listed a
    · obtain ⟨l₁, hdet, hrew⟩ := exec_detach (s := { s with ledger := l }) hl (halike.listed a ▸ hba) rfl
      simp only [hdet]
      exact .taken rfl hba (halike.detached hrew)
    · have href : l.detach a b = .ok (false, l) := hl.detach_refused (halike.listed a ▸ hba)
      simp only [exec_attempt_ok { s with ledger := l } (f := (Ledger.detach · a b)) href]
      refine .missing (fun t ht => ?_) halike
      cases ht
      exact hba

/-- A block is taken off a volume that holds it, and the other is put in front of the list unless a record
with its id is there. -/
theorem exec_exchange {s : Service} {v : StorageRef} (h : s.ledger.Coherent) (hold : old ∈ s.ledger.listed v)
    (hlive : s.ledger.isLive v = true) (hnew : new.index < s.ledger.blocks.size) (e e' : Fault) :
    ∃ l₁, s.ledger.Detached v old l₁ ∧
      ((l₁.Occupied v new ∧ Request.exec (do
          unless ← attempt fun l => l.detach v old do throw e
          unless ← attempt fun l => l.attach v new do throw e'
          pure new) s = (.error e', { s with ledger := l₁ })) ∨
        ∃ l', ¬ l₁.Occupied v new ∧ l₁.Attached v new l' ∧ Request.exec (do
          unless ← attempt fun l => l.detach v old do throw e
          unless ← attempt fun l => l.attach v new do throw e'
          pure new) s = (.ok new, { s with ledger := l' })) := by
  obtain ⟨l₁, hdet, hrew⟩ := exec_detach h hold rfl
  refine ⟨l₁, hrew, ?_⟩
  rw [exec_bind_ok hdet]
  simp only [if_true]
  rw [exec_bind]
  rcases exec_attach (s := { s with ledger := l₁ }) (t := v) (b := new) hrew.coherent
    (Nat.lt_of_lt_of_le (Ledger.lt_size_of_mem_listed hold) hrew.grows.storages) ((hrew.live v).trans hlive)
    (Nat.lt_of_lt_of_le hnew hrew.grows.blocks) rfl with ⟨ho, hatt⟩ | ⟨l', ho, hatt, hrew'⟩
  · rw [hatt]
    exact .inl ⟨ho, rfl⟩
  · rw [hatt]
    exact .inr ⟨l', ho, hrew', rfl⟩

theorem exec_replaceBlock {s : Service} (h : s.ledger.Coherent) (hnew : new.index < s.ledger.blocks.size)
    (g : Guard) (n : NodeRef) (old : BlockRef) :
    s.ledger.Replacement n old new
      ((replaceBlock g n old new).exec s).1 ((replaceBlock g n old new).exec s).2.ledger := by
  unfold replaceBlock
  refine exec_checked (P := fun p => s.ledger.Replacement n old new p.1 p.2.ledger) h n g
    (fun e => .foreign e (.refl _)) fun l halike hl => ?_
  rw [exec_bind_ok (exec_ledger _)]
  simp only [halike.holderOn?, halike.uuid, halike.block, halike.storage]
  cases hs : s.ledger.holderOn? old (s.ledger.node n).uuid with
  | none => exact .absent hs halike
  | some a =>
    obtain ⟨hba, hlive, -⟩ := h.of_holderOn? hs
    obtain ⟨l₁, hrew, ⟨ho, he⟩ | ⟨l', ho, hrew', he⟩⟩ := exec_exchange (s := { s with ledger := l }) hl
      (halike.listed a ▸ hba) ((halike.live a).trans hlive) (halike.blocks ▸ hnew)
      (.replacedNotOnStorage (s.ledger.block old).block.shown (s.ledger.storage a).id)
      (.replacementOnStorage (s.ledger.block new).block.shown (s.ledger.storage a).id)
    · simp only
      rw [he]
      exact .refused hs (halike.detached hrew) ho
    · simp only
      rw [he]
      exact .replaced hs (halike.detached hrew) ho hrew'

/-- What runs under a lock runs on a ledger that is alike and has the same nodes, and so is what comes of
it. -/
theorem exec_withLock_alike {α : Type} (r : LockRef) (body : Guard → Request α) (s : Service) :
    ∃ s₁ l', s₁.ledger.nodes = s.ledger.nodes ∧ s.ledger.Alike s₁.ledger ∧
      ((body ⟨r⟩).exec s₁).2.ledger.Alike l' ∧ (withLock r body).exec s =
        (((body ⟨r⟩).exec s₁).1, { ((body ⟨r⟩).exec s₁).2 with ledger := l' }) := by
  obtain ⟨journal, he⟩ := exec_withLock s r body
  let s₁ : Service := ⟨s.ledger.modifyLock r fun lock => { lock with held := true }, journal⟩
  have halike : s.ledger.Alike s₁.ledger := Ledger.alike_modifyLock r _
  rw [he]
  rcases hbody : (body ⟨r⟩).exec s₁ with ⟨e | a, s₂⟩
  · refine ⟨s₁, s₂.ledger.modifyLock r fun _ => { held := false, poisoned := true }, rfl, halike, ?_, ?_⟩
    · rw [hbody]
      exact Ledger.alike_modifyLock r _
    · rw [hbody]
      rfl
  · refine ⟨s₁, s₂.ledger.modifyLock r fun lock => { lock with held := false }, rfl, halike, ?_, ?_⟩
    · rw [hbody]
      exact Ledger.alike_modifyLock r _
    · rw [hbody]
      rfl

/-- A reported block is for a node that is registered, -/
theorem exec_addReportedBlock_of_none {c : CoordinatorRef} {uuid : String} {s : Service}
    (hn : (s.ledger.coordinator c).nodes.find? uuid = none) (id : String) (b : BlockRef) :
    (addReportedBlock c uuid id b).exec s = (.ok (.error (.unregisteredDatanode uuid)), s) := by
  unfold addReportedBlock
  rw [exec_bind_ok (exec_registered? ..), hn]
  rfl

/-- and for a volume that this node knows, -/
theorem exec_addReportedBlock_of_unknown {c : CoordinatorRef} {uuid : String} {s : Service}
    (hn : (s.ledger.coordinator c).nodes.find? uuid = some n) (ht : s.ledger.storageOf? n id = none) (b : BlockRef) :
    (addReportedBlock c uuid id b).exec s = (.ok (.error (.unknownStorage uuid id)), s) := by
  unfold addReportedBlock
  rw [exec_bind_ok (exec_registered? ..), hn]
  simp only
  rw [exec_bind_ok (exec_ledger _), ht]
  rfl

/-- and is then added under the lock of the coordinator. -/
theorem exec_addReportedBlock_of_some {c : CoordinatorRef} {uuid : String} {s : Service}
    (hn : (s.ledger.coordinator c).nodes.find? uuid = some n) (ht : s.ledger.storageOf? n id = some t) (b : BlockRef) :
    (addReportedBlock c uuid id b).exec s =
      (withLock (s.ledger.coordinator c).lock (fun g => addBlock g n id b) >>= fun added =>
        pure (.ok added) : Request (Except Error Bool)).exec s := by
  unfold addReportedBlock
  rw [exec_bind_ok (exec_registered? ..), hn]
  simp only
  rw [exec_bind_ok (exec_ledger _), ht]
  simp only [Option.isNone_some, Bool.false_eq_true, if_false]
  rw [exec_bind_ok (exec_coordinator ..)]

theorem exec_addReportedBlock {s : Service} (h : s.ledger.Coherent) (hb : b.index < s.ledger.blocks.size)
    (c : CoordinatorRef) (uuid id : String) :
    s.ledger.ReportedAddition c uuid id b ((addReportedBlock c uuid id b).exec s).1
      ((addReportedBlock c uuid id b).exec s).2.ledger := by
  cases hn : (s.ledger.coordinator c).nodes.find? uuid with
  | none =>
    rw [exec_addReportedBlock_of_none hn]
    exact .unregistered hn
  | some n =>
    cases ht : s.ledger.storageOf? n id with
    | none =>
      rw [exec_addReportedBlock_of_unknown hn ht]
      exact .unknown hn ht
    | some t =>
      obtain ⟨s₁, l', -, halike, halike', he⟩ :=
        exec_withLock_alike (s.ledger.coordinator c).lock (fun g => addBlock g n id b) s
      rw [exec_addReportedBlock_of_some hn ht, exec_bind, he]
      have hadd := exec_addBlock (halike.quiet.coherent h)
        (halike.held.symm ▸ Ledger.mem_heldNodes_of_find? hn) (halike.blocks.symm ▸ hb)
        ⟨(s.ledger.coordinator c).lock⟩ id
      have hadd' := hadd.alike halike halike'
      revert hadd'
      rcases ((addBlock _ n id b).exec s₁).1 with e | added
      · exact fun hadd' => .added hn hadd'
      · exact fun hadd' => .added hn hadd'

end Request
end DatanodeLedger
