import DatanodeLedger.Proofs.Membership.Admission
import DatanodeLedger.Proofs.Membership.Counts
import DatanodeLedger.Proofs.Membership.Mirror

/-! What a replacement changes, to the point. One record is taken off the volume that was found to hold it
and the other is put in front; that the first is not there after all never comes about. -/
namespace DatanodeLedger

namespace Ledger
variable {l l₁ l' l'' : Ledger} {n : NodeRef} {old new : BlockRef} {v : StorageRef}

/-- Another record than `old` with the id of `new` is on the list of the volume. -/
def Barred (l : Ledger) (v : StorageRef) (old new : BlockRef) : Prop :=
  ∃ c ∈ l.listed v, c ≠ old ∧ (l.block c).block.id = (l.block new).block.id

instance (l : Ledger) (v : StorageRef) (old new : BlockRef) : Decidable (l.Barred v old new) :=
  inferInstanceAs (Decidable (∃ c ∈ l.listed v, _))

/-- What a replacement on the volume changes. Back-references of the new record to volumes that are gone
are dropped, as with any addition. -/
structure Exchanged (l : Ledger) (v : StorageRef) (old new : BlockRef) (l' : Ledger) : Prop where
  listed_self : l'.listed v = new :: (l.listed v).filter (· ≠ old)
  listed_of_ne : ∀ t, t ≠ v → l'.listed t = l.listed t
  count : (l'.storage v).numBlocks = (l.storage v).numBlocks
  lost : old ≠ new → (l.block old).holders.Perm (v :: (l'.block old).holders)
  gained : old ≠ new → (l'.block new).holders = l.holders new ++ [v]
  regained : old = new → (l'.block new).holders.Perm (l.holders new)
  once : (l'.block new).holders.count v = 1
  holders_of_ne : ∀ c, c ≠ old → c ≠ new → (l'.block c).holders = (l.block c).holders

/-- What bars a record is what occupies its place once the other is off. -/
theorem Detached.occupied_iff (h : l.Detached v old l₁) (hl : l.Coherent) :
    l₁.Occupied v new ↔ l.Barred v old new := by
  unfold Occupied Barred
  simp only [h.block, List.mem_map, h.listed_self, (hl.listed_nodup v).mem_erase_iff]
  constructor
  · rintro ⟨c, ⟨hne, hc⟩, hid⟩
    exact ⟨c, hc, hne, hid⟩
  · rintro ⟨c, hc, hne, hid⟩
    exact ⟨c, ⟨hne, hc⟩, hid⟩

theorem exchanged_of_detached (hl : l.Coherent) (hlive : l.isLive v = true) (hold : old ∈ l.listed v)
    (h : l.Detached v old l₁) (h' : l₁.Attached v new l') : l.Exchanged v old new l' := by
  have hv : v ∈ (l.block old).holders := (hl.mirror v old hlive).1 hold
  have hself : l'.listed v = new :: (l.listed v).filter (· ≠ old) := by
    rw [h'.listed_self, h.listed_self, (hl.listed_nodup v).erase_eq_filter]
    exact congrArg (new :: ·) (List.filter_congr fun c _ => by rw [bne, beq_eq_decide, decide_not])
  have hswap : (l₁.block old).holders.Perm ((l.block old).holders.erase v) := by
    rw [h.holders_self]
    exact swapRemove_perm v _
  have hlost : (l.block old).holders.Perm (v :: (l₁.block old).holders) :=
    (List.perm_cons_erase hv).trans (hswap.symm.cons v)
  have hmem : v ∈ (l'.block new).holders := by
    rw [h'.holders_self]
    exact List.mem_append_right _ List.mem_cons_self
  refine ⟨hself, fun t ht => ?_, ?_, fun hne => ?_, fun hne => ?_, fun he => ?_,
    List.count_eq_one_of_mem (h'.coherent.once new) hmem, fun c hcold hcnew => ?_⟩
  · exact (h'.listed_of_ne t ht).trans (h.listed_of_ne t ht)
  · have hlength : (l.listed v).length = ((l.listed v).erase old).length + 1 := by
      rw [List.length_erase_of_mem hold]
      have := List.length_pos_of_mem hold
      omega
    rw [h'.coherent.numBlocks_storage, hl.numBlocks_storage, h'.listed_self, h.listed_self, List.length_cons,
      hlength]
  · rw [h'.holders_of_ne old hne]
    exact hlost
  · rw [h'.holders_self]
    unfold holders
    rw [h.holders_of_ne new (Ne.symm hne), funext h.live]
  · -- the record has given up its back-reference and got it again, behind the others
    subst he
    rw [h'.holders_self]
    unfold holders
    rw [funext h.live]
    refine (List.perm_append_singleton v _).trans ?_
    have hfilter := (hlost.filter fun s => l.isLive s).symm
    rwa [List.filter_cons_of_pos hlive] at hfilter
  · exact (h'.holders_of_ne c hcnew).trans (h.holders_of_ne c hcold)

end Ledger

namespace Request
variable {s : Service} {g : Guard} {n : NodeRef} {old new : BlockRef} {v : StorageRef}

theorem exec_replaceBlock_of_absent (hg : s.ledger.Admits n g)
    (hold : s.ledger.holderOn? old (s.ledger.node n).uuid = none) : ((replaceBlock g n old new).exec s).1 =
      .error (.replacedNotOnNode (s.ledger.block old).block.shown (s.ledger.node n).uuid) := by
  obtain ⟨l, hcheck, halike, -⟩ := exec_check_of_admits hg
  unfold replaceBlock
  rw [exec_bind_ok hcheck]
  simp only
  rw [exec_bind_ok (exec_ledger _)]
  simp only [halike.holderOn?, halike.uuid, halike.block, hold]
  rfl

/-- Once the guard has passed, the record that a volume holds is off it whatever comes of the replacement. -/
theorem exec_replaceBlock_of_holder (h : s.ledger.Coherent) (hg : s.ledger.Admits n g)
    (hnew : new.index < s.ledger.blocks.size)
    (hold : s.ledger.holderOn? old (s.ledger.node n).uuid = some v) :
    (s.ledger.Barred v old new ∧ ((replaceBlock g n old new).exec s).1 =
        .error (.replacementOnStorage (s.ledger.block new).block.shown (s.ledger.storage v).id)) ∨
      ¬ s.ledger.Barred v old new ∧ ((replaceBlock g n old new).exec s).1 = .ok new ∧
        s.ledger.Exchanged v old new ((replaceBlock g n old new).exec s).2.ledger := by
  obtain ⟨l, hcheck, halike, -⟩ := exec_check_of_admits hg
  obtain ⟨hmem, hlive, -⟩ := h.of_holderOn? hold
  unfold replaceBlock
  rw [exec_bind_ok hcheck]
  simp only
  rw [exec_bind_ok (exec_ledger _)]
  simp only [halike.holderOn?, halike.uuid, halike.block, halike.storage, hold]
  obtain ⟨l₁, hdet, hrest⟩ := exec_exchange (s := { s with ledger := l }) (halike.quiet.coherent h)
    (halike.listed v ▸ hmem) ((halike.live v).trans hlive) (halike.blocks ▸ hnew)
    (.replacedNotOnStorage (s.ledger.block old).block.shown (s.ledger.storage v).id)
    (.replacementOnStorage (s.ledger.block new).block.shown (s.ledger.storage v).id)
  have hoff : s.ledger.Detached v old l₁ := halike.detached hdet
  rcases hrest with ⟨ho, he⟩ | ⟨l', ho, hatt, he⟩
  · exact .inl ⟨(hoff.occupied_iff h).1 ho, by rw [he]⟩
  · refine .inr ⟨fun hbarred => ho ((hoff.occupied_iff h).2 hbarred), ?_⟩
    rw [he]
    exact ⟨rfl, Ledger.exchanged_of_detached h hlive hmem hoff hatt⟩

end Request

open Request in
/-- Replacing a record, under a guard that the node admits. It is a fault exactly if the node has no volume
that holds the record, or if another record on that volume bars the new one, and never because the record
has not been found where it was; otherwise the new record is answered and the two are exchanged. -/
theorem replacement_exact {s : Service} (h : Reachable s) {g : Guard} {n : NodeRef}
    (hg : s.ledger.Admits n g) (old : BlockRef) {new : BlockRef} (hnew : new.index < s.ledger.blocks.size) :
    let answer := ((replaceBlock g n old new).exec s).1
    ((∃ fault, answer = .error fault) ↔
      ∀ v, s.ledger.holderOn? old (s.ledger.node n).uuid = some v → s.ledger.Barred v old new) ∧
    (∀ shown id, answer ≠ .error (.replacedNotOnStorage shown id)) ∧
    (s.ledger.holderOn? old (s.ledger.node n).uuid = none →
      answer = .error (.replacedNotOnNode (s.ledger.block old).block.shown (s.ledger.node n).uuid)) ∧
    ∀ v, s.ledger.holderOn? old (s.ledger.node n).uuid = some v →
      (s.ledger.Barred v old new →
        answer = .error (.replacementOnStorage (s.ledger.block new).block.shown (s.ledger.storage v).id)) ∧
      (¬ s.ledger.Barred v old new → answer = .ok new ∧
        s.ledger.Exchanged v old new ((replaceBlock g n old new).exec s).2.ledger) := by
  intro answer
  cases hold : s.ledger.holderOn? old (s.ledger.node n).uuid with
  | none =>
    have he : answer = _ := exec_replaceBlock_of_absent hg hold
    rw [he]
    simp
  | some v =>
    rcases exec_replaceBlock_of_holder h.coherent hg hnew hold with ⟨hbarred, he⟩ | ⟨hfree, he, hexchanged⟩
    · rw [show answer = _ from he]
      simp [hbarred]
    · rw [show answer = _ from he]
      simp [hfree, hexchanged]

/-- Two records with one id: the first is between two others on a volume, the second on another volume of
the node and on another node. -/
def exchangeSteps : List Step :=
  [.makeCoordinator {}, .makeBlock ⟨1, 10, 1⟩ 3, .makeBlock ⟨1, 20, 2⟩ 3, .makeBlock ⟨2, 10, 1⟩ 3,
    .makeBlock ⟨3, 10, 1⟩ 3, .register ⟨0⟩ (.ofAddress "n" "10.0.0.1" 9866) [{ id := "A" }, { id := "B" }],
    .register ⟨0⟩ (.ofAddress "m" "10.0.0.2" 9866) [{ id := "C" }],
    .addReportedBlock ⟨0⟩ "n" "A" ⟨2⟩, .addReportedBlock ⟨0⟩ "n" "A" ⟨0⟩, .addReportedBlock ⟨0⟩ "n" "A" ⟨3⟩,
    .addReportedBlock ⟨0⟩ "n" "B" ⟨1⟩, .addReportedBlock ⟨0⟩ "m" "C" ⟨1⟩]

open Request in
theorem replacement_exact_of_twins :
    let s := ({} : Service).run exchangeSteps
    Reachable s ∧ s.ledger.listed ⟨0⟩ = [⟨3⟩, ⟨0⟩, ⟨2⟩] ∧
    (((replaceBlock ⟨⟨0⟩⟩ ⟨0⟩ ⟨0⟩ ⟨1⟩).exec s).1 = .ok ⟨1⟩ ∧
      s.ledger.Exchanged ⟨0⟩ ⟨0⟩ ⟨1⟩ ((replaceBlock ⟨⟨0⟩⟩ ⟨0⟩ ⟨0⟩ ⟨1⟩).exec s).2.ledger) ∧
    (((replaceBlock ⟨⟨0⟩⟩ ⟨0⟩ ⟨0⟩ ⟨0⟩).exec s).1 = .ok ⟨0⟩ ∧
      s.ledger.Exchanged ⟨0⟩ ⟨0⟩ ⟨0⟩ ((replaceBlock ⟨⟨0⟩⟩ ⟨0⟩ ⟨0⟩ ⟨0⟩).exec s).2.ledger) ∧
    ((replaceBlock ⟨⟨0⟩⟩ ⟨0⟩ ⟨2⟩ ⟨1⟩).exec s).1 =
      .error (.replacementOnStorage (s.ledger.block ⟨1⟩).block.shown (s.ledger.storage ⟨0⟩).id) := by
  intro s
  have h : Reachable s := (Reachable.start 0).run (by decide +kernel)
  have hg : s.ledger.Admits ⟨0⟩ ⟨⟨0⟩⟩ := by decide +kernel
  have hzero : s.ledger.holderOn? ⟨0⟩ (s.ledger.node ⟨0⟩).uuid = some ⟨0⟩ := by decide +kernel
  have htwo : s.ledger.holderOn? ⟨2⟩ (s.ledger.node ⟨0⟩).uuid = some ⟨0⟩ := by decide +kernel
  have hmade (new : BlockRef) (hnew : new.index < 2) : new.index < s.ledger.blocks.size :=
    Nat.lt_trans hnew (by decide +kernel)
  obtain ⟨-, -, -, hsecond⟩ := replacement_exact h hg ⟨0⟩ (hmade ⟨1⟩ (by decide))
  obtain ⟨-, -, -, hitself⟩ := replacement_exact h hg ⟨0⟩ (hmade ⟨0⟩ (by decide))
  obtain ⟨-, -, -, htwin⟩ := replacement_exact h hg ⟨2⟩ (hmade ⟨1⟩ (by decide))
  refine ⟨h, by decide +kernel, (hsecond ⟨0⟩ hzero).2 ?_, (hitself ⟨0⟩ hzero).2 ?_, (htwin ⟨0⟩ htwo).1 ?_⟩
  · decide +kernel
  · decide +kernel
  · decide +kernel

end DatanodeLedger
