import DatanodeLedger.Proofs.Membership.Mirror
import DatanodeLedger.Proofs.Slab.Stepping

/-! What steps put on the list of a volume. A step puts at most one block there, in front; if it puts none, the
list has lost blocks at most, and those that are left are still in their slots. -/
namespace DatanodeLedger
open Ledger (Alike)
variable {l l' : Ledger} {s : Service} {n : NodeRef} {id : String} {b old new : BlockRef} {t v : StorageRef}

/-- The block that a step puts on a list, with the volume. -/
def Step.arrival? (s : Service) : Step → Option (StorageRef × BlockRef)
  | addBlock g n id b =>
    match ((Request.addBlock g n id b).exec s).1 with
    | .ok true => (s.ledger.storageOf? n id).map (·, b)
    | _ => none
  | replaceBlock g n old new =>
    match ((Request.replaceBlock g n old new).exec s).1 with
    | .ok _ => (s.ledger.holderOn? old (s.ledger.node n).uuid).map (·, new)
    | .error _ => none
  | addReportedBlock c uuid id b =>
    match ((Request.addReportedBlock c uuid id b).exec s).1 with
    | .ok (.ok true) =>
      ((s.ledger.coordinator c).nodes.find? uuid).bind fun n => (s.ledger.storageOf? n id).map (·, b)
    | _ => none
  | _ => none

/-- The step puts a block on the list of the volume. -/
def Step.Inserts (v : StorageRef) (s : Service) (step : Step) : Prop :=
  (step.arrival? s).any (·.1 = v) = true

instance (v : StorageRef) (s : Service) (step : Step) : Decidable (step.Inserts v s) :=
  inferInstanceAs (Decidable (_ = true))

namespace Ledger

/-- The list of the volume has lost blocks at most, and the others are where they were, slots and all. -/
def Sheds (v : StorageRef) (l l' : Ledger) : Prop := (l.storage v).blocks.Sheds (l'.storage v).blocks

instance : IsPreorder Ledger (Sheds v) where
  refl l := .refl (l.storage v).blocks
  trans _ _ _ := Slab.Sheds.trans

theorem sheds_of_eq (h : (l'.storage v).blocks = (l.storage v).blocks) : Sheds v l l' := by
  unfold Sheds
  rw [h]
  exact .refl _

theorem Alike.sheds (h : l.Alike l') : Sheds v l l' := sheds_of_eq (congrArg Storage.blocks (h.storage v))

theorem Coherent.sublist_of_sheds (hl : l.Coherent) (h : Sheds v l l') : (l'.listed v).Sublist (l.listed v) := by
  obtain ⟨row, hlay⟩ := hl.exists_layout v
  obtain ⟨row', hlay', hsub⟩ := h row hlay
  rw [listed_of_layout hlay', listed_of_layout hlay]
  exact hsub.map _

instance : Request.WorkFrame (Sheds v) where
  node h := sheds_of_eq ((Request.Frame.node h : Quiet _ _).lists v)
  storage h := sheds_of_eq ((Request.Frame.storage h : Quiet _ _).lists v)
  hands nodes storages blocks cursors terms held :=
    sheds_of_eq ((Request.Frame.hands nodes storages blocks cursors terms held : Quiet _ _).lists v)
  block l block replication := sheds_of_eq ((Request.Frame.block l block replication : Quiet _ _).lists v)
  newNode l r location := sheds_of_eq ((Request.Frame.newNode l r location : Quiet _ _).lists v)
  announce h := sheds_of_eq ((Request.Frame.announce h : Quiet _ _).lists v)
  cursors h := sheds_of_eq ((Request.Frame.cursors h : Quiet _ _).lists v)
  work n _ _ h := sheds_of_eq ((Request.WorkFrame.work n h : Quiet _ _).lists v)

private theorem blocks_modifyStorage (l : Ledger) (t v : StorageRef) (blocks : Slab UInt64 BlockRef) :
    ((l.modifyStorage t fun storage => { storage with blocks }).storage v).blocks = (l.storage v).blocks ∨
      v = t ∧ ((l.modifyStorage t fun storage => { storage with blocks }).storage v).blocks = blocks := by
  by_cases hv : v = t
  · subst hv
    by_cases hlt : v.index < l.storages.size
    · exact .inr ⟨rfl, congrArg Storage.blocks (storage_modifyStorage hlt _)⟩
    · have hle := Nat.le_of_not_lt hlt
      refine .inl ?_
      rw [storage_of_le hle, storage_of_le]
      exact Nat.le_trans (Nat.le_of_eq Array.size_modify) hle
  · exact .inl (congrArg Storage.blocks (storage_modifyStorage_of_ne hv _))

theorem sheds_detach (l : Ledger) (t : StorageRef) (b : BlockRef) (removed : Bool) (l' : Ledger)
    (h : l.detach t b = .ok (removed, l')) : Sheds v l l' := by
  rcases detach_cases h with ⟨-, rfl⟩ | ⟨-, found, blocks, hremove, rfl⟩
  · exact refl_of (Sheds v) l'
  · rcases blocks_modifyStorage l t v blocks with hsame | ⟨rfl, hblocks⟩
    · exact sheds_of_eq hsame
    · have hshed : (l.storage v).blocks.Sheds blocks := .of_remove hremove
      rw [← hblocks] at hshed
      exact hshed

/-- A block that is attached changes no list but that of its volume, and that only if it is not refused. -/
theorem sheds_attach {added : Bool} (h : l.attach t b = .ok (added, l')) (ht : added = true → t ≠ v) :
    Sheds v l l' := by
  rcases attach_cases h with ⟨-, rfl⟩ | ⟨hadded, -, blocks, -, rfl⟩
  · exact refl_of (Sheds v) l'
  · exact sheds_of_eq (congrArg Storage.blocks (storage_modifyStorage_of_ne (Ne.symm (ht hadded)) _))

end Ledger

namespace Request
open Ledger (Sheds)

private theorem sheds_attempt_attach (s : Service) (t : StorageRef) (b : BlockRef)
    (ht : ((attempt fun l => l.attach t b).exec s).1 = .ok true → t ≠ v) :
    Sheds v s.ledger ((attempt fun l => l.attach t b).exec s).2.ledger := by
  cases hattach : s.ledger.attach t b with
  | error e =>
    rw [exec_attempt_error s hattach]
    exact refl_of (Sheds v) s.ledger
  | ok p =>
    rw [exec_attempt_ok s hattach] at ht ⊢
    exact Ledger.sheds_attach hattach fun hadded => ht (by rw [hadded])

private theorem sheds_attempt_detach (t : StorageRef) (b : BlockRef) :
    Respects (Sheds v) (attempt fun l => l.detach t b) :=
  .attempt fun l removed l' h => l.sheds_detach t b removed l' h

/-- The answer of the last part of a request is that of the whole, as long as it gets there. -/
private theorem rel_bind {α β : Type} {R : Ledger → Ledger → Prop} [IsPreorder Ledger R] (P : Except Fault β → Prop)
    {r : Request α} {f : α → Request β} (hr : Respects R r)
    (hf : ∀ a s, P ((f a).exec s).1 → R s.ledger ((f a).exec s).2.ledger) (hP : P ((r >>= f).exec s).1) :
    R s.ledger ((r >>= f).exec s).2.ledger := by
  have hfirst := hr s
  rw [exec_bind] at hP ⊢
  rcases hexec : r.exec s with ⟨e | a, s'⟩
  · rw [hexec] at hfirst
    exact hfirst
  · rw [hexec] at hfirst hP
    exact trans_of R hfirst (hf a s' hP)

/-- Unless the block comes onto the list of the volume, an addition leaves it alone or takes the block off. -/
theorem sheds_addBlock (h : s.ledger.Coherent) (g : Guard)
    (ht : ∀ t, s.ledger.storageOf? n id = some t → ((addBlock g n id b).exec s).1 = .ok true → t ≠ v) :
    Sheds v s.ledger ((addBlock g n id b).exec s).2.ledger := by
  revert ht
  unfold addBlock
  refine exec_checked (P := fun p => (∀ t, s.ledger.storageOf? n id = some t → p.1 = .ok true → t ≠ v) →
    Sheds v s.ledger p.2.ledger) h n g (fun e _ => refl_of (Sheds v) s.ledger) fun l halike hl => ?_
  rw [exec_bind_ok (exec_ledger _)]
  simp only [halike.storageOf?]
  cases hid : s.ledger.storageOf? n id with
  | none => exact fun _ => halike.sheds
  | some t =>
    simp only
    split
    · exact fun ht => trans_of (Sheds v) halike.sheds (sheds_attempt_attach _ t b (ht t rfl))
    · rename_i source _
      split
      · exact fun _ => halike.sheds
      · rw [exec_bind_ok (exec_record ..)]
        intro ht
        exact trans_of (Sheds v) halike.sheds (rel_bind (fun answer => answer = .ok true → t ≠ v)
          (sheds_attempt_detach source b) (fun _ s' => sheds_attempt_attach s' t b) (ht t rfl))

theorem sheds_replaceBlock (h : s.ledger.Coherent) (g : Guard)
    (ht : ∀ t, s.ledger.holderOn? old (s.ledger.node n).uuid = some t →
      ((replaceBlock g n old new).exec s).1 = .ok new → t ≠ v) :
    Sheds v s.ledger ((replaceBlock g n old new).exec s).2.ledger := by
  revert ht
  unfold replaceBlock
  refine exec_checked (P := fun p => (∀ t, s.ledger.holderOn? old (s.ledger.node n).uuid = some t →
    p.1 = .ok new → t ≠ v) → Sheds v s.ledger p.2.ledger) h n g (fun e _ => refl_of (Sheds v) s.ledger)
    fun l halike hl => ?_
  rw [exec_bind_ok (exec_ledger _)]
  simp only [halike.holderOn?, halike.uuid]
  cases hold : s.ledger.holderOn? old (s.ledger.node n).uuid with
  | none => exact fun _ => halike.sheds
  | some t =>
    intro ht
    refine trans_of (Sheds v) halike.sheds (rel_bind (fun answer => answer = .ok new → t ≠ v)
      (sheds_attempt_detach t old) (fun removed s' => ?_) (ht t rfl))
    cases removed with
    | false => exact fun _ => refl_of (Sheds v) s'.ledger
    | true =>
      simp only [if_true]
      -- the answer of the attachment decides here whether the request is a fault
      rw [exec_bind]
      cases hattach : s'.ledger.attach t new with
      | error e =>
        rw [exec_attempt_error s' hattach]
        exact fun _ => refl_of (Sheds v) s'.ledger
      | ok p =>
        obtain ⟨added, l'⟩ := p
        rw [exec_attempt_ok s' hattach]
        cases added with
        | false => exact fun _ => Ledger.sheds_attach hattach (fun hadded => nomatch hadded)
        | true => exact fun hok => Ledger.sheds_attach hattach fun _ => hok rfl

theorem sheds_addReportedBlock (h : s.ledger.Coherent) {c : CoordinatorRef} {uuid : String}
    (ht : ∀ n t, (s.ledger.coordinator c).nodes.find? uuid = some n → s.ledger.storageOf? n id = some t →
      ((addReportedBlock c uuid id b).exec s).1 = .ok (.ok true) → t ≠ v) :
    Sheds v s.ledger ((addReportedBlock c uuid id b).exec s).2.ledger := by
  revert ht
  cases hn : (s.ledger.coordinator c).nodes.find? uuid with
  | none =>
    rw [exec_addReportedBlock_of_none hn]
    exact fun _ => refl_of (Sheds v) s.ledger
  | some n =>
    cases hid : s.ledger.storageOf? n id with
    | none =>
      rw [exec_addReportedBlock_of_unknown hn hid]
      exact fun _ => refl_of (Sheds v) s.ledger
    | some t =>
      obtain ⟨s₁, l', -, halike, halike', he⟩ :=
        exec_withLock_alike (s.ledger.coordinator c).lock (fun g => addBlock g n id b) s
      rw [exec_addReportedBlock_of_some hn hid, exec_bind, he]
      intro ht
      have hadd : Sheds v s₁.ledger
          ((addBlock ⟨(s.ledger.coordinator c).lock⟩ n id b).exec s₁).2.ledger := by
        refine sheds_addBlock (halike.quiet.coherent h) _ fun t' ht' hok => ?_
        rw [halike.storageOf?, hid] at ht'
        cases ht'
        refine ht n t rfl hid ?_
        rw [hok]
        rfl
      have hshed := trans_of (Sheds v) halike.sheds (trans_of (Sheds v) hadd halike'.sheds)
      revert hshed
      rcases ((addBlock _ n id b).exec s₁).1 with e | added
      · exact fun hshed => hshed
      · exact fun hshed => hshed

end Request
namespace Step

theorem inserts_iff {step : Step} : step.Inserts v s ↔ ∃ b, step.arrival? s = some (v, b) := by
  unfold Inserts
  rw [Option.any_eq_true]
  constructor
  · rintro ⟨⟨u, b⟩, harrival, hu⟩
    cases of_decide_eq_true hu
    exact ⟨b, harrival⟩
  · rintro ⟨b, harrival⟩
    exact ⟨(v, b), harrival, decide_eq_true rfl⟩

/-- A step that puts no block on the list of a volume takes blocks off it at most. -/
theorem sheds_after (step : Step) (h : s.ledger.Coherent) (hstep : step.Enabled s.ledger)
    (hv : ¬ step.Inserts v s) : s.ledger.Sheds v (step.after s).ledger := by
  have hnone : ∀ b, step.arrival? s ≠ some (v, b) := fun b hb => hv (inserts_iff.2 ⟨b, hb⟩)
  by_cases hplaces : step.Places
  · cases step with
    | addBlock g n id b =>
      refine Request.sheds_addBlock h g fun t hid hok => ?_
      rintro rfl
      apply hnone b
      simp only [arrival?, hok, hid, Option.map_some]
    | replaceBlock g n old new =>
      refine Request.sheds_replaceBlock h g fun t hold hok => ?_
      rintro rfl
      apply hnone new
      simp only [arrival?, hok, hold, Option.map_some]
    | addReportedBlock c uuid id b =>
      refine Request.sheds_addReportedBlock h fun n t hn hid hok => ?_
      rintro rfl
      apply hnone b
      simp only [arrival?, hok, hn, hid, Option.bind_some, Option.map_some]
    | _ => exact hplaces.elim
  · exact step.respects_after Ledger.sheds_detach (fun hp => (hplaces hp).elim)
      (fun n _ => Request.WorkFrame.work n) hstep

end Step

namespace Ledger

/-- The block is on the list now, in front of those of the others that are still there. -/
def Enters (v : StorageRef) (b : BlockRef) (l l' : Ledger) : Prop :=
  ∃ bs, l'.listed v = b :: bs ∧ bs.Sublist (l.listed v)

theorem Addition.enters (h : l.Addition n id b (.ok true) l') (ht : l.storageOf? n id = some t) :
    Enters t b l l' := by
  cases h with
  | placed ht' hs ho h =>
    cases ht.symm.trans ht'
    exact ⟨_, h.listed_self, .refl _⟩
  | moved ht' hs hne ho h₁ h =>
    cases ht.symm.trans ht'
    exact ⟨_, h.listed_self, h₁.listed_of_ne t (Ne.symm hne) ▸ .refl _⟩

theorem Replacement.enters {answer : BlockRef} (h : l.Replacement n old new (.ok answer) l')
    (hold : l.holderOn? old (l.node n).uuid = some t) : Enters t new l l' := by
  cases h with
  | replaced hs h₁ ho h =>
    cases hold.symm.trans hs
    exact ⟨_, h.listed_self, h₁.listed_self ▸ List.erase_sublist⟩

theorem ReportedAddition.enters {c : CoordinatorRef} {uuid : String}
    (h : l.ReportedAddition c uuid id b (.ok (.ok true)) l') (hn : (l.coordinator c).nodes.find? uuid = some n)
    (ht : l.storageOf? n id = some t) : Enters t b l l' := by
  generalize hanswer : (Except.ok (Except.ok true) : Except Fault (Except Error Bool)) = answer at h
  cases h with
  | unregistered hn' => cases hanswer
  | unknown hn' ht' => cases hanswer
  | @added n' answer _ hn' hadd =>
    cases hn.symm.trans hn'
    cases answer with
    | error e => cases hanswer
    | ok added =>
      cases hanswer
      exact hadd.enters ht

end Ledger

/-- The block that a step puts on a list is in front of it then. -/
theorem Step.enters_after {step : Step} (h : s.ledger.Coherent) (hstep : step.Enabled s.ledger)
    (hb : step.arrival? s = some (v, b)) : Ledger.Enters v b s.ledger (step.after s).ledger := by
  cases step with
  | addBlock g n id b' =>
    have hadd := Request.exec_addBlock h hstep.1 hstep.2 g id
    simp only [arrival?] at hb
    split at hb
    · rename_i hok
      obtain ⟨t, hid, he⟩ := Option.map_eq_some_iff.1 hb
      cases he
      rw [hok] at hadd
      exact hadd.enters hid
    · cases hb
  | replaceBlock g n old new =>
    have hreplace := Request.exec_replaceBlock h hstep.2.2 g n old
    simp only [arrival?] at hb
    split at hb
    · rename_i hok
      obtain ⟨t, hold, he⟩ := Option.map_eq_some_iff.1 hb
      cases he
      rw [hok] at hreplace
      exact hreplace.enters hold
    · cases hb
  | addReportedBlock c uuid id b' =>
    have hadd := Request.exec_addReportedBlock h hstep c uuid id
    simp only [arrival?] at hb
    split at hb
    · rename_i hok
      obtain ⟨n, hn, hb⟩ := Option.bind_eq_some_iff.1 hb
      obtain ⟨t, hid, he⟩ := Option.map_eq_some_iff.1 hb
      cases he
      rw [hok] at hadd
      exact hadd.enters hn hid
    · cases hb
  | _ => cases hb

end DatanodeLedger
