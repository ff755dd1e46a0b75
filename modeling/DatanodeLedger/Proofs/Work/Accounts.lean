import DatanodeLedger.Proofs.Work.Invalidation
import Mathlib.Data.Finset.Card
import Mathlib.Data.List.Infix

/-! The history of a set of blocks to delete. What has been submitted accounts for what was drained, what was cleared
and what is pending, and a block that is pending is the one whose submission made its id pending. -/
namespace DatanodeLedger.Work.InvalidateSet
variable {s : InvalidateSet} {b : Block} {bs : List Block} {max : Nat}

/-- An order in which a drain comes upon the blocks that are pending. -/
structure Order where
  arrange : List Block → List Block
  perm : ∀ bs, (arrange bs).Perm bs

/-- What callers do with a set. Each drain has an order of its own. -/
inductive Call where
  | addAll (bs : List Block)
  | drain (order : Order) (max : Nat)
  | clear

namespace Call

def after (s : InvalidateSet) : Call → InvalidateSet
  | addAll bs => (s.addAll bs).2
  | drain order max => (s.drainBy order.arrange max).2
  | clear => {}

/-- What a submission answers. -/
def added (s : InvalidateSet) : Call → Nat
  | addAll bs => (s.addAll bs).1
  | _ => 0

/-- How many blocks a drain hands out. -/
def drained (s : InvalidateSet) : Call → Nat
  | drain order max => ((s.drainBy order.arrange max).1.getD []).length
  | _ => 0

def cleared (s : InvalidateSet) : Call → Nat
  | clear => s.size
  | _ => 0

end Call

def run (s : InvalidateSet) (calls : List Call) : InvalidateSet := calls.foldl Call.after s

/-- What the calls of a run add up to. -/
def total (f : InvalidateSet → Call → Nat) (s : InvalidateSet) : List Call → Nat
  | [] => 0
  | call :: calls => f s call + (call.after s).total f calls

/-- The ids that are pending. -/
def ids (s : InvalidateSet) : Finset UInt64 := (s.pending.map Block.id).toFinset

theorem run_append (s : InvalidateSet) (calls calls' : List Call) :
    s.run (calls ++ calls') = (s.run calls).run calls' := List.foldl_append

theorem mem_ids_iff {id : UInt64} : id ∈ s.ids ↔ ∃ b ∈ s.pending, b.id = id := List.mem_toFinset.trans List.mem_map

theorem mem_ids (h : b ∈ s.pending) : b.id ∈ s.ids := mem_ids_iff.2 ⟨b, h, rfl⟩

theorem Distinct.card_ids (h : s.Distinct) : s.ids.card = s.size :=
  (List.toFinset_card_of_nodup h).trans (List.length_map _)

section addAll

theorem addAll_concat (s : InvalidateSet) (bs : List Block) (b : Block) :
    (s.addAll (bs ++ [b])).2 = (s.addAll bs).2.add b := List.foldl_concat ..

theorem mem_pending_add_iff {d : Block} : d ∈ (s.add b).pending ↔ d ∈ s.pending ∨ d = b ∧ b.id ∉ s.ids := by
  have hids : b.id ∈ s.ids ↔ s.contains b = true := List.mem_toFinset.trans contains_iff.symm
  unfold add
  rw [hids]
  split
  case isTrue h => exact ⟨.inl, fun hd => hd.resolve_right fun hd => hd.2 h⟩
  case isFalse h =>
    rw [List.mem_append, List.mem_singleton]
    exact or_congr_right (and_iff_left h).symm

theorem ids_add (s : InvalidateSet) (b : Block) : (s.add b).ids = insert b.id s.ids := by
  ext id
  rw [Finset.mem_insert, mem_ids_iff]
  simp only [mem_pending_add_iff]
  constructor
  · rintro ⟨d, hd | ⟨rfl, -⟩, rfl⟩
    · exact .inr (mem_ids hd)
    · exact .inl rfl
  · intro h
    by_cases hid : id ∈ s.ids
    · obtain ⟨d, hd, rfl⟩ := mem_ids_iff.1 hid
      exact ⟨d, .inl hd, rfl⟩
    · obtain rfl := h.resolve_right hid
      exact ⟨b, .inr ⟨rfl, hid⟩, rfl⟩

/-- A submission makes all of its ids pending. -/
theorem ids_addAll (s : InvalidateSet) (bs : List Block) :
    (s.addAll bs).2.ids = s.ids ∪ (bs.map Block.id).toFinset := by
  induction bs using List.reverseRecOn with
  | nil => exact (Finset.union_empty s.ids).symm
  | append_singleton bs b ih =>
    rw [addAll_concat, ids_add, ih, List.map_append, List.toFinset_append, ← Finset.union_assoc, Finset.insert_eq,
      Finset.union_comm]
    rfl

/-- A block that is pending after a submission was pending before, or is the first of its id that was submitted. -/
theorem mem_pending_addAll_iff : b ∈ (s.addAll bs).2.pending ↔
    b ∈ s.pending ∨ ∃ pre post, bs = pre ++ b :: post ∧ b.id ∉ (s.addAll pre).2.ids := by
  induction bs using List.reverseRecOn with
  | nil =>
    refine ⟨.inl, fun h => h.resolve_right ?_⟩
    rintro ⟨pre, post, h, -⟩
    exact List.append_ne_nil_of_right_ne_nil pre (List.cons_ne_nil b post) h.symm
  | append_singleton bs d ih =>
    rw [addAll_concat, mem_pending_add_iff, ih, or_assoc]
    refine or_congr_right ⟨?_, ?_⟩
    · rintro (⟨pre, post, rfl, hnew⟩ | ⟨rfl, hnew⟩)
      · exact ⟨pre, post ++ [d], by rw [List.append_assoc, List.cons_append], hnew⟩
      · exact ⟨bs, [], rfl, hnew⟩
    · rintro ⟨pre, post, h, hnew⟩
      rcases List.eq_nil_or_concat post with rfl | ⟨post, e, rfl⟩
      · obtain ⟨rfl, hd⟩ := List.append_inj' h rfl
        cases hd
        exact .inr ⟨rfl, hnew⟩
      · rw [List.concat_eq_append, ← List.cons_append, ← List.append_assoc] at h
        exact .inl ⟨pre, post, (List.append_inj' h rfl).1, hnew⟩

/-- A submission answers with the number of ids that it has made pending. -/
theorem Distinct.addAll_eq_card (h : s.Distinct) (bs : List Block) :
    (s.addAll bs).1 = ((s.addAll bs).2.ids \ s.ids).card := by
  have hsub : s.ids ⊆ (s.addAll bs).2.ids := by
    rw [ids_addAll]
    exact Finset.subset_union_left
  rw [Finset.card_sdiff_of_subset hsub, (h.addAll bs).card_ids, h.card_ids]
  rfl

end addAll

/-- What a drain takes, as many blocks as it may, and what it leaves. -/
structure Drains (s : InvalidateSet) (max : Nat) (taken : List Block) (s' : InvalidateSet) : Prop where
  length : taken.length = min max s.size
  distinct : (taken.map Block.id).Nodup
  pending : taken ⊆ s.pending
  gone : ∀ b ∈ taken, b.id ∉ s'.ids
  rest : (taken ++ s'.pending).Perm s.pending

section drain
variable {order : List Block → List Block} {taken : List Block}

theorem drainBy_eq_none_iff : (s.drainBy order max).1 = none ↔ max = 0 ∨ s.pending = [] := by
  have hzero : min max s.size = 0 ↔ max = 0 ∨ s.pending = [] :=
    Nat.min_eq_zero_iff.trans (or_congr_right List.length_eq_zero_iff)
  rw [← hzero]
  by_cases h : min max s.size = 0
  · rw [drainBy_of_zero h]
    exact iff_of_true rfl h
  · rw [drainBy_of_ne_zero h]
    exact iff_of_false (Option.some_ne_none _) h

theorem drainBy_of_none (h : (s.drainBy order max).1 = none) : (s.drainBy order max).2 = s := by
  by_cases hzero : min max s.size = 0
  · rw [drainBy_of_zero hzero]
  · rw [drainBy_of_ne_zero hzero] at h
    cases h

theorem Distinct.drains (h : s.Distinct) (horder : (order s.pending).Perm s.pending)
    (htaken : (s.drainBy order max).1 = some taken) : s.Drains max taken (s.drainBy order max).2 := by
  have hrest := h.drainBy_append horder max
  rw [htaken, Option.getD_some] at hrest
  have hids : ((taken ++ (s.drainBy order max).2.pending).map Block.id).Nodup :=
    (hrest.map Block.id).nodup_iff.2 h
  rw [List.map_append] at hids
  obtain ⟨hdistinct, -, hapart⟩ := List.nodup_append.1 hids
  refine ⟨?_, hdistinct, fun b hb => hrest.subset (List.mem_append_left _ hb), fun b hb hid => ?_, hrest⟩
  · have htotal := hrest.length_eq
    have hsize : (s.drainBy order max).2.pending.length = s.pending.length - max := h.size_drainBy horder max
    rw [List.length_append, hsize] at htotal
    unfold size
    omega
  · exact hapart b.id (List.mem_map_of_mem hb) b.id (List.mem_toFinset.1 hid) rfl

end drain

section history
variable {calls : List Call}

theorem distinct_empty : Distinct {} := List.nodup_nil

theorem Distinct.after (h : s.Distinct) (call : Call) : (call.after s).Distinct := by
  cases call with
  | addAll bs => exact h.addAll bs
  | drain order max => exact h.drainBy (order.perm s.pending) max
  | clear => exact distinct_empty

theorem Distinct.run (h : s.Distinct) (calls : List Call) : (s.run calls).Distinct := by
  induction calls generalizing s with
  | nil => exact h
  | cons call calls ih => exact ih (h.after call)

/-- One call: what was pending and what it has added is what it has handed out or cleared, and what is pending then. -/
theorem Distinct.balance (h : s.Distinct) (call : Call) :
    s.size + call.added s = call.drained s + call.cleared s + (call.after s).size := by
  cases call with
  | addAll bs =>
    have hgrows : s.ids.card ≤ (s.addAll bs).2.ids.card := by
      rw [ids_addAll]
      exact Finset.card_le_card Finset.subset_union_left
    rw [h.card_ids, (h.addAll bs).card_ids] at hgrows
    have hadded : (s.addAll bs).1 = (s.addAll bs).2.size - s.size := rfl
    simp only [Call.added, Call.drained, Call.cleared, Call.after]
    omega
  | drain order max =>
    have htotal := (h.drainBy_append (order.perm s.pending) max).length_eq
    rw [List.length_append] at htotal
    exact htotal.symm
  | clear => exact (Nat.zero_add _).symm

/-- Many calls: the same. -/
theorem Distinct.account (h : s.Distinct) (calls : List Call) :
    s.size + s.total Call.added calls =
      s.total Call.drained calls + s.total Call.cleared calls + (s.run calls).size := by
  induction calls generalizing s with
  | nil => exact (Nat.zero_add _).symm
  | cons call calls ih =>
    have hone := h.balance call
    have hrest := ih (h.after call)
    have hrun : s.run (call :: calls) = (call.after s).run calls := rfl
    unfold total
    rw [hrun]
    omega

/-- A block is the one by whose submission its id came to be pending: the id was not pending when the block was
submitted, and the block has been pending ever since. -/
def Opened (calls : List Call) (b : Block) : Prop :=
  ∃ before pre post later, calls = before ++ .addAll (pre ++ b :: post) :: later ∧
    b.id ∉ ((run {} before).addAll pre).2.ids ∧
    ∀ between, between <+: later → b ∈ (run {} (before ++ .addAll (pre ++ b :: post) :: between)).pending

/-- A block that is still pending has been pending ever since for a call longer. -/
theorem Opened.concat (h : Opened calls b) {call : Call} (hb : b ∈ (run {} (calls ++ [call])).pending) :
    Opened (calls ++ [call]) b := by
  obtain ⟨before, pre, post, later, rfl, hnew, hever⟩ := h
  refine ⟨before, pre, post, later ++ [call], by rw [List.append_assoc, List.cons_append], hnew, fun between h => ?_⟩
  rcases List.prefix_concat_iff.1 h with rfl | h
  · rw [List.append_assoc, List.cons_append] at hb
    exact hb
  · exact hever between h

theorem opened_of_mem_pending (hb : b ∈ (run {} calls).pending) : Opened calls b := by
  induction calls using List.reverseRecOn with
  | nil => exact (List.not_mem_nil hb).elim
  | append_singleton calls call ih =>
    have hafter : run {} (calls ++ [call]) = call.after (run {} calls) := run_append {} calls [call]
    by_cases hold : b ∈ (run {} calls).pending
    · exact (ih hold).concat hb
    · rw [hafter] at hb
      have hdistinct : (run {} calls).Distinct := distinct_empty.run calls
      cases call with
      | addAll bs =>
        obtain ⟨pre, post, rfl, hnew⟩ := (mem_pending_addAll_iff.1 hb).resolve_left hold
        refine ⟨calls, pre, post, [], rfl, hnew, fun between h => ?_⟩
        obtain rfl := List.prefix_nil.1 h
        rw [hafter]
        exact hb
      | drain order max =>
        have hrest := hdistinct.drainBy_append (order.perm (run {} calls).pending) max
        exact (hold (hrest.subset (List.mem_append_right _ hb))).elim
      | clear => exact (List.not_mem_nil hb).elim

end history

/-- After any submissions, drains in any order and clearings, no block is pending twice. A submission answers with the
number of ids that it makes pending, which are those in it that are not pending yet. A drain hands out nothing exactly
if nothing is asked for or nothing is pending; otherwise it takes as many of the pending blocks as it may, leaves the
others, and each block that it takes is the one by whose submission its id came to be pending. All answers to
submissions together are the blocks that have been drained, those that have been cleared, and those that are pending. -/
theorem invalidations_accounted (calls : List Call) :
    let s := run {} calls
    s.Distinct ∧
      (∀ bs, (s.addAll bs).1 = ((s.addAll bs).2.ids \ s.ids).card ∧
        (s.addAll bs).2.ids = s.ids ∪ (bs.map Block.id).toFinset) ∧
      (∀ (order : Order) max, ((s.drainBy order.arrange max).1 = none ↔ max = 0 ∨ s.pending = []) ∧
        ((s.drainBy order.arrange max).1 = none → (s.drainBy order.arrange max).2 = s) ∧
        ∀ taken, (s.drainBy order.arrange max).1 = some taken →
          s.Drains max taken (s.drainBy order.arrange max).2 ∧ ∀ b ∈ taken, Opened calls b) ∧
      total Call.added {} calls = total Call.drained {} calls + total Call.cleared {} calls + s.size := by
  intro s
  have hdistinct : s.Distinct := distinct_empty.run calls
  refine ⟨hdistinct, fun bs => ⟨hdistinct.addAll_eq_card bs, ids_addAll s bs⟩, fun order max => ?_, ?_⟩
  · refine ⟨drainBy_eq_none_iff, drainBy_of_none, fun taken htaken => ?_⟩
    have hdrains := hdistinct.drains (order.perm s.pending) htaken
    exact ⟨hdrains, fun b hb => opened_of_mem_pending (hdrains.pending hb)⟩
  · exact (Nat.zero_add _).symm.trans (distinct_empty.account calls)

/-- Three ids in two submissions, two of them submitted again with other lengths and stamps. -/
def resubmissions : List Call :=
  [.addAll [⟨1, 10, 1⟩, ⟨1, 11, 2⟩, ⟨2, 20, 1⟩], .addAll [⟨2, 99, 9⟩, ⟨3, 30, 1⟩]]

/-- A drain that begins with the latest takes two of them as they were submitted first. -/
theorem invalidations_accounted_of_resubmissions :
    let s := run {} resubmissions
    s.Drains 2 [⟨3, 30, 1⟩, ⟨2, 20, 1⟩] ⟨[⟨1, 10, 1⟩]⟩ ∧ Opened resubmissions ⟨2, 20, 1⟩ ∧
      total Call.added {} resubmissions = 0 + 0 + 3 := by
  intro s
  obtain ⟨-, -, hdrain, haccount⟩ := invalidations_accounted resubmissions
  obtain ⟨hdrains, hopened⟩ := (hdrain ⟨List.reverse, List.reverse_perm⟩ 2).2.2 [⟨3, 30, 1⟩, ⟨2, 20, 1⟩] (by decide)
  exact ⟨hdrains, hopened _ (by decide), haccount⟩

end DatanodeLedger.Work.InvalidateSet
