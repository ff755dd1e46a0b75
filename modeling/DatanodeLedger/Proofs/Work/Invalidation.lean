import DatanodeLedger.Work.Invalidation
import Mathlib.Data.List.Nodup

/-! Sets of blocks to delete. A block is pending once, and what a drain takes and what it leaves are what was
pending, whichever blocks it takes. -/
namespace DatanodeLedger.Work.InvalidateSet
variable {s : InvalidateSet} {b : Block} {order : List Block → List Block} {max : Nat}

/-- No block is pending twice. -/
def Distinct (s : InvalidateSet) : Prop := (s.pending.map Block.id).Nodup

theorem any_same_iff {bs : List Block} : bs.any (Block.same b) = true ↔ b.id ∈ bs.map Block.id := by
  rw [List.any_eq_true, List.mem_map]
  exact exists_congr fun d => and_congr_right fun _ => beq_iff_eq.trans eq_comm

theorem contains_iff : s.contains b = true ↔ b.id ∈ s.pending.map Block.id := any_same_iff

theorem Distinct.add (h : s.Distinct) (b : Block) : (s.add b).Distinct := by
  unfold InvalidateSet.add
  split
  case isTrue => exact h
  case isFalse hnew =>
    have hid : b.id ∉ s.pending.map Block.id := fun hid => hnew (contains_iff.2 hid)
    unfold Distinct
    rw [List.map_append]
    exact List.nodup_append.2 ⟨h, List.nodup_singleton _, fun id hmem _ hb heq =>
      hid (List.mem_singleton.1 hb ▸ heq ▸ hmem)⟩

theorem Distinct.addAll (h : s.Distinct) (bs : List Block) : (s.addAll bs).2.Distinct := by
  have hall : ∀ (bs : List Block) (s : InvalidateSet), s.Distinct → (bs.foldl InvalidateSet.add s).Distinct := by
    intro bs
    induction bs with
    | nil => exact fun _ h => h
    | cons b bs ih => exact fun s h => ih _ (h.add b)
  exact hall bs s h

theorem drainBy_of_zero (h : min max s.size = 0) : s.drainBy order max = (none, s) := if_pos h

theorem drainBy_of_ne_zero (h : min max s.size ≠ 0) : s.drainBy order max =
    (some ((order s.pending).take (min max s.size)),
      ⟨s.pending.filter fun b => !((order s.pending).take (min max s.size)).any (Block.same b)⟩) := if_neg h

/-- What a drain does not take stays pending. -/
theorem Distinct.drainBy_append (h : s.Distinct) (horder : (order s.pending).Perm s.pending) (max : Nat) :
    ((s.drainBy order max).1.getD [] ++ (s.drainBy order max).2.pending).Perm s.pending := by
  by_cases hzero : min max s.size = 0
  · rw [drainBy_of_zero hzero]
    exact List.Perm.refl _
  · rw [drainBy_of_ne_zero hzero]
    let taken := (order s.pending).take (min max s.size)
    let left := (order s.pending).drop (min max s.size)
    have hsplit : taken ++ left = order s.pending := List.take_append_drop _ _
    have hids : ((taken ++ left).map Block.id).Nodup := by
      rw [hsplit]
      exact (horder.map Block.id).nodup_iff.2 h
    -- the ids in the order are all different, so those that are taken are on no other block
    have hapart : ∀ b ∈ left, b.id ∉ taken.map Block.id := by
      rw [List.map_append] at hids
      exact fun b hb hid => (List.nodup_append.1 hids).2.2 b.id hid b.id (List.mem_map_of_mem hb) rfl
    have hnone : taken.filter (fun b => !taken.any (Block.same b)) = [] := by
      refine List.filter_eq_nil_iff.2 fun b hb => ?_
      rw [any_same_iff.2 (List.mem_map_of_mem hb)]
      exact Bool.false_ne_true
    have hleft : left.filter (fun b => !taken.any (Block.same b)) = left := by
      refine List.filter_eq_self.2 fun b hb => ?_
      rw [Bool.eq_false_iff.2 fun hany => hapart b hb (any_same_iff.1 hany)]
      rfl
    have hrest : (s.pending.filter fun b => !taken.any (Block.same b)).Perm left := by
      have hperm := (horder.filter fun b => !taken.any (Block.same b)).symm
      rw [← hsplit, List.filter_append, hnone, hleft] at hperm
      exact hperm
    have htotal : (taken ++ left).Perm s.pending := hsplit ▸ horder
    exact (hrest.append_left taken).trans htotal

theorem Distinct.drainBy (h : s.Distinct) (horder : (order s.pending).Perm s.pending) (max : Nat) :
    (s.drainBy order max).2.Distinct := by
  have hids := ((h.drainBy_append horder max).map Block.id).nodup_iff.2 h
  rw [List.map_append] at hids
  exact (List.nodup_append.1 hids).2.1

/-- A drain takes as many blocks as it may. -/
theorem Distinct.size_drainBy (h : s.Distinct) (horder : (order s.pending).Perm s.pending) (max : Nat) :
    (s.drainBy order max).2.size = s.size - max := by
  have hlength : ((s.drainBy order max).1.getD []).length = min max s.size := by
    by_cases hzero : min max s.size = 0
    · rw [drainBy_of_zero hzero, hzero]
      rfl
    · have hsize : (order s.pending).length = s.size := horder.length_eq
      rw [drainBy_of_ne_zero hzero, Option.getD_some, List.length_take, hsize]
      omega
  have htotal := (h.drainBy_append horder max).length_eq
  rw [List.length_append, hlength] at htotal
  have hsum : min max s.size + (s.drainBy order max).2.size = s.size := htotal
  omega

theorem Distinct.drain (h : s.Distinct) (max : Nat) : (s.drain max).2.Distinct := drainBy h (.refl _) max

theorem Distinct.drain_append (h : s.Distinct) (max : Nat) :
    ((s.drain max).1.getD [] ++ (s.drain max).2.pending).Perm s.pending := drainBy_append h (.refl _) max

theorem Distinct.size_drain (h : s.Distinct) (max : Nat) : (s.drain max).2.size = s.size - max :=
  size_drainBy h (.refl _) max

end DatanodeLedger.Work.InvalidateSet
