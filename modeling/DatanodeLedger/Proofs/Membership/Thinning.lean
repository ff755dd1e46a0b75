import DatanodeLedger.Proofs.Membership.Outcomes

/-! The requests that only take blocks off lists, down to forgetting a node. -/
namespace DatanodeLedger
open Ledger (Quiet)

namespace Ledger
variable {l l' : Ledger}

/-- Lists and back-references go on to agree, and no list gains a block. -/
def Thins (l l' : Ledger) : Prop :=
  l.Coherent → l'.Coherent ∧ l.Grows l' ∧ ∀ s b, b ∈ l'.listed s → b ∈ l.listed s

instance : IsPreorder Ledger Thins where
  refl l h := ⟨h, .refl l, fun _ _ hb => hb⟩
  trans l l' l'' h h' hl := by
    obtain ⟨hl', hgrows, hthin⟩ := h hl
    obtain ⟨hl'', hgrows', hthin'⟩ := h' hl'
    exact ⟨hl'', hgrows.trans hgrows', fun s b hb => hthin s b (hthin' s b hb)⟩

theorem Quiet.thins (h : l.Quiet l') : l.Thins l' := fun hl =>
  ⟨h.coherent hl, h.toGrows, fun s b hb => by rwa [h.listed s] at hb⟩

theorem Rewritten.thins {s : StorageRef} {b : BlockRef} (h : l.Detached s b l') : l.Thins l' := by
  refine fun _ => ⟨h.coherent, h.grows, fun t c hc => ?_⟩
  by_cases ht : t = s
  · subst ht
    rw [h.listed_self] at hc
    exact List.mem_of_mem_erase hc
  · rwa [h.listed_of_ne t ht] at hc

end Ledger

open Ledger (Thins)

instance : Request.WorkFrame Thins where
  node h := (Request.Frame.node h : Quiet _ _).thins
  storage h := (Request.Frame.storage h : Quiet _ _).thins
  hands nodes storages blocks cursors terms held :=
    (Request.Frame.hands nodes storages blocks cursors terms held : Quiet _ _).thins
  block l block replication := (Request.Frame.block l block replication : Quiet _ _).thins
  newNode l r location := (Request.Frame.newNode l r location : Quiet _ _).thins
  announce h := (Request.Frame.announce h : Quiet _ _).thins
  cursors h := (Request.Frame.cursors h : Quiet _ _).thins
  work n _ _ h := (Request.WorkFrame.work n h : Quiet _ _).thins

theorem Ledger.thins_detach (l : Ledger) (v : StorageRef) (b : BlockRef) (removed : Bool) (l' : Ledger)
    (h : l.detach v b = .ok (removed, l')) : Thins l l' := by
  intro hl
  by_cases hb : b ∈ l.listed v
  · obtain ⟨l₁, he, hrew⟩ := hl.detach hb
    rw [h] at he
    cases he
    exact Ledger.Rewritten.thins hrew hl
  · rw [hl.detach_refused hb] at h
    cases h
    exact refl_of Thins l hl

end DatanodeLedger
