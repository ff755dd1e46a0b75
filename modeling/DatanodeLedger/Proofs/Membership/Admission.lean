import DatanodeLedger.Proofs.Membership.Outcomes
import DatanodeLedger.Proofs.Membership.Walking
import DatanodeLedger.Proofs.Request.Guards

/-! What a guard lets through. Once a node has admitted a guard, additions and removals come upon no fault,
and it goes on to admit the guard. -/
namespace DatanodeLedger
variable {l l' : Ledger} {n : NodeRef} {id : String} {b old new : BlockRef} {g : Guard} {r : LockRef}

namespace Ledger

/-- The node is tied to no other lock than that of the guard. -/
def Admits (l : Ledger) (n : NodeRef) (g : Guard) : Prop := ∀ r, (l.node n).lock = some r → r = g.lock

instance : Decidable (l.Admits n g) :=
  decidable_of_iff (∀ r ∈ (l.node n).lock.toList, r = g.lock) (by simp only [Option.mem_toList, Admits])

theorem admits_congr (h : l'.nodes = l.nodes) : l'.Admits n g ↔ l.Admits n g := by
  unfold Admits node
  rw [h]

/-- A node that is tied to a lock stays tied to it. -/
def Tied (n : NodeRef) (r : LockRef) (l l' : Ledger) : Prop :=
  (l.node n).lock = some r → (l'.node n).lock = some r

instance : IsPreorder Ledger (Tied n r) where
  refl _ h := h
  trans _ _ _ h h' hl := h' (h hl)

theorem tied_of_nodes (h : l'.nodes = l.nodes) : Tied n r l l' := by
  intro hl
  unfold node at hl ⊢
  rw [h]
  exact hl

private theorem tied_modifyNode {m : NodeRef} {f : Node → Node}
    (h : ∀ r, (l.node m).lock = some r → (f (l.node m)).lock = some r) : Tied n r l (l.modifyNode m f) := by
  intro hl
  rcases node_modifyNode_cases l m n f with hsame | ⟨rfl, hchanged⟩
  · rw [hsame]
    exact hl
  · rw [hchanged]
    exact h r hl

instance : Request.WorkFrame (Tied n r) where
  node h := tied_modifyNode h.lock
  storage _ := tied_of_nodes rfl
  hands nodes _ _ _ _ _ := tied_of_nodes nodes
  block _ _ _ := tied_of_nodes rfl
  newNode l r location := by
    intro hl
    rcases node_addNode_cases l { Node.ofRegistration r with location } n with hsame | ⟨hnew, -⟩
    · rw [hsame]
      exact hl
    · rw [node_of_le (Nat.le_of_eq hnew.symm)] at hl
      cases hl
  announce {l m a} _ := tied_modifyNode (l := (l.addStorage (.announced (l.node m).uuid a)).2) fun _ h => h
  cursors _ := tied_of_nodes rfl
  work _ _ _ h := tied_modifyNode fun _ hl => h.lock.trans hl

theorem tied_rewrite (l : Ledger) (v : StorageRef) (b : BlockRef) (blocks : Slab UInt64 BlockRef)
    (holders : List StorageRef) : Tied n r l (l.rewrite v b blocks holders) :=
  tied_of_nodes rfl

namespace Coherent

theorem attach_total (h : l.Coherent) {v : StorageRef} (hv : v.index < l.storages.size)
    (hlive : l.isLive v = true) (hb : b.index < l.blocks.size) : ∃ added l', l.attach v b = .ok (added, l') := by
  by_cases ho : l.Occupied v b
  · exact ⟨_, _, h.attach_refused ho⟩
  · obtain ⟨l', he, -⟩ := h.attach hv hlive hb ho
    exact ⟨_, _, he⟩

theorem detach_total (h : l.Coherent) (v : StorageRef) (b : BlockRef) :
    ∃ removed l', l.detach v b = .ok (removed, l') := by
  by_cases hb : b ∈ l.listed v
  · obtain ⟨l', he, -⟩ := h.detach hb
    exact ⟨_, _, he⟩
  · exact ⟨_, _, h.detach_refused hb⟩

end Coherent
end Ledger

namespace Request
variable {s : Service}

/-- A guard that is admitted passes. -/
theorem exec_check_of_admits (h : s.ledger.Admits n g) : ∃ l, (check n g).exec s = (.ok ⟨⟩, { s with ledger := l }) ∧
    s.ledger.Alike l ∧ (n.index < s.ledger.nodes.size → (l.node n).lock = some g.lock) := by
  unfold check
  rw [exec_bind_ok (exec_node ..)]
  cases hlock : (s.ledger.node n).lock with
  | none =>
    refine ⟨_, rfl, Ledger.alike_lock n _, fun hn => ?_⟩
    rw [Ledger.node_modifyNode hn]
  | some r =>
    have hr : r = g.lock := h r hlock
    subst hr
    simp only [ne_eq, not_true_eq_false, if_false]
    exact ⟨s.ledger, rfl, .refl _, fun _ => hlock⟩

/-- A guard that is not admitted is a fault, and nothing has changed. -/
theorem exec_check_of_not_admits (h : ¬ s.ledger.Admits n g) :
    (check n g).exec s = (.error (.foreignNamespace (s.ledger.node n).uuid), s) := by
  cases hlock : (s.ledger.node n).lock with
  | none =>
    refine (h fun r hr => ?_).elim
    rw [hlock] at hr
    cases hr
  | some r =>
    refine exec_check_foreign hlock fun hr => h fun r' hr' => ?_
    rw [hlock] at hr'
    cases hr'
    exact hr

/-- Detaching a block from a volume, if there is one, comes upon no fault. -/
private theorem exec_detach_of_coherent (h : s.ledger.Coherent) (source? : Option StorageRef) (b : BlockRef) :
    ∃ removed, ((match source? with
      | some v => attempt fun l => l.detach v b
      | none => pure false : Request Bool).exec s).1 = .ok removed := by
  cases source? with
  | none => exact ⟨false, rfl⟩
  | some v =>
    obtain ⟨removed, l', he⟩ := h.detach_total v b
    exact ⟨removed, congrArg Prod.fst (exec_attempt_ok s he)⟩

theorem exec_removeBlock_of_admits (h : s.ledger.Coherent) (hg : s.ledger.Admits n g) (b : BlockRef) :
    ∃ removed, ((removeBlock g n b).exec s).1 = .ok removed := by
  obtain ⟨l, hcheck, halike, -⟩ := exec_check_of_admits hg
  unfold removeBlock
  rw [exec_bind_ok hcheck]
  rw [exec_bind_ok (exec_ledger _)]
  exact exec_detach_of_coherent (halike.quiet.coherent h) _ b

theorem exec_removeBlockFrom_of_admits (h : s.ledger.Coherent) (hg : s.ledger.Admits n g) (id : String)
    (b : BlockRef) : ∃ removed, ((removeBlockFrom g n id b).exec s).1 = .ok removed := by
  obtain ⟨l, hcheck, halike, -⟩ := exec_check_of_admits hg
  unfold removeBlockFrom
  rw [exec_bind_ok hcheck]
  rw [exec_bind_ok (exec_ledger _)]
  exact exec_detach_of_coherent (halike.quiet.coherent h) _ b

theorem exec_addBlock_of_admits (h : s.ledger.Coherent) (hn : n ∈ s.ledger.heldNodes)
    (hb : b.index < s.ledger.blocks.size) (hg : s.ledger.Admits n g) (id : String) :
    ∃ added, ((addBlock g n id b).exec s).1 = .ok added := by
  obtain ⟨l, hcheck, halike, -⟩ := exec_check_of_admits hg
  have hl := halike.quiet.coherent h
  have hb' : b.index < l.blocks.size := halike.blocks ▸ hb
  unfold addBlock
  rw [exec_bind_ok hcheck]
  rw [exec_bind_ok (exec_ledger _)]
  simp only
  cases ht : l.storageOf? n id with
  | none => exact ⟨false, rfl⟩
  | some t =>
    obtain ⟨hlt, hlive, -⟩ := hl.of_storageOf? (halike.held ▸ hn) ht
    simp only
    cases hs : l.holderOn? b (l.node n).uuid with
    | none =>
      obtain ⟨added, l', he⟩ := hl.attach_total hlt hlive hb'
      refine ⟨added, ?_⟩
      simp only
      rw [exec_attempt_ok { s with ledger := l } (f := (Ledger.attach · t b)) he]
    | some v =>
      simp only
      split
      · exact ⟨false, rfl⟩
      · obtain ⟨l₁, hdet, hrew⟩ := hl.detach (hl.of_holderOn? hs).1
        obtain ⟨added, l', he⟩ := hrew.coherent.attach_total (Nat.lt_of_lt_of_le hlt hrew.grows.storages)
          ((hrew.live t).trans hlive) (Nat.lt_of_lt_of_le hb' hrew.grows.blocks)
        refine ⟨added, ?_⟩
        rw [exec_bind_ok (exec_record ..)]
        simp only
        rw [exec_bind_ok (exec_attempt_ok { s with ledger := l, journal := _ } hdet)]
        simp only
        rw [exec_attempt_ok { s with ledger := l₁, journal := _ } he]

/-- Taking all blocks off a node is taking off one by one what its volumes list at first, unless the guard is
not admitted. -/
theorem exec_removeAllBlocks (h : s.ledger.Coherent) (g : Guard) (n : NodeRef) :
    (¬ s.ledger.Admits n g ∧
      (removeAllBlocks g n).exec s = (.error (.foreignNamespace (s.ledger.node n).uuid), s)) ∨
    ∃ l, s.ledger.Admits n g ∧ s.ledger.Alike l ∧
      (n.index < s.ledger.nodes.size → (l.node n).lock = some g.lock) ∧
      (removeAllBlocks g n).exec s = Request.exec
        (((s.ledger.node n).storages.values.flatMap s.ledger.listed).foldlM (fun (count : Nat) b => do
          pure (if ← removeBlock g n b then count + 1 else count)) 0) { s with ledger := l } := by
  unfold removeAllBlocks walkBlocks
  rw [exec_bind, exec_bind]
  by_cases hg : s.ledger.Admits n g
  · obtain ⟨l, hcheck, halike, hlock⟩ := exec_check_of_admits hg
    have hl := halike.quiet.coherent h
    refine .inr ⟨l, hg, halike, hlock, ?_⟩
    rw [hcheck]
    simp only
    rw [exec_bind_ok (exec_node ..)]
    simp only [halike.volumes n]
    have hwalk : (collect (.through (s.ledger.node n).storages.values)).exec { s with ledger := l } =
        (.ok ((s.ledger.node n).storages.values.flatMap s.ledger.listed), { s with ledger := l }) := by
      unfold collect
      rw [exec_look]
      simp only
      rw [hl.collect_eq, funext halike.listed]
    have hrest : Request.exec (do
        let blocks ← collect (.through (s.ledger.node n).storages.values)
        blocks.foldlM (fun (count : Nat) b => do
          pure (if ← removeBlock g n b then count + 1 else count)) 0) { s with ledger := l } = _ :=
      (exec_bind _ _ _).trans (by rw [hwalk])
    exact hrest
  · refine .inl ⟨hg, ?_⟩
    rw [exec_check_of_not_admits hg]

end Request
end DatanodeLedger
