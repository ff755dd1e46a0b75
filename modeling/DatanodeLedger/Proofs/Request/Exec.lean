import DatanodeLedger.Service.Registry
import Mathlib.Order.Defs.Unbundled

/-! What requests come to: the answer or the fault, and the service after it. A relation between the
ledger before and the ledger after is shown of a request piece by piece. -/
namespace DatanodeLedger

/-- The ledger after a node has been taken out of the registry by someone who holds it. -/
def Ledger.forget (l : Ledger) (c : CoordinatorRef) (uuid : String) (n : NodeRef) : Ledger :=
  (l.pin n).modifyCoordinator c fun k => { k with nodes := k.nodes.erase uuid }

namespace Request
variable {α β : Type}

/-- What a request comes to on a service. A fault leaves what was changed before it. -/
def exec (r : Request α) (s : Service) : Except Fault α × Service := r.run.run s

/-- A lock is given back after what ran under it, and is poisoned if that was a fault. -/
def giveBack (r : LockRef) : Except Fault α × Service → Except Fault α × Service
  | (.ok a, s) => (.ok a, { s with ledger := s.ledger.modifyLock r fun lock => { lock with held := false } })
  | (.error e, s) =>
    (.error e, { s with ledger := s.ledger.modifyLock r fun _ => { held := false, poisoned := true } })

/-- A node is let go of after what ran while it was held. -/
def letGo (n : NodeRef) (outcome : Except Fault α × Service) : Except Fault α × Service :=
  (outcome.1, { outcome.2 with ledger := outcome.2.ledger.unpin n })

section exec
variable (s : Service)

theorem exec_bind (r : Request α) (f : α → Request β) :
    (r >>= f).exec s = match r.exec s with
      | (.ok a, s') => (f a).exec s'
      | (.error e, s') => (.error e, s') := by
  unfold exec
  rw [ExceptT.run_bind, StateT.run_bind]
  rcases r.run.run s with ⟨e | a, s'⟩ <;> rfl

/-- A request that answers hands its answer to what comes next, and a fault stops what comes next. -/
theorem exec_bind_ok {r : Request α} {a : α} {s s' : Service} (h : r.exec s = (.ok a, s')) (f : α → Request β) :
    (r >>= f).exec s = (f a).exec s' := by
  rw [exec_bind, h]

theorem exec_bind_error {r : Request α} {e : Fault} {s s' : Service} (h : r.exec s = (.error e, s'))
    (f : α → Request β) : (r >>= f).exec s = (.error e, s') := by
  rw [exec_bind, h]

theorem exec_tryCatch (r : Request α) (f : Fault → Request α) :
    (tryCatch r f).exec s = match r.exec s with
      | (.ok a, s') => (.ok a, s')
      | (.error e, s') => (f e).exec s' := by
  unfold exec
  rw [ExceptT.run_tryCatch, StateT.run_bind]
  rcases r.run.run s with ⟨e | a, s'⟩ <;> rfl

theorem exec_ledger : ledger.exec s = (.ok s.ledger, s) := rfl

theorem exec_record (e : Event) :
    (record e).exec s = (.ok ⟨⟩, { s with journal := e :: s.journal }) := rfl

theorem exec_modifyLedger (f : Ledger → Ledger) :
    (modifyLedger f).exec s = (.ok ⟨⟩, { s with ledger := f s.ledger }) := rfl

theorem exec_make (f : Ledger → α × Ledger) :
    (make f).exec s = (.ok (f s.ledger).1, { s with ledger := (f s.ledger).2 }) := rfl

theorem exec_look (f : Ledger → Except Fault α) : (look f).exec s = (f s.ledger, s) := by
  have h : (look f).exec s = (liftM (f s.ledger) : Request α).exec s := rfl
  rw [h]
  cases f s.ledger <;> rfl

theorem exec_attempt_ok {f : Ledger → Except Fault (α × Ledger)} {a : α} {l : Ledger}
    (h : f s.ledger = .ok (a, l)) : (attempt f).exec s = (.ok a, { s with ledger := l }) := by
  have hlift : (attempt f).exec s = ((liftM (f s.ledger) : Request (α × Ledger)) >>= fun p => do
      setLedger p.2
      pure p.1).exec s := rfl
  rw [hlift, exec_bind, h]
  rfl

theorem exec_attempt_error {f : Ledger → Except Fault (α × Ledger)} {e : Fault}
    (h : f s.ledger = .error e) : (attempt f).exec s = (.error e, s) := by
  have hlift : (attempt f).exec s = ((liftM (f s.ledger) : Request (α × Ledger)) >>= fun p => do
      setLedger p.2
      pure p.1).exec s := rfl
  rw [hlift, exec_bind, h]
  rfl

theorem exec_node (n : NodeRef) : (node n).exec s = (.ok (s.ledger.node n), s) := rfl

theorem exec_modifyNode (n : NodeRef) (f : Node → Node) :
    (modifyNode n f).exec s = (.ok ⟨⟩, { s with ledger := s.ledger.modifyNode n f }) := rfl

theorem exec_coordinator (c : CoordinatorRef) : (coordinator c).exec s = (.ok (s.ledger.coordinator c), s) := rfl

theorem exec_registered? (c : CoordinatorRef) (uuid : String) :
    (registered? c uuid).exec s = (.ok ((s.ledger.coordinator c).nodes.find? uuid), s) := rfl

/-- What runs while a node is held runs with one holder more, and the node is let go of however it ends. -/
theorem exec_holding (n : NodeRef) (body : Request α) :
    (holding n body).exec s = letGo n (body.exec { s with ledger := s.ledger.pin n }) := by
  unfold holding
  rw [exec_bind_ok (exec_modifyLedger ..), exec_tryCatch, exec_bind]
  rcases body.exec _ with ⟨e | a, s'⟩
  · rfl
  · rfl

theorem exec_removeNode_of_none {c : CoordinatorRef} {uuid : String} {s : Service}
    (hn : (s.ledger.coordinator c).nodes.find? uuid = none) : (removeNode c uuid).exec s = (.ok none, s) := by
  unfold removeNode
  rw [exec_bind_ok (exec_registered? ..), hn]
  rfl

/-- A node that is removed is out of the registry before the rest of it goes, and held until then. -/
theorem exec_removeNode_of_registered {c : CoordinatorRef} {uuid : String} {n : NodeRef} {s : Service}
    (hn : (s.ledger.coordinator c).nodes.find? uuid = some n) : (removeNode c uuid).exec s = letGo n (Request.exec (do
      let replicas ← purge c n
      markDead c n
      modifyMetrics c fun m => m.lower .registeredDatanodes
      record (.removed (← node n).shown replicas)
      pure (some n)) { s with ledger := s.ledger.forget c uuid n }) := by
  unfold removeNode
  rw [exec_bind_ok (exec_registered? ..), hn]
  simp only
  rw [exec_holding, exec_bind_ok (exec_modifyLedger ..)]
  rfl

/-- What runs under a lock runs while the lock is held. Only the journal tells whether the lock was poisoned. -/
theorem exec_withLock (r : LockRef) (body : Guard → Request α) : ∃ journal, (withLock r body).exec s =
    giveBack r ((body ⟨r⟩).exec ⟨s.ledger.modifyLock r fun lock => { lock with held := true }, journal⟩) := by
  have hrest : ∀ journal, Request.exec (do
      modifyLedger fun l => l.modifyLock r fun lock => { lock with held := true }
      try
        let a ← body ⟨r⟩
        modifyLedger fun l => l.modifyLock r fun lock => { lock with held := false }
        pure a
      catch fault =>
        modifyLedger fun l => l.modifyLock r fun _ => { held := false, poisoned := true }
        throw fault) ⟨s.ledger, journal⟩ =
      giveBack r ((body ⟨r⟩).exec ⟨s.ledger.modifyLock r fun lock => { lock with held := true }, journal⟩) := by
    intro journal
    rw [exec_bind_ok (exec_modifyLedger ..)]
    rw [exec_tryCatch, exec_bind]
    rcases (body ⟨r⟩).exec _ with ⟨e | a, s'⟩
    · rfl
    · rfl
  unfold withLock
  rw [exec_bind_ok (exec_ledger _)]
  simp only
  split
  · rw [exec_bind_ok (exec_record ..)]
    exact ⟨_, hrest _⟩
  · exact ⟨_, hrest s.journal⟩

end exec

/-- However a request ends, the ledger before and the ledger after stand in a relation. -/
def Respects (R : Ledger → Ledger → Prop) (r : Request α) : Prop :=
  ∀ s, R s.ledger (r.exec s).2.ledger

namespace Respects
variable {R : Ledger → Ledger → Prop}

variable [IsPreorder Ledger R]

theorem pure (a : α) : Respects R (Pure.pure a) := fun s => refl_of R s.ledger

theorem throw (e : Fault) : Respects R (MonadExcept.throw e : Request α) := fun s => refl_of R s.ledger

theorem bind {r : Request α} {f : α → Request β} (hr : Respects R r) (hf : ∀ a, Respects R (f a)) :
    Respects R (r >>= f) := by
  intro s
  have h₁ := hr s
  rw [exec_bind]
  rcases h : r.exec s with ⟨e | a, s'⟩
  · rw [h] at h₁
    exact h₁
  · rw [h] at h₁
    exact trans_of R h₁ (hf a s')

theorem tryCatch {r : Request α} {f : Fault → Request α} (hr : Respects R r)
    (hf : ∀ e, Respects R (f e)) : Respects R (MonadExcept.tryCatch r f) := by
  intro s
  have h₁ := hr s
  rw [exec_tryCatch]
  rcases h : r.exec s with ⟨e | a, s'⟩
  · rw [h] at h₁
    exact trans_of R h₁ (hf e s')
  · rw [h] at h₁
    exact h₁

theorem ledger : Respects R ledger := fun s => refl_of R s.ledger

theorem node (n : NodeRef) : Respects R (node n) := fun s => refl_of R s.ledger

theorem record (e : Event) : Respects R (record e) := fun s => refl_of R s.ledger

theorem look (f : Ledger → Except Fault α) : Respects R (look f) := by
  intro s
  rw [exec_look]
  exact refl_of R s.ledger

theorem lift (x : Except Fault α) : Respects R (liftM x : Request α) := by
  intro s
  cases x <;> exact refl_of R s.ledger

omit [IsPreorder Ledger R] in
theorem modifyLedger {f : Ledger → Ledger} (h : ∀ l, R l (f l)) : Respects R (modifyLedger f) :=
  fun s => h s.ledger

theorem attempt {f : Ledger → Except Fault (α × Ledger)} (h : ∀ l a l', f l = .ok (a, l') → R l l') :
    Respects R (attempt f) := by
  intro s
  cases hf : f s.ledger with
  | error e =>
    rw [exec_attempt_error s hf]
    exact refl_of R s.ledger
  | ok p =>
    rw [exec_attempt_ok s hf]
    exact h s.ledger p.1 p.2 hf

omit [IsPreorder Ledger R] in
theorem takeFrom {n : NodeRef} {f : Node → α × Node}
    (h : ∀ l : Ledger, R l (l.modifyNode n fun _ => (f (l.node n)).2)) : Respects R (takeFrom n f) :=
  fun s => h s.ledger

theorem forM {f : α → Request PUnit} {as : List α} (h : ∀ a ∈ as, Respects R (f a)) :
    Respects R (as.forM f) := by
  induction as with
  | nil => exact .pure _
  | cons a as ih =>
    exact .bind (h a List.mem_cons_self) fun _ => ih fun x hx => h x (List.mem_cons_of_mem a hx)

theorem foldlM {f : β → α → Request β} {as : List α} (h : ∀ b, ∀ a ∈ as, Respects R (f b a)) (b : β) :
    Respects R (as.foldlM f b) := by
  induction as generalizing b with
  | nil => exact .pure _
  | cons a as ih =>
    exact .bind (h b a List.mem_cons_self) fun b' => ih (fun c x hx => h c x (List.mem_cons_of_mem a hx)) b'

end Respects
end Request
end DatanodeLedger
