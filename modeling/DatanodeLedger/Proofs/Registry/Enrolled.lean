import DatanodeLedger.Proofs.Registry.Steady

/-! The registries are in order on every service that steps lead to: a node is entered under its own uuid, is
tied to the lock of its coordinator, and is in no other registry. -/
namespace DatanodeLedger

namespace Ledger
variable {l l' : Ledger} {c c' : CoordinatorRef} {n : NodeRef} {uuid uuid' : String}

structure Enrolled (l : Ledger) : Prop where
  keys : ∀ c, (l.coordinator c).nodes.keys.Nodup
  made : ∀ c uuid n, (l.coordinator c).nodes.find? uuid = some n → n.index < l.nodes.size
  uuid : ∀ c uuid n, (l.coordinator c).nodes.find? uuid = some n → (l.node n).uuid = uuid
  tied : ∀ c uuid n, (l.coordinator c).nodes.find? uuid = some n → (l.node n).lock = some (l.coordinator c).lock
  apart : ∀ c c' uuid uuid' n, (l.coordinator c).nodes.find? uuid = some n →
    (l.coordinator c').nodes.find? uuid' = some n → c = c'

/-- Whoever has a node has been made. -/
theorem lt_size_of_find? (h : (l.coordinator c).nodes.find? uuid = some n) : c.index < l.coordinators.size := by
  by_contra hc
  rw [coordinator_of_le (Nat.le_of_not_lt hc)] at h
  cases h

theorem lt_size_of_mem_values (h : n ∈ (l.coordinator c).nodes.values) : c.index < l.coordinators.size := by
  by_contra hc
  rw [coordinator_of_le (Nat.le_of_not_lt hc)] at h
  cases h

/-- As long as registries stay as they are, only the nodes in them are in question, and these keep their uuids
and their locks. -/
theorem Enrolled.of_keepsRegistries (h : l.Enrolled) (h' : l.KeepsRegistries l') : l'.Enrolled where
  keys c := h'.registry c ▸ h.keys c
  made c uuid n hn := by
    rw [h'.registry] at hn
    exact Nat.lt_of_lt_of_le (h.made c uuid n hn) h'.size
  uuid c uuid n hn := by
    rw [h'.registry] at hn
    exact (h'.uuid n (h.made c uuid n hn)).trans (h.uuid c uuid n hn)
  tied c uuid n hn := by
    rw [h'.registry] at hn
    rw [h'.terms.lock c (lt_size_of_find? hn)]
    exact h'.tied n _ (h.tied c uuid n hn)
  apart c c' uuid uuid' n hn hn' := by
    rw [h'.registry] at hn hn'
    exact h.apart c c' uuid uuid' n hn hn'

/-- A registry may get a node that is tied to the lock of the coordinator and has been in no registry so far. -/
theorem Enrolled.modifyRegistry (h : l.Enrolled) {f : Table String NodeRef → Table String NodeRef}
    (keys : (f (l.coordinator c).nodes).keys.Nodup)
    (entered : ∀ uuid n, (f (l.coordinator c).nodes).find? uuid = some n →
      (l.coordinator c).nodes.find? uuid = some n ∨
      n.index < l.nodes.size ∧ (l.node n).uuid = uuid ∧ (l.node n).lock = some (l.coordinator c).lock ∧
        ∀ c' uuid', (l.coordinator c').nodes.find? uuid' ≠ some n) :
    (l.modifyCoordinator c fun k => { k with nodes := f k.nodes }).Enrolled := by
  have hlock := coordinator_modifyCoordinator_congr (l := l) (c := c)
    (f := fun k => { k with nodes := f k.nodes }) Coordinator.lock rfl
  -- what is found now was found before in the same registry, or is new in the one that has changed
  have hfound : ∀ {k uuid n}, ((l.modifyCoordinator c fun k => { k with nodes := f k.nodes }).coordinator k).nodes.find?
      uuid = some n → (l.coordinator k).nodes.find? uuid = some n ∨
      k = c ∧ n.index < l.nodes.size ∧ (l.node n).uuid = uuid ∧ (l.node n).lock = some (l.coordinator c).lock ∧
        ∀ c' uuid', (l.coordinator c').nodes.find? uuid' ≠ some n := by
    intro k uuid n hn
    rcases coordinator_modifyCoordinator_cases l c k fun k => { k with nodes := f k.nodes } with hk | ⟨rfl, hk⟩
    · rw [hk] at hn
      exact .inl hn
    · rw [hk] at hn
      exact (entered uuid n hn).imp_right fun hnew => ⟨rfl, hnew⟩
  refine ⟨fun k => ?_, fun k uuid n hn => ?_, fun k uuid n hn => ?_, fun k uuid n hn => ?_,
    fun k k' uuid uuid' n hn hn' => ?_⟩
  · rcases coordinator_modifyCoordinator_cases l c k fun k => { k with nodes := f k.nodes } with hk | ⟨rfl, hk⟩
    · rw [hk]
      exact h.keys k
    · rw [hk]
      exact keys
  · rcases hfound hn with hn | ⟨-, hmade, -⟩
    · exact h.made k uuid n hn
    · exact hmade
  · rcases hfound hn with hn | ⟨-, -, huuid, -⟩
    · exact h.uuid k uuid n hn
    · exact huuid
  · rw [hlock]
    rcases hfound hn with hn | ⟨rfl, -, -, htied, -⟩
    · exact h.tied k uuid n hn
    · exact htied
  · rcases hfound hn with hold | ⟨rfl, -, -, -, hfree⟩
    · rcases hfound hn' with hold' | ⟨rfl, -, -, -, hfree'⟩
      · exact h.apart k k' uuid uuid' n hold hold'
      · exact (hfree' k uuid hold).elim
    · rcases hfound hn' with hold' | ⟨rfl, -⟩
      · exact (hfree k' uuid' hold').elim
      · rfl

theorem Enrolled.erase (h : l.Enrolled) (c : CoordinatorRef) (uuid : String) :
    (l.modifyCoordinator c fun k => { k with nodes := k.nodes.erase uuid }).Enrolled := by
  refine h.modifyRegistry (f := (·.erase uuid)) (Table.keys_nodup_erase (h.keys c) uuid) fun uuid' n hn => .inl ?_
  by_cases huuid : uuid' = uuid
  · rw [huuid, Table.find?_erase_self] at hn
    cases hn
  · rwa [Table.find?_erase_of_ne _ huuid] at hn

/-- The ledger with a new node in the registry, tied to the lock of its coordinator. -/
def bound (l : Ledger) (c : CoordinatorRef) (r : Registration) : Ledger :=
  (l.addNode (Node.ofRegistration r)).2.modifyNode ⟨l.nodes.size⟩ fun node =>
    { node with lock := some (l.coordinator c).lock }

def enter (l : Ledger) (c : CoordinatorRef) (r : Registration) : Ledger :=
  (l.bound c r).modifyCoordinator c fun k => { k with nodes := k.nodes.insert r.uuid ⟨l.nodes.size⟩ }

section enter
variable (l : Ledger) (c : CoordinatorRef) (r : Registration)

theorem size_bound : (l.bound c r).nodes.size = l.nodes.size + 1 :=
  Array.size_modify.trans (size_addNode l _)

theorem node_bound_self :
    (l.bound c r).node ⟨l.nodes.size⟩ = { Node.ofRegistration r with lock := some (l.coordinator c).lock } := by
  have hlt : l.nodes.size < (l.addNode (Node.ofRegistration r)).2.nodes.size := by
    rw [size_addNode]
    exact Nat.lt_succ_self _
  unfold bound
  rw [node_modifyNode (n := ⟨l.nodes.size⟩) hlt, node_addNode_self]

theorem node_bound_of_ne {n : NodeRef} (hn : n.index ≠ l.nodes.size) : (l.bound c r).node n = l.node n := by
  have hne : n ≠ ⟨l.nodes.size⟩ := fun h => hn (congrArg NodeRef.index h)
  unfold bound
  rw [node_modifyNode_of_ne hne]
  rcases node_addNode_cases l (Node.ofRegistration r) n with h | ⟨h, -⟩
  · exact h
  · exact (hn h).elim

theorem keepsRegistries_bound : l.KeepsRegistries (l.bound c r) := by
  refine trans_of KeepsRegistries (keepsRegistries_addNode l (Node.ofRegistration r))
    (keepsRegistries_modifyNode rfl fun lock hlock => ?_)
  rw [node_addNode_self] at hlock
  cases hlock

end enter

theorem Enrolled.enter (h : l.Enrolled) (c : CoordinatorRef) (r : Registration) : (l.enter c r).Enrolled := by
  refine (h.of_keepsRegistries (keepsRegistries_bound l c r)).modifyRegistry
    (f := (·.insert r.uuid ⟨l.nodes.size⟩)) (Table.keys_nodup_insert (h.keys c) _ _) fun uuid n hn => ?_
  by_cases huuid : uuid = r.uuid
  · subst huuid
    rw [Table.find?_insert_self] at hn
    cases hn
    rw [node_bound_self, size_bound]
    refine .inr ⟨Nat.lt_succ_self _, rfl, rfl, fun c' uuid' hn => ?_⟩
    exact Nat.lt_irrefl _ (h.made c' uuid' _ hn)
  · rw [Table.find?_insert_of_ne _ huuid] at hn
    exact .inl hn

/-- A coordinator that is new has no nodes yet. -/
theorem coordinator_addCoordinator_cases (l : Ledger) (limits : Limits) (k : CoordinatorRef) :
    (l.addCoordinator limits).2.coordinator k = l.coordinator k ∨
      ((l.addCoordinator limits).2.coordinator k).nodes = {} := by
  unfold coordinator Ledger.addCoordinator
  rw [Array.getElem?_push]
  split
  · exact .inr rfl
  · exact .inl rfl

theorem Enrolled.addCoordinator (h : l.Enrolled) (limits : Limits) : (l.addCoordinator limits).2.Enrolled := by
  have hcases := l.coordinator_addCoordinator_cases limits
  have hfound : ∀ {k uuid n}, ((l.addCoordinator limits).2.coordinator k).nodes.find? uuid = some n →
      (l.addCoordinator limits).2.coordinator k = l.coordinator k ∧ (l.coordinator k).nodes.find? uuid = some n := by
    intro k uuid n hn
    rcases hcases k with hk | hk
    · exact ⟨hk, hk ▸ hn⟩
    · rw [hk] at hn
      cases hn
  refine ⟨fun k => ?_, fun k uuid n hn => h.made k uuid n (hfound hn).2,
    fun k uuid n hn => h.uuid k uuid n (hfound hn).2, fun k uuid n hn => ?_,
    fun k k' uuid uuid' n hn hn' => h.apart k k' uuid uuid' n (hfound hn).2 (hfound hn').2⟩
  · rcases hcases k with hk | hk
    · rw [hk]
      exact h.keys k
    · rw [hk]
      exact List.nodup_nil
  · rw [(hfound hn).1]
    exact h.tied k uuid n (hfound hn).2

theorem enrolled_start (clock : Int) : Enrolled { clock } where
  keys _ := List.nodup_nil
  made _ _ _ hn := nomatch hn
  uuid _ _ _ hn := nomatch hn
  tied _ _ _ hn := nomatch hn
  apart _ _ _ _ _ hn _ := nomatch hn

theorem Enrolled.uuids_eq (h : l.Enrolled) (c : CoordinatorRef) :
    (l.coordinator c).nodes.values.map (fun n => (l.node n).uuid) = (l.coordinator c).nodes.keys := by
  unfold Table.keys Table.values
  rw [List.map_map]
  exact List.map_congr_left fun e he => h.uuid c e.1 e.2 ((Table.find?_eq_some_iff (h.keys c)).2 he)

theorem Enrolled.values_nodup (h : l.Enrolled) (c : CoordinatorRef) : (l.coordinator c).nodes.values.Nodup := by
  have hkeys := h.keys c
  rw [← h.uuids_eq c] at hkeys
  exact hkeys.of_map _

/-- A node of a registry is found under its uuid. -/
theorem Enrolled.mem_values_iff (h : l.Enrolled) :
    n ∈ (l.coordinator c).nodes.values ↔ (l.coordinator c).nodes.find? (l.node n).uuid = some n := by
  refine ⟨fun hn => ?_, Table.mem_values_of_find?⟩
  obtain ⟨e, he, rfl⟩ := List.mem_map.1 hn
  have hfind := (Table.find?_eq_some_iff (h.keys c)).2 he
  rw [h.uuid c e.1 e.2 hfind]
  exact hfind

/-- The registries are in order afterwards if they were before. -/
def KeepsEnrolled (l l' : Ledger) : Prop := l.Enrolled → l'.Enrolled

instance : IsPreorder Ledger KeepsEnrolled where
  refl _ h := h
  trans _ _ _ h h' hl := h' (h hl)

theorem keepsEnrolled_of_eq (hnodes : l'.nodes = l.nodes) (hcoordinators : l'.coordinators = l.coordinators) :
    l.KeepsEnrolled l' :=
  fun hl => hl.of_keepsRegistries (keepsRegistries_of_eq hnodes hcoordinators)

theorem KeepsRegistries.keepsEnrolled (h : l.KeepsRegistries l') : l.KeepsEnrolled l' :=
  fun hl => hl.of_keepsRegistries h

instance : Request.Narrow KeepsEnrolled where
  unseen hnodes hcoordinators _ := keepsEnrolled_of_eq hnodes hcoordinators
  node h := (keepsRegistries_modifyNode h.uuid h.lock).keepsEnrolled
  newNode l _ _ := (keepsRegistries_addNode l _).keepsEnrolled
  counter l c counter count := (keepsRegistries_metrics l c (Metrics.add · counter count)).keepsEnrolled
  guarded h _ := Request.guarded_of_modifyLock (fun _ _ _ => keepsEnrolled_of_eq rfl rfl) h

theorem allowsLife_keepsEnrolled (c : CoordinatorRef) (n : NodeRef) : Request.AllowsLife KeepsEnrolled c n :=
  ⟨fun h => (keepsRegistries_modifyNode h.uuid h.lock).keepsEnrolled,
    fun l f _ => (keepsRegistries_metrics l c f).keepsEnrolled⟩

theorem keepsEnrolled_enroll (c : CoordinatorRef) (r : Registration) :
    Request.Respects KeepsEnrolled (Request.enroll c r) := by
  intro s hs
  rw [Request.exec_enroll]
  exact (hs.enter c r).of_keepsRegistries (keepsRegistries_metrics _ c (Metrics.raise · .registeredDatanodes))

end Ledger
open Ledger (KeepsEnrolled)

variable {s : Service}

theorem Step.keepsEnrolled_after (step : Step) (h : step.Enabled s.ledger) :
    s.ledger.KeepsEnrolled (step.after s).ledger := by
  have hlife := Ledger.allowsLife_keepsEnrolled
  by_cases hstirs : step.Stirs
  · cases step with
    | changeNode n change =>
      have hsettles : s.ledger.Settles (s.ledger.node n) (change.apply (s.ledger.node n)) := change.settles
      exact (Ledger.keepsRegistries_modifyNode hsettles.uuid fun r hr => hsettles.lock.trans hr).keepsEnrolled
    | changeLock r lock => exact Ledger.keepsEnrolled_of_eq rfl rfl
    | makeCoordinator limits => exact fun hl => hl.addCoordinator limits
    | dropCoordinator c =>
      exact fun hl => hl.modifyRegistry (f := fun _ => {}) List.nodup_nil fun uuid n hn => nomatch hn
    | updateHeartbeat n beat => exact Request.respects_updateHeartbeat (hlife ⟨0⟩ n).hearing beat s
    | register c r storages =>
      exact Request.respects_register (hlife c) (Ledger.keepsEnrolled_enroll c r) storages s
    | removeNode c uuid =>
      have hpin : ∀ n, s.ledger.KeepsEnrolled (s.ledger.pin n) := fun _ => Ledger.keepsEnrolled_of_eq rfl rfl
      exact Request.respects_removeNode (Request.rel_detach Request.Slim.rewrite) c uuid
        (fun n _ => Request.Slim.calmWork n) (fun n _ hl => (hpin n hl).erase c uuid)
        (fun _ _ => Ledger.keepsEnrolled_of_eq rfl rfl) (hlife c)
    | heartbeat c uuid beat =>
      exact Request.respects_heartbeat c uuid beat (fun n _ => Request.Slim.calmWork n)
        fun n _ => (hlife c n).hearing
    | checkHeartbeats c now => exact Request.respects_checkHeartbeats (hlife c) now s
    | _ => exact hstirs.elim
  · exact step.narrow_after hstirs h

theorem Reachable.enrolled (h : Reachable s) : s.ledger.Enrolled :=
  h.induct Ledger.enrolled_start fun _ step hl hstep => step.keepsEnrolled_after hstep hl

end DatanodeLedger
