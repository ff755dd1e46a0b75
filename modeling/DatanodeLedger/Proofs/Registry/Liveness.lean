import DatanodeLedger.Proofs.Membership.Mirror
import DatanodeLedger.Proofs.Registry.Beats

/-! Life and death of nodes. A check declares dead those that have been silent for too long; a node that was
declared dead stays so until it registers, and one that was heard of lives on for as long as the expiry interval. -/
namespace DatanodeLedger

/-- The expiry interval is twice the recheck interval and ten heartbeat intervals, as long as that is a word. -/
theorem Limits.expiry_of_lt {limits : Limits}
    (h : 2 * limits.recheckInterval.toNat + 10 * limits.heartbeatInterval.toNat < UInt64.size) :
    ∃ expiry, limits.expiry = .ok expiry ∧
      expiry.toNat = 2 * limits.recheckInterval.toNat + 10 * limits.heartbeatInterval.toNat := by
  have hword : ∀ {n : Nat}, n < UInt64.size → (UInt64.ofNat n).toNat = n := UInt64.toNat_ofNat_of_lt'
  have hrechecks : Word.mul64 2 limits.recheckInterval = .ok (UInt64.ofNat (2 * limits.recheckInterval.toNat)) :=
    Word.mul64_eq_ok_iff.2 (hword (by omega))
  have hheartbeats : Word.mul64 10 limits.heartbeatInterval =
      .ok (UInt64.ofNat (10 * limits.heartbeatInterval.toNat)) := Word.mul64_eq_ok_iff.2 (hword (by omega))
  have hsum : Word.add64 (UInt64.ofNat (2 * limits.recheckInterval.toNat))
      (UInt64.ofNat (10 * limits.heartbeatInterval.toNat)) =
      .ok (UInt64.ofNat (2 * limits.recheckInterval.toNat + 10 * limits.heartbeatInterval.toNat)) := by
    rw [Word.add64_eq_ok_iff, hword h, hword (by omega), hword (by omega)]
  refine ⟨_, ?_, hword h⟩
  unfold expiry
  rw [hrechecks, hheartbeats]
  exact hsum

theorem Node.toNat_silence (node : Node) (now : UInt64) :
    (node.silence now).toNat = now.toNat - node.stats.lastUpdate.toNat :=
  Word.toNat_saturatingSub _ _

theorem Node.expired_iff {node : Node} {now expiry : UInt64} : node.expired now expiry = true ↔
    node.alive = true ∧ expiry.toNat < now.toNat - node.stats.lastUpdate.toNat := by
  unfold Node.expired
  rw [Bool.and_eq_true, decide_eq_true_iff, UInt64.lt_iff_toNat_lt, Node.toNat_silence]

theorem Node.serve_stats (node : Node) (limits : Limits) : (node.serve limits).2.2.stats = node.stats := by
  unfold Node.serve
  cases hpoll : node.pollRecoveries limits.maxRecoveryStreams.toNat with
  | mk batch polled =>
    have hstats : polled.stats = node.stats := congrArg (fun p => p.2.stats) hpoll.symm
    cases batch with
    | some blocks => exact hstats
    | none => exact hstats

namespace Ledger
variable {l l' : Ledger} {c k : CoordinatorRef} {m n : NodeRef}

/-- The clock stands. -/
def SameClock (l l' : Ledger) : Prop := l'.clock = l.clock

instance : IsPreorder Ledger SameClock where
  refl _ := rfl
  trans _ _ _ h h' := h'.trans h

instance : Request.Still SameClock where
  node _ := rfl
  storage _ := rfl
  counter _ _ _ _ := rfl
  guarded h _ := h
  announce _ := rfl

theorem SameClock.now (h : l.SameClock l') : l'.now = l.now := congrArg (fun clock : Int => UInt64.ofNat clock.toNat) h

/-- A node that announces its volumes is heard of. -/
theorem lastUpdate_hear (hn : n.index < l.nodes.size) (storages : List Announcement) :
    ((l.hear n storages).node n).stats.lastUpdate = l.now := by
  have hclock : l.SameClock (storages.foldl (fun l a => l.updateStorage n a) l) := rel_updateStorages l n storages
  have hsize : l.nodes.size ≤ (storages.foldl (fun l a => l.updateStorage n a) l).nodes.size :=
    (rel_updateStorages (R := KeepsRegistries) l n storages).size
  unfold hear
  rw [node_modifyNode (Nat.lt_of_lt_of_le hn hsize)]
  exact hclock.now

theorem lastUpdate_settle (hn : n.index < l.nodes.size) (storages : List Announcement) :
    ((l.settle c n storages).node n).stats.lastUpdate = l.now := by
  have hear : l.KeepsRegistries (l.hear n storages) := rel_hear (allowsLife_keepsRegistries c n).hearing l storages
  have hnode := node_revive (l.hear n storages) c (Nat.lt_of_lt_of_le hn hear.size) n
  rw [if_pos rfl] at hnode
  exact (congrArg (·.stats.lastUpdate) hnode).trans (lastUpdate_hear hn storages)

/-- Another node that settles changes neither whether a node is alive nor when it was last heard of. -/
theorem life_settle (hm : m.index < l.nodes.size) (hne : n ≠ m) (storages : List Announcement) :
    ((l.settle k m storages).node n).alive = (l.node n).alive ∧
      ((l.settle k m storages).node n).stats.lastUpdate = (l.node n).stats.lastUpdate := by
  have hear : l.Steady (fun x => x ≠ m) (l.hear m storages) :=
    rel_hear (allowsHearing_steady fun h => h rfl) l storages
  have hnode : (l.settle k m storages).node n = (l.hear m storages).node n := by
    unfold settle
    rw [node_revive _ k (Nat.lt_of_lt_of_le hm hear.size), if_neg hne]
  rw [hnode]
  exact ⟨hear.alive n, hear.lastUpdate n hne⟩

theorem keepsRegistries_settle (l : Ledger) (k : CoordinatorRef) (m : NodeRef) (storages : List Announcement) :
    l.KeepsRegistries (l.settle k m storages) :=
  trans_of KeepsRegistries (rel_hear (allowsLife_keepsRegistries k m).hearing l storages)
    (keepsRegistries_revive _ k m)

theorem keepsRegistries_killAll (l : Ledger) (k : CoordinatorRef) (ns : List NodeRef) :
    l.KeepsRegistries (l.killAll k ns) := by
  induction ns generalizing l with
  | nil => exact refl_of KeepsRegistries l
  | cons n ns ih => exact trans_of KeepsRegistries (keepsRegistries_kill l k n) (ih _)

theorem stats_dismiss (l : Ledger) (k : CoordinatorRef) (uuid : String) (m n : NodeRef) :
    ((l.dismiss k uuid m).node n).stats = (l.node n).stats := by
  rw [node_dismiss]
  split <;> rfl

theorem alive_of_dismiss {uuid : String} (h : ((l.dismiss k uuid m).node n).alive = true) :
    (l.node n).alive = true := by
  rw [node_dismiss] at h
  split at h
  · cases h
  · exact h

section check

/-- How long the nodes of a coordinator may be silent before they count as dead. -/
def patience (l : Ledger) (c : CoordinatorRef) : Nat :=
  2 * (l.coordinator c).limits.recheckInterval.toNat + 10 * (l.coordinator c).limits.heartbeatInterval.toNat

/-- A live node of a registry that has been silent for too long. If it was last heard of in the future, it has
not been silent at all. -/
def Overdue (l : Ledger) (c : CoordinatorRef) (now : UInt64) (n : NodeRef) : Prop :=
  n ∈ (l.coordinator c).nodes.values ∧ (l.node n).alive = true ∧
    l.patience c < now.toNat - (l.node n).stats.lastUpdate.toNat

/-- What a check does: it names the nodes that are overdue, each once, and declares them dead; no other node
changes, and no volume and no block does. -/
structure Checked (c : CoordinatorRef) (now : UInt64) (dead : List String) (l l' : Ledger) : Prop where
  nodup : dead.Nodup
  named : ∀ uuid, uuid ∈ dead ↔ ∃ n, (l.coordinator c).nodes.find? uuid = some n ∧ l.Overdue c now n
  killed : ∀ n, l.Overdue c now n → l'.node n = { l.node n with alive := false }
  spared : ∀ n, ¬ l.Overdue c now n → l'.node n = l.node n
  storages : l'.storages = l.storages
  blocks : l'.blocks = l.blocks
  registry : (l'.coordinator c).nodes = (l.coordinator c).nodes

theorem mem_expired_iff {now expiry : UInt64} (hexpiry : expiry.toNat = l.patience c) :
    n ∈ l.expired c now expiry ↔ l.Overdue c now n := by
  unfold expired Overdue
  rw [List.mem_filter, Node.expired_iff, hexpiry]

theorem Enrolled.checked (h : l.Enrolled) {now expiry : UInt64} (hexpiry : expiry.toNat = l.patience c) :
    l.Checked c now ((l.expired c now expiry).map fun n => (l.node n).uuid) (l.killAll c (l.expired c now expiry)) where
  nodup := by
    have hsub := List.Sublist.map (fun n => (l.node n).uuid)
      (List.filter_sublist (p := fun n => (l.node n).expired now expiry) (l := (l.coordinator c).nodes.values))
    rw [h.uuids_eq] at hsub
    exact (h.keys c).sublist hsub
  named uuid := by
    rw [List.mem_map]
    constructor
    · rintro ⟨n, hn, rfl⟩
      have hover := (mem_expired_iff hexpiry).1 hn
      exact ⟨n, h.mem_values_iff.1 hover.1, hover⟩
    · rintro ⟨n, hfind, hover⟩
      exact ⟨n, (mem_expired_iff hexpiry).2 hover, h.uuid c uuid n hfind⟩
  killed n hn := by rw [node_killAll, if_pos ((mem_expired_iff hexpiry).2 hn)]
  spared n hn := by rw [node_killAll, if_neg fun hmem => hn ((mem_expired_iff hexpiry).1 hmem)]
  storages := by rw [killAll_eq]
  blocks := by rw [killAll_eq]
  registry := (keepsRegistries_killAll l c (l.expired c now expiry)).registry c

/-- Whoever is named by a check is dead then. -/
theorem Checked.lost {now : UInt64} {dead : List String} (h : l.Checked c now dead l') {uuid : String}
    (huuid : uuid ∈ dead) {n : NodeRef} (hn : (l'.coordinator c).nodes.find? uuid = some n) :
    (l'.node n).alive = false := by
  obtain ⟨m, hm, hover⟩ := (h.named uuid).1 huuid
  rw [h.registry, hm] at hn
  cases hn
  rw [h.killed _ hover]

/-- Nobody is overdue after a check, for a time that is not later. -/
theorem Checked.not_overdue {now now' : UInt64} {dead : List String} (h : l.Checked c now dead l')
    (hpatience : l'.patience c = l.patience c) (hnow : now' ≤ now) (n : NodeRef) : ¬ l'.Overdue c now' n := by
  rintro ⟨hmem, halive, hlate⟩
  by_cases hover : l.Overdue c now n
  · rw [h.killed n hover] at halive
    cases halive
  · rw [h.spared n hover] at halive hlate
    rw [h.registry] at hmem
    rw [hpatience] at hlate
    have hle : now'.toNat ≤ now.toNat := UInt64.le_iff_toNat_le.1 hnow
    exact hover ⟨hmem, halive, by omega⟩

end check

/-- The node that is entered under a uuid, if there is one, is dead. -/
def Lost (l : Ledger) (c : CoordinatorRef) (uuid : String) : Prop :=
  ∀ n, (l.coordinator c).nodes.find? uuid = some n → (l.node n).alive = false

/-- The node that is entered under a uuid, if there is one, was last heard of at some time. -/
def HeardAt (l : Ledger) (c : CoordinatorRef) (uuid : String) (time : UInt64) : Prop :=
  ∀ n, (l.coordinator c).nodes.find? uuid = some n → (l.node n).stats.lastUpdate = time

end Ledger

namespace Step
variable {s : Service} {c : CoordinatorRef} {uuid : String} {n : NodeRef}

/-- The steps by which a coordinator enters a node under a uuid, or takes it back in. -/
def Registers (c : CoordinatorRef) (uuid : String) : Step → Prop
  | register k r _ => k = c ∧ r.uuid = uuid
  | _ => False

/-- The steps by which others decide whether a node is alive. -/
def Decides (n : NodeRef) : Step → Prop
  | changeNode m (.alive _) => m = n
  | _ => False

/-- The steps by which a node is heard of without registering. -/
def Hears (l : Ledger) (n : NodeRef) : Step → Prop
  | changeNode m (.lastUpdate _) | updateHeartbeat m _ => m = n
  | heartbeat k uuid _ => (l.coordinator k).nodes.find? uuid = some n
  | _ => False

/-- What a step leaves of a node that is entered under a uuid: it was entered before, it has not come to life
unless someone decided so, and it was not heard of unless someone did. -/
structure Leaves (c : CoordinatorRef) (uuid : String) (n : NodeRef) (step : Step) (l l' : Ledger) : Prop where
  found : (l.coordinator c).nodes.find? uuid = some n
  alive : ¬ step.Decides n → (l'.node n).alive = true → (l.node n).alive = true
  lastUpdate : ¬ step.Hears l n → (l'.node n).stats.lastUpdate = (l.node n).stats.lastUpdate

theorem leaves_of_steady {heard : NodeRef → Prop} {step : Step} {l l' : Ledger} (h : l.Steady heard l')
    (hheard : ¬ step.Hears l n → heard n) (hn : (l'.coordinator c).nodes.find? uuid = some n) :
    step.Leaves c uuid n l l' where
  found := h.registry c ▸ hn
  alive _ halive := h.alive n ▸ halive
  lastUpdate hquiet := h.lastUpdate n (hheard hquiet)

private theorem leaves_register (h : s.ledger.Enrolled) (k : CoordinatorRef) (r : Registration)
    (storages : List Announcement) (hreg : ¬ (k = c ∧ r.uuid = uuid))
    (hn : (((register k r storages).after s).ledger.coordinator c).nodes.find? uuid = some n) :
    (register k r storages).Leaves c uuid n s.ledger ((register k r storages).after s).ledger := by
  cases hfind : (s.ledger.coordinator k).nodes.find? r.uuid with
  | none =>
    have hafter := ledger_register_of_none hfind storages
    rw [hafter] at hn ⊢
    rw [(Ledger.keepsRegistries_settle _ k _ storages).registry] at hn
    have hfound := (Ledger.find?_enroll_of_ne hreg).symm.trans hn
    have hold : n.index ≠ s.ledger.nodes.size := Nat.ne_of_lt (h.made c uuid n hfound)
    have hnode : (s.ledger.enroll k r).node n = s.ledger.node n := s.ledger.node_bound_of_ne k r hold
    have hsize : s.ledger.nodes.size < (s.ledger.enroll k r).nodes.size :=
      Nat.lt_of_lt_of_eq (Nat.lt_succ_self _) (s.ledger.size_bound k r).symm
    obtain ⟨halive, hlast⟩ := Ledger.life_settle (k := k) (m := ⟨s.ledger.nodes.size⟩) hsize
      (fun h => hold (congrArg NodeRef.index h)) storages
    rw [hnode] at halive hlast
    exact ⟨hfound, fun _ h => halive ▸ h, fun _ => hlast⟩
  | some m =>
    have hafter := ledger_register_of_some h hfind storages
    have hwelcome : s.ledger.Steady (fun _ => True) (s.ledger.welcome k m r) := Ledger.rel_welcome h hfind
    rw [hafter] at hn ⊢
    rw [(Ledger.keepsRegistries_settle _ k m storages).registry, hwelcome.registry] at hn
    have hne : n ≠ m := by
      rintro rfl
      exact hreg ⟨h.apart k c r.uuid uuid n hfind hn, (h.uuid k r.uuid n hfind).symm.trans (h.uuid c uuid n hn)⟩
    obtain ⟨halive, hlast⟩ := Ledger.life_settle (k := k)
      (Nat.lt_of_lt_of_le (h.made k r.uuid m hfind) hwelcome.size) hne storages
    rw [hwelcome.alive] at halive
    rw [hwelcome.lastUpdate n trivial] at hlast
    exact ⟨hn, fun _ h => halive ▸ h, fun _ => hlast⟩

private theorem leaves_removeNode (hl : s.ledger.Coherent) (h : s.ledger.Enrolled) (k : CoordinatorRef) (id : String)
    (hn : (((removeNode k id).after s).ledger.coordinator c).nodes.find? uuid = some n) :
    (removeNode k id).Leaves c uuid n s.ledger ((removeNode k id).after s).ledger := by
  cases hfind : (s.ledger.coordinator k).nodes.find? id with
  | none =>
    have hafter := after_removeNode_of_none hfind
    rw [hafter] at hn ⊢
    exact ⟨hn, fun _ h => h, fun _ => rfl⟩
  | some m =>
    have hafter := ledger_removeNode_of_some hl h hfind
    have hstrip : s.ledger.Steady (fun _ => True) (s.ledger.strip k m) := Ledger.rel_strip hl h hfind
    rw [hafter] at hn ⊢
    refine ⟨hstrip.registry c ▸ Ledger.find?_of_dismiss hn, fun _ halive => ?_, fun _ => ?_⟩
    · rw [← hstrip.alive n]
      exact Ledger.alive_of_dismiss halive
    · have hstats := congrArg NodeStats.lastUpdate (Ledger.stats_dismiss (s.ledger.strip k m) k id m n)
      exact hstats.trans (hstrip.lastUpdate n trivial)

private theorem leaves_checkHeartbeats (h : s.ledger.Enrolled) (k : CoordinatorRef) (now : UInt64)
    (hn : (((checkHeartbeats k now).after s).ledger.coordinator c).nodes.find? uuid = some n) :
    (checkHeartbeats k now).Leaves c uuid n s.ledger ((checkHeartbeats k now).after s).ledger := by
  cases hexpiry : (s.ledger.coordinator k).limits.expiry with
  | error e =>
    have hafter := after_checkHeartbeats_of_error hexpiry now
    rw [hafter] at hn ⊢
    exact ⟨hn, fun _ h => h, fun _ => rfl⟩
  | ok expiry =>
    have hafter := ledger_checkHeartbeats h hexpiry now
    rw [hafter] at hn ⊢
    refine ⟨(Ledger.keepsRegistries_killAll s.ledger k _).registry c ▸ hn, fun _ halive => ?_, fun _ => ?_⟩
    · rw [Ledger.node_killAll] at halive
      split at halive
      · cases halive
      · exact halive
    · rw [Ledger.node_killAll]
      split <;> rfl

theorem leaves (hl : s.ledger.Coherent) (h : s.ledger.Enrolled) {step : Step} (hstep : step.Enabled s.ledger)
    (hreg : ¬ step.Registers c uuid) (hn : ((step.after s).ledger.coordinator c).nodes.find? uuid = some n) :
    step.Leaves c uuid n s.ledger (step.after s).ledger := by
  by_cases hstirs : step.Stirs
  · cases step with
    | changeNode m change =>
      cases change with
      | alive value =>
        refine ⟨hn, fun hdecides halive => ?_, fun _ => Ledger.node_modifyNode_congr (·.stats.lastUpdate) rfl n⟩
        have hsame : ((changeNode m (.alive value)).after s).ledger.node n = s.ledger.node n :=
          Ledger.node_modifyNode_of_ne (fun hnm : n = m => hdecides hnm.symm) _
        exact hsame ▸ halive
      | lastUpdate millis =>
        have hsteady : s.ledger.Steady (fun x => x ≠ m) ((changeNode m (.lastUpdate millis)).after s).ledger :=
          Ledger.allowsHearing_steady (fun h => h rfl) (Node.idle_of_eq rfl rfl rfl rfl rfl) rfl
        exact leaves_of_steady hsteady (fun hquiet hnm => hquiet hnm.symm) hn
      | _ => exact hstirs.elim
    | changeLock r lock =>
      have hsteady : s.ledger.Steady (fun _ => True) ((changeLock r lock).after s).ledger :=
        Ledger.steady_of_eq rfl rfl
      exact leaves_of_steady hsteady (fun _ => trivial) hn
    | makeCoordinator limits =>
      rcases s.ledger.coordinator_addCoordinator_cases limits c with hsame | hempty
      · exact ⟨(congrArg (fun k => k.nodes.find? uuid) hsame).symm.trans hn, fun _ h => h, fun _ => rfl⟩
      · exact nomatch (congrArg (Table.find? · uuid) hempty).symm.trans hn
    | dropCoordinator k =>
      rcases Ledger.coordinator_modifyCoordinator_cases s.ledger k c ({ · with nodes := {} }) with hsame | ⟨-, hempty⟩
      · exact ⟨(congrArg (fun k => k.nodes.find? uuid) hsame).symm.trans hn, fun _ h => h, fun _ => rfl⟩
      · exact nomatch (congrArg (fun k => k.nodes.find? uuid) hempty).symm.trans hn
    | updateHeartbeat m beat =>
      have hsteady : s.ledger.Steady (fun x => x ≠ m) ((updateHeartbeat m beat).after s).ledger :=
        Request.respects_updateHeartbeat (Ledger.allowsHearing_steady fun h => h rfl) beat s
      exact leaves_of_steady hsteady (fun hquiet hnm => hquiet hnm.symm) hn
    | register k r storages => exact leaves_register h k r storages hreg hn
    | removeNode k id => exact leaves_removeNode hl h k id hn
    | heartbeat k id beat =>
      have hsteady : s.ledger.Steady (fun x => (s.ledger.coordinator k).nodes.find? id ≠ some x)
          ((heartbeat k id beat).after s).ledger :=
        Request.respects_heartbeat k id beat (fun m _ => Request.Slim.calmWork m)
          fun m hm => Ledger.allowsHearing_steady fun h => h hm
      exact leaves_of_steady hsteady (fun hquiet => hquiet) hn
    | checkHeartbeats k now => exact leaves_checkHeartbeats h k now hn
    | _ => exact hstirs.elim
  · have hsteady : s.ledger.Steady (fun _ => True) (step.after s).ledger := step.narrow_after hstirs hstep
    exact leaves_of_steady hsteady (fun _ => trivial) hn

/-- The steps by which the node under a uuid can come back to life: it registers, or others decide so. -/
def Restores (c : CoordinatorRef) (uuid : String) (s : Service) : Step → Prop
  | register k r _ => k = c ∧ r.uuid = uuid
  | changeNode n (.alive _) => (s.ledger.coordinator c).nodes.find? uuid = some n
  | _ => False

/-- The steps by which the node under a uuid is heard of: it registers or sends a heartbeat, or others say so. -/
def Contacts (c : CoordinatorRef) (uuid : String) (s : Service) : Step → Prop
  | register k r _ => k = c ∧ r.uuid = uuid
  | heartbeat k id _ => k = c ∧ id = uuid
  | updateHeartbeat n _ | changeNode n (.lastUpdate _) => (s.ledger.coordinator c).nodes.find? uuid = some n
  | _ => False

/-- The steps by which a coordinator takes in that the node under a uuid is there: it registers, or sends a
heartbeat while it is alive and not turned away. -/
def Accepts (c : CoordinatorRef) (uuid : String) (s : Service) : Step → Prop
  | register k r _ => k = c ∧ r.uuid = uuid
  | heartbeat k id _ => k = c ∧ id = uuid ∧ ∃ n, (s.ledger.coordinator c).nodes.find? uuid = some n ∧
      (s.ledger.node n).disallowed = false ∧ (s.ledger.node n).alive = true
  | _ => False

instance (step : Step) : Decidable (step.Restores c uuid s) := by
  rcases step
  case changeNode _ change => rcases change <;> unfold Restores <;> infer_instance
  all_goals unfold Restores; infer_instance

instance (step : Step) : Decidable (step.Contacts c uuid s) := by
  rcases step
  case changeNode _ change => rcases change <;> unfold Contacts <;> infer_instance
  all_goals unfold Contacts; infer_instance

theorem lost_after (hl : s.ledger.Coherent) (h : s.ledger.Enrolled) {step : Step} (hstep : step.Enabled s.ledger)
    (hnot : ¬ step.Restores c uuid s) (hlost : s.ledger.Lost c uuid) : (step.after s).ledger.Lost c uuid := by
  intro n hn
  have hreg : ¬ step.Registers c uuid := by
    cases step with
    | register k r storages => exact hnot
    | _ => exact id
  have hleaves := leaves hl h hstep hreg hn
  have hdecides : ¬ step.Decides n := by
    cases step with
    | changeNode m change =>
      cases change with
      | alive value =>
        rintro rfl
        exact hnot hleaves.found
      | _ => exact id
    | _ => exact id
  have hdead := hlost n hleaves.found
  cases halive : ((step.after s).ledger.node n).alive with
  | false => rfl
  | true => exact (hleaves.alive hdecides halive).symm.trans hdead

theorem heardAt_after {time : UInt64} (hl : s.ledger.Coherent) (h : s.ledger.Enrolled) {step : Step}
    (hstep : step.Enabled s.ledger) (hnot : ¬ step.Contacts c uuid s) (hheard : s.ledger.HeardAt c uuid time) :
    (step.after s).ledger.HeardAt c uuid time := by
  intro n hn
  have hreg : ¬ step.Registers c uuid := by
    cases step with
    | register k r storages => exact hnot
    | _ => exact id
  have hleaves := leaves hl h hstep hreg hn
  have hquiet : ¬ step.Hears s.ledger n := by
    cases step with
    | changeNode m change =>
      cases change with
      | lastUpdate millis =>
        rintro rfl
        exact hnot hleaves.found
      | _ => exact id
    | updateHeartbeat m beat =>
      rintro rfl
      exact hnot hleaves.found
    | heartbeat k id beat =>
      intro hfind
      refine hnot ⟨h.apart k c id uuid n hfind hleaves.found, ?_⟩
      exact (h.uuid k id n hfind).symm.trans (h.uuid c uuid n hleaves.found)
    | _ => exact id
  exact (hleaves.lastUpdate hquiet).trans (hheard n hleaves.found)

/-- Whoever is taken in has been heard of at that time. -/
theorem heardAt_of_accepts (h : s.ledger.Enrolled) (hc : c.index < s.ledger.coordinators.size) {step : Step}
    (haccepts : step.Accepts c uuid s) : (step.after s).ledger.HeardAt c uuid s.ledger.now := by
  intro n hn
  cases step with
  | register k r storages =>
    obtain ⟨rfl, rfl⟩ := haccepts
    cases hfind : (s.ledger.coordinator k).nodes.find? r.uuid with
    | none =>
      have hafter := ledger_register_of_none hfind storages
      have hsize : s.ledger.nodes.size < (s.ledger.enroll k r).nodes.size :=
        Nat.lt_of_lt_of_eq (Nat.lt_succ_self _) (s.ledger.size_bound k r).symm
      rw [hafter, (Ledger.keepsRegistries_settle _ k _ storages).registry, Ledger.find?_enroll_self hc r] at hn
      cases hn
      rw [hafter]
      exact Ledger.lastUpdate_settle hsize storages
    | some m =>
      have hafter := ledger_register_of_some h hfind storages
      have hwelcome : s.ledger.KeepsRegistries (s.ledger.welcome k m r) := Ledger.rel_welcome h hfind
      have hclock : s.ledger.SameClock (s.ledger.welcome k m r) := Ledger.rel_welcome h hfind
      rw [hafter, (Ledger.keepsRegistries_settle _ k _ storages).registry, hwelcome.registry, hfind] at hn
      cases hn
      rw [hafter, ← hclock.now]
      exact Ledger.lastUpdate_settle (Nat.lt_of_lt_of_le (h.made k r.uuid n hfind) hwelcome.size) storages
  | heartbeat k id beat =>
    obtain ⟨rfl, rfl, m, hfind, hallowed, halive⟩ := haccepts
    have hmade := h.made k id m hfind
    obtain ⟨journal, he⟩ := Request.exec_heartbeat_of_live hfind hmade hallowed halive beat
    have hafter : ((heartbeat k id beat).after s).ledger = s.ledger.beat k m beat := congrArg (fun x => x.2.ledger) he
    have hkeeps : s.ledger.KeepsRegistries ((heartbeat k id beat).after s).ledger :=
      Request.respects_heartbeat k id beat (fun n _ => Request.Slim.calmWork n) fun n _ =>
        (Ledger.allowsLife_keepsRegistries k n).hearing
    rw [hkeeps.registry, hfind] at hn
    cases hn
    rw [hafter, Ledger.node_beat hmade, Node.serve_stats]
    rfl
  | _ => exact haccepts.elim

end Step

namespace Service
variable {s : Service} {c : CoordinatorRef} {uuid : String}

/-- A check of the node under a uuid ends well, does not name it and leaves it as it is. -/
def Spares (c : CoordinatorRef) (uuid : String) (now : UInt64) (s : Service) : Prop :=
  ∃ dead s', (Request.checkHeartbeats c now).exec s = (.ok dead, s') ∧ uuid ∉ dead ∧
    ∀ n, (s.ledger.coordinator c).nodes.find? uuid = some n → s'.ledger.node n = s.ledger.node n

/-- If a uuid is registered and not turned away, its heartbeats are answered with the order to register, and
change no node and no volume. -/
def ToldToRegister (c : CoordinatorRef) (uuid : String) (s : Service) : Prop :=
  ∀ n, (s.ledger.coordinator c).nodes.find? uuid = some n → (s.ledger.node n).disallowed = false →
    ∀ h, ∃ s', (Request.heartbeat c uuid h).exec s = (.ok (.ok [.register]), s') ∧
      s'.ledger.nodes = s.ledger.nodes ∧ s'.ledger.storages = s.ledger.storages

/-- What a check comes to. -/
theorem exec_check (hs : Reachable s) (hpatience : s.ledger.patience c < UInt64.size) (now : UInt64) :
    ∃ dead s', (Request.checkHeartbeats c now).exec s = (.ok dead, s') ∧ s.ledger.Checked c now dead s'.ledger := by
  obtain ⟨expiry, hexpiry, hnat⟩ := Limits.expiry_of_lt hpatience
  obtain ⟨journal, he⟩ := Request.exec_checkHeartbeats hs.enrolled hexpiry now
  exact ⟨_, _, he, hs.enrolled.checked hnat⟩

theorem exec_check_of_nobody (hs : Reachable s) (hpatience : s.ledger.patience c < UInt64.size) {now : UInt64}
    (h : ∀ n, ¬ s.ledger.Overdue c now n) :
    ∃ journal, (Request.checkHeartbeats c now).exec s = (.ok [], ⟨s.ledger, journal⟩) := by
  obtain ⟨expiry, hexpiry, hnat⟩ := Limits.expiry_of_lt hpatience
  obtain ⟨journal, he⟩ := Request.exec_checkHeartbeats hs.enrolled hexpiry now
  have hnobody : s.ledger.expired c now expiry = [] :=
    List.eq_nil_iff_forall_not_mem.2 fun n hn => h n ((Ledger.mem_expired_iff hnat).1 hn)
  rw [hnobody] at he
  exact ⟨journal, he⟩

theorem spares_of_not_overdue (hs : Reachable s) (hpatience : s.ledger.patience c < UInt64.size) {now : UInt64}
    (h : ∀ n, (s.ledger.coordinator c).nodes.find? uuid = some n → ¬ s.ledger.Overdue c now n) :
    s.Spares c uuid now := by
  obtain ⟨dead, s', he, hchecked⟩ := exec_check hs hpatience now
  refine ⟨dead, s', he, fun huuid => ?_, fun n hn => hchecked.spared n (h n hn)⟩
  obtain ⟨n, hn, hover⟩ := (hchecked.named uuid).1 huuid
  exact h n hn hover

theorem spares_of_lost (hs : Reachable s) (hpatience : s.ledger.patience c < UInt64.size)
    (h : s.ledger.Lost c uuid) (now : UInt64) : s.Spares c uuid now := by
  refine spares_of_not_overdue hs hpatience fun n hn hover => ?_
  have hdead := hover.2.1
  rw [h n hn] at hdead
  cases hdead

theorem toldToRegister_of_lost (h : s.ledger.Lost c uuid) : s.ToldToRegister c uuid := by
  intro n hn hallowed beat
  have hcount := s.ledger.count_eq c [(.heartbeatsTotal, 1)]
  refine ⟨_, Request.exec_heartbeat_of_dead hn hallowed (h n hn) beat, ?_, ?_⟩
  · rw [hcount]
  · rw [hcount]

theorem spares_of_heardAt (hs : Reachable s) (hpatience : s.ledger.patience c < UInt64.size) {time now : UInt64}
    (h : s.ledger.HeardAt c uuid time) (hnow : now.toNat ≤ time.toNat + s.ledger.patience c) :
    s.Spares c uuid now := by
  refine spares_of_not_overdue hs hpatience fun n hn hover => ?_
  have hlate := hover.2.2
  rw [h n hn] at hlate
  omega

/-- A coordinator that is there keeps its patience. -/
theorem patience_run {steps : List Step} (hc : c.index < s.ledger.coordinators.size) (hsteps : s.Legal steps) :
    (s.run steps).ledger.patience c = s.ledger.patience c := by
  induction steps generalizing s with
  | nil => rfl
  | cons step steps ih =>
    have hterms := step.keepsTerms_after hsteps.1
    have hpatience : (step.after s).ledger.patience c = s.ledger.patience c := by
      unfold Ledger.patience
      rw [hterms.limits c hc]
    exact (ih (Nat.lt_of_lt_of_le hc hterms.size) hsteps.2).trans hpatience

/-- Whoever is dead stays so as long as nothing brings it back. -/
theorem lost_run (hs : Reachable s) (h : s.ledger.Lost c uuid) {steps : List Step} (hsteps : s.Legal steps)
    (hnever : s.Never (fun s step => step.Restores c uuid s) steps) : (s.run steps).ledger.Lost c uuid := by
  induction steps generalizing s with
  | nil => exact h
  | cons step steps ih =>
    have hafter := Step.lost_after hs.coherent hs.enrolled hsteps.1 hnever.1 h
    exact ih (hs.step hsteps.1) hafter hsteps.2 hnever.2

/-- Nobody is heard of without a sign of it. -/
theorem heardAt_run {time : UInt64} (hs : Reachable s) (h : s.ledger.HeardAt c uuid time) {steps : List Step}
    (hsteps : s.Legal steps) (hnever : s.Never (fun s step => step.Contacts c uuid s) steps) :
    (s.run steps).ledger.HeardAt c uuid time := by
  induction steps generalizing s with
  | nil => exact h
  | cons step steps ih =>
    have hafter := Step.heardAt_after hs.coherent hs.enrolled hsteps.1 hnever.1 h
    exact ih (hs.step hsteps.1) hafter hsteps.2 hnever.2

end Service

/-- The life of the nodes of a coordinator whose expiry interval is a word.

A check declares dead and names the live nodes that have been silent for longer than that, and no others. A second
check right after it, for a time that is not later, finds nobody. Whoever has been named is told to register by
every answer, and is not named again, until it registers or others decide that it is alive.

Whoever registers, or whose heartbeat is taken in while it is alive, is not declared dead by a check for a time up
to the expiry interval later, until it registers, sends a heartbeat or others set when it was last heard of. -/
theorem liveness_protocol {s : Service} (hs : Reachable s) {c : CoordinatorRef}
    (hc : c.index < s.ledger.coordinators.size) (hpatience : s.ledger.patience c < UInt64.size) :
    (∀ now, ∃ dead checked, (Request.checkHeartbeats c now).exec s = (.ok dead, checked) ∧
      s.ledger.Checked c now dead checked.ledger ∧
      (∀ now' ≤ now, ∃ journal, (Request.checkHeartbeats c now').exec checked =
        (.ok [], ⟨checked.ledger, journal⟩)) ∧
      ∀ uuid ∈ dead, ∀ steps, checked.Legal steps → checked.Never (fun s step => step.Restores c uuid s) steps →
        (checked.run steps).ToldToRegister c uuid ∧ ∀ now', (checked.run steps).Spares c uuid now') ∧
    ∀ uuid (step : Step), step.Accepts c uuid s → ∀ steps, s.Legal (step :: steps) →
      (step.after s).Never (fun s step => step.Contacts c uuid s) steps →
      ∀ now : UInt64, now.toNat ≤ s.ledger.now.toNat + s.ledger.patience c →
        (s.run (step :: steps)).Spares c uuid now := by
  refine ⟨fun now => ?_, fun uuid step haccepts steps hsteps hnever now hnow => ?_⟩
  · obtain ⟨dead, checked, he, hchecked⟩ := Service.exec_check hs hpatience now
    have hafter : (Step.checkHeartbeats c now).after s = checked := congrArg Prod.snd he
    have henabled : (Step.checkHeartbeats c now).Enabled s.ledger := trivial
    have hreach : Reachable checked := hafter ▸ hs.step henabled
    have hlegal : s.Legal [.checkHeartbeats c now] := ⟨henabled, trivial⟩
    have hsame : (s.run [.checkHeartbeats c now]).ledger.patience c = s.ledger.patience c :=
      Service.patience_run hc hlegal
    rw [Service.run, Service.run, hafter] at hsame
    have hc' : c.index < checked.ledger.coordinators.size :=
      hafter ▸ Nat.lt_of_lt_of_le hc (Step.keepsTerms_after (.checkHeartbeats c now) henabled).size
    refine ⟨dead, checked, he, hchecked, fun now' hnow => ?_, fun uuid huuid steps hsteps hnever => ?_⟩
    · exact Service.exec_check_of_nobody hreach (hsame ▸ hpatience) (hchecked.not_overdue hsame hnow)
    · have hlost := Service.lost_run hreach (fun n hn => hchecked.lost huuid hn) hsteps hnever
      have hkept := (Service.patience_run hc' hsteps).trans hsame
      exact ⟨Service.toldToRegister_of_lost hlost,
        Service.spares_of_lost (hreach.run hsteps) (hkept ▸ hpatience) hlost⟩
  · have hrun := hs.run hsteps
    have hsame := Service.patience_run hc hsteps
    have hheard := Service.heardAt_run (hs.step hsteps.1) (Step.heardAt_of_accepts hs.enrolled hc haccepts)
      hsteps.2 hnever
    exact Service.spares_of_heardAt hrun (hsame ▸ hpatience) hheard (hsame ▸ hnow)

/-- A node registers at a time of a thousand. -/
def enlisting : List Step :=
  [.makeCoordinator {}, .setClock 1000, .register ⟨0⟩ (.ofAddress "a" "10.0.0.1" 9866) [{ id := "A" }]]

/-- Its heartbeat is good for another ten and a half minutes; a millisecond later it is declared dead, and stays so. -/
theorem liveness_protocol_of_one_node :
    let s := ({} : Service).run enlisting
    let checked := (Step.checkHeartbeats ⟨0⟩ 631001).after s
    ((Request.checkHeartbeats ⟨0⟩ 631001).exec s).1.toOption = some ["a"] ∧
    (checked.run [.setClock 0]).ToldToRegister ⟨0⟩ "a" ∧ (checked.run [.setClock 0]).Spares ⟨0⟩ "a" 900000 ∧
    (s.run [.heartbeat ⟨0⟩ "a" {}, .setClock 0]).Spares ⟨0⟩ "a" 631000 := by
  intro s checked
  have hlegal : ({} : Service).Legal enlisting := by decide +kernel
  have h := @liveness_protocol s ((Reachable.start 0).run hlegal) ⟨0⟩ (by decide +kernel) (by decide +kernel)
  have hdead : ((Request.checkHeartbeats ⟨0⟩ 631001).exec s).1.toOption = some ["a"] := by decide +kernel
  obtain ⟨dead, checked', he, -, -, hlost⟩ := h.1 631001
  have hnamed : "a" ∈ dead := by
    rw [he] at hdead
    rw [Option.some.inj hdead]
    exact List.mem_singleton_self _
  have hchecked : checked = checked' := congrArg Prod.snd he
  obtain ⟨htold, hspares⟩ := hlost "a" hnamed [.setClock 0] ⟨trivial, trivial⟩ ⟨id, trivial⟩
  rw [← hchecked] at htold hspares
  exact ⟨hdead, htold, hspares 900000, h.2 "a" (.heartbeat ⟨0⟩ "a" {})
    ⟨rfl, rfl, ⟨0⟩, by decide +kernel, by decide +kernel, by decide +kernel⟩ [.setClock 0]
    ⟨trivial, trivial, trivial⟩ ⟨id, trivial⟩ 631000 (by decide +kernel)⟩

end DatanodeLedger
