import DatanodeLedger.Proofs.Registry.Outcomes

/-! What a heartbeat comes to, in closed form: what is taken in from it, and what goes out in the answer. -/
namespace DatanodeLedger

namespace Node

/-- Whether a report is about a volume of the node. -/
def knows (node : Node) (r : StorageReport) : Bool := (node.storages.find? r.storage.id).isSome

/-- The node after a heartbeat has been taken in. -/
def receive (node : Node) (now : UInt64) (h : Heartbeat) : Node :=
  { node with
    volumeFailures := h.volumeFailures
    stats := { (h.reports.filter node.knows).foldl NodeStats.add {} with
      cacheCapacity := h.cacheCapacity, cacheUsed := h.cacheUsed, transfers := h.transfers, lastUpdate := now } }

/-- What goes out to a live node, what of that is counted, and the node after that. -/
def serve (node : Node) (limits : Limits) : List Command × List (Counter × UInt64) × Node :=
  match node.pollRecoveries limits.maxRecoveryStreams.toNat with
  | (some blocks, node) => ([.recover blocks], [(.blocksToRecoverDispatched, UInt64.ofNat blocks.length)], node)
  | (none, node) =>
    let (transfers, node) := node.pollTransfers limits.maxReplicationStreams.toNat
    let (blocks, node) := node.drainInvalidations limits.blockInvalidateLimit.toNat
    let (bandwidth, node) := node.takeBandwidth
    let (keyUpdate, node) := node.takeKeyUpdate
    ((transfers.map Command.replicate).toList ++ (blocks.map Command.invalidate).toList
        ++ (bandwidth.map Command.balancerBandwidth).toList ++ (if keyUpdate then [.keyUpdate] else []),
      (transfers.map fun batch => (Counter.blocksToReplicateDispatched, UInt64.ofNat batch.length)).toList
        ++ (blocks.map fun batch => (Counter.blocksToInvalidateDispatched, UInt64.ofNat batch.length)).toList,
      node)

section serve
variable {node : Node} {limits : Limits}

/-- Where recoveries are handed out, nothing else is. -/
theorem serve_of_some {blocks : List OpenRef}
    (h : (node.recoveries.poll limits.maxRecoveryStreams.toNat).1 = some blocks) :
    node.serve limits = ([.recover blocks], [(.blocksToRecoverDispatched, UInt64.ofNat blocks.length)],
      { node with recoveries := (node.recoveries.poll limits.maxRecoveryStreams.toNat).2 }) := by
  unfold serve pollRecoveries
  cases hpoll : node.recoveries.poll limits.maxRecoveryStreams.toNat with
  | mk batch recoveries =>
    rw [hpoll] at h
    cases h
    rfl

/-- Where none are, everything else that waits goes out, within the limits. -/
theorem serve_of_none (h : (node.recoveries.poll limits.maxRecoveryStreams.toNat).1 = none) :
    (node.serve limits).1 =
        ((node.transfers.poll limits.maxReplicationStreams.toNat).1.map Command.replicate).toList
          ++ ((node.invalidations.drain limits.blockInvalidateLimit.toNat).1.map Command.invalidate).toList
          ++ (node.takeBandwidth.1.map Command.balancerBandwidth).toList
          ++ (if node.keyUpdate then [.keyUpdate] else []) ∧
      (node.serve limits).2.2 = { node with
        transfers := (node.transfers.poll limits.maxReplicationStreams.toNat).2
        invalidations := (node.invalidations.drain limits.blockInvalidateLimit.toNat).2
        bandwidth := 0
        keyUpdate := false } := by
  have hkept := Work.Queue.poll_of_none h
  unfold serve pollRecoveries
  cases hpoll : node.recoveries.poll limits.maxRecoveryStreams.toNat with
  | mk batch recoveries =>
    rw [hpoll] at h hkept
    cases h
    cases hkept
    exact ⟨rfl, rfl⟩

/-- What is left of a node that is answered. -/
theorem serve_cases (node : Node) (limits : Limits) :
    (node.serve limits).2.2 = { node with
        recoveries := (node.recoveries.poll limits.maxRecoveryStreams.toNat).2 } ∨
      (node.serve limits).2.2 = { node with
        transfers := (node.transfers.poll limits.maxReplicationStreams.toNat).2
        invalidations := (node.invalidations.drain limits.blockInvalidateLimit.toNat).2
        bandwidth := 0
        keyUpdate := false } := by
  cases hpoll : (node.recoveries.poll limits.maxRecoveryStreams.toNat).1 with
  | some blocks =>
    rw [serve_of_some hpoll]
    exact .inl rfl
  | none => exact .inr (serve_of_none hpoll).2

/-- Whether a node is alive and allowed, and how far its decommission is, does not change when it is answered. -/
theorem serve_life : (node.serve limits).2.2.alive = node.alive ∧
    (node.serve limits).2.2.disallowed = node.disallowed ∧
    (node.serve limits).2.2.decommission = node.decommission := by
  rcases serve_cases node limits with h | h
  · rw [h]
    exact ⟨rfl, rfl, rfl⟩
  · rw [h]
    exact ⟨rfl, rfl, rfl⟩

end serve

end Node

namespace Ledger
variable {l : Ledger} {c : CoordinatorRef} {n : NodeRef}

def setNode (l : Ledger) (n : NodeRef) (node : Node) : Ledger := l.modifyNode n fun _ => node

/-- The ledger after some counters of a coordinator have risen. -/
def count (l : Ledger) (c : CoordinatorRef) (counts : List (Counter × UInt64)) : Ledger :=
  counts.foldl (fun l p => l.modifyCoordinator c fun k => { k with metrics := k.metrics.add p.1 p.2 }) l

/-- The ledger after a report has been folded into the record of its volume, if the node has that volume. -/
def takeReport (n : NodeRef) (now : UInt64) (l : Ledger) (r : StorageReport) : Ledger :=
  match l.storageOf? n r.storage.id with
  | some v => l.modifyStorage v fun storage => storage.receiveHeartbeat r now
  | none => l

def takeReports (l : Ledger) (n : NodeRef) (now : UInt64) (reports : List StorageReport) : Ledger :=
  reports.foldl (takeReport n now) l

/-- The ledger after a heartbeat of a live node. -/
def beat (l : Ledger) (c : CoordinatorRef) (n : NodeRef) (h : Heartbeat) : Ledger :=
  let served := ((l.node n).receive l.now h).serve (l.coordinator c).limits
  (((l.takeReports n l.now h.reports).setNode n served.2.2).count c
    ((.heartbeatsTotal, 1) ::
      (.unknownStorageReports, UInt64.ofNat (h.reports.countP fun r => !(l.node n).knows r)) :: served.2.1))

/-- The ledger after a heartbeat of a live node has been taken in, and before the node is answered. -/
def hearBeat (l : Ledger) (c : CoordinatorRef) (n : NodeRef) (h : Heartbeat) : Ledger :=
  ((l.takeReports n l.now h.reports).setNode n ((l.node n).receive l.now h)).count c
    [(.heartbeatsTotal, 1), (.unknownStorageReports, UInt64.ofNat (h.reports.countP fun r => !(l.node n).knows r))]

theorem not_knows (l : Ledger) (n : NodeRef) (r : StorageReport) :
    (!(l.node n).knows r) = (l.storageOf? n r.storage.id).isNone :=
  Option.not_isSome _

theorem node_setNode (hn : n.index < l.nodes.size) (node : Node) : (l.setNode n node).node n = node :=
  node_modifyNode hn _

/-- Two changes in one place are one change. -/
theorem modify_modify {α : Type} (as : Array α) (i : Nat) (f g : α → α) :
    (as.modify i f).modify i g = as.modify i (g ∘ f) := by
  apply Array.ext'
  simp only [Array.toList_modify, List.modify_modify_eq]

theorem modify_id {α : Type} (as : Array α) (i : Nat) : as.modify i id = as := by
  apply Array.ext'
  rw [Array.toList_modify, List.modify_id]

theorem setNode_setNode (l : Ledger) (n : NodeRef) (node node' : Node) :
    (l.setNode n node).setNode n node' = l.setNode n node' :=
  congrArg (fun nodes => { l with nodes }) (modify_modify l.nodes n.index (fun _ => node) fun _ => node')

theorem count_setNode (l : Ledger) (c : CoordinatorRef) (counts : List (Counter × UInt64)) (n : NodeRef)
    (node : Node) : (l.count c counts).setNode n node = (l.setNode n node).count c counts := by
  induction counts generalizing l with
  | nil => rfl
  | cons p counts ih => exact ih _

/-- Counting has to do with coordinators only. -/
theorem count_eq (l : Ledger) (c : CoordinatorRef) (counts : List (Counter × UInt64)) :
    l.count c counts = { l with coordinators := (l.count c counts).coordinators } := by
  induction counts generalizing l with
  | nil => rfl
  | cons p counts ih => exact ih _

theorem node_count (l : Ledger) (c : CoordinatorRef) (counts : List (Counter × UInt64)) (n : NodeRef) :
    (l.count c counts).node n = l.node n := by
  rw [count_eq]
  rfl

theorem limits_count (l : Ledger) (c : CoordinatorRef) (counts : List (Counter × UInt64)) (k : CoordinatorRef) :
    ((l.count c counts).coordinator k).limits = (l.coordinator k).limits := by
  induction counts generalizing l with
  | nil => rfl
  | cons p counts ih => exact (ih _).trans (coordinator_modifyCoordinator_congr Coordinator.limits rfl k)

theorem count_append (l : Ledger) (c : CoordinatorRef) (counts counts' : List (Counter × UInt64)) :
    l.count c (counts ++ counts') = (l.count c counts).count c counts' := List.foldl_append

theorem modifyNode_eq_setNode (l : Ledger) (n : NodeRef) (f : Node → Node) :
    l.modifyNode n f = l.setNode n (f (l.node n)) :=
  modifyNode_congr rfl

/-- Taking reports in has to do with volumes only. -/
theorem takeReports_eq (l : Ledger) (n : NodeRef) (now : UInt64) (reports : List StorageReport) :
    l.takeReports n now reports = { l with storages := (l.takeReports n now reports).storages } := by
  induction reports generalizing l with
  | nil => rfl
  | cons r reports ih =>
    have hcons : l.takeReports n now (r :: reports) = (takeReport n now l r).takeReports n now reports := rfl
    have hone : takeReport n now l r = { l with storages := (takeReport n now l r).storages } := by
      unfold takeReport
      split <;> rfl
    rw [hcons, ih, hone]

theorem node_takeReports (l : Ledger) (n : NodeRef) (now : UInt64) (reports : List StorageReport) (m : NodeRef) :
    (l.takeReports n now reports).node m = l.node m := by
  rw [takeReports_eq]
  rfl

/-- What a node has besides its volumes does not matter to its reports. -/
theorem takeReports_setNode (l : Ledger) (n : NodeRef) (node : Node) (hnode : node.storages = (l.node n).storages)
    (now : UInt64) (reports : List StorageReport) :
    (l.setNode n node).takeReports n now reports = (l.takeReports n now reports).setNode n node := by
  induction reports generalizing l with
  | nil => rfl
  | cons r reports ih =>
    have hone : takeReport n now (l.setNode n node) r = (takeReport n now l r).setNode n node := by
      have hsame : (l.setNode n node).storageOf? n r.storage.id = l.storageOf? n r.storage.id :=
        congrArg (·.find? r.storage.id) (node_modifyNode_congr Node.storages hnode n)
      unfold takeReport
      rw [hsame]
      split <;> rfl
    have hkeeps : ((takeReport n now l r).node n).storages = (l.node n).storages := by
      unfold takeReport
      split <;> rfl
    have hcons : (l.setNode n node).takeReports n now (r :: reports) =
        (takeReport n now (l.setNode n node) r).takeReports n now reports := rfl
    rw [hcons, hone, ih _ (hnode.trans hkeeps.symm)]
    rfl

theorem modifyStorage_count (l : Ledger) (c : CoordinatorRef) (counts : List (Counter × UInt64)) (v : StorageRef)
    (f : Storage → Storage) : (l.count c counts).modifyStorage v f = (l.modifyStorage v f).count c counts := by
  induction counts generalizing l with
  | nil => rfl
  | cons p counts ih => exact ih _

theorem takeReports_count (l : Ledger) (c : CoordinatorRef) (counts : List (Counter × UInt64)) (n : NodeRef)
    (now : UInt64) (reports : List StorageReport) :
    (l.count c counts).takeReports n now reports = (l.takeReports n now reports).count c counts := by
  induction reports generalizing l with
  | nil => rfl
  | cons r reports ih =>
    have hone : takeReport n now (l.count c counts) r = (takeReport n now l r).count c counts := by
      have hsame : (l.count c counts).storageOf? n r.storage.id = l.storageOf? n r.storage.id :=
        congrArg (fun node => node.storages.find? r.storage.id) (node_count l c counts n)
      unfold takeReport
      rw [hsame]
      split
      · exact modifyStorage_count l c counts _ _
      · rfl
    exact (congrArg (fun l => l.takeReports n now reports) hone).trans (ih _)

/-- A heartbeat that has been taken in has changed nodes, volumes and counters at most, -/
theorem size_nodes_hearBeat (l : Ledger) (c : CoordinatorRef) (n : NodeRef) (h : Heartbeat) :
    (l.hearBeat c n h).nodes.size = l.nodes.size := by
  refine Array.size_modify.trans ?_
  rw [takeReports_eq]

theorem limits_hearBeat (l : Ledger) (c : CoordinatorRef) (n : NodeRef) (h : Heartbeat) (k : CoordinatorRef) :
    ((l.hearBeat c n h).coordinator k).limits = (l.coordinator k).limits := by
  unfold hearBeat
  rw [limits_count]
  unfold setNode coordinator
  rw [takeReports_eq]
  rfl

theorem node_hearBeat (hn : n.index < l.nodes.size) (c : CoordinatorRef) (h : Heartbeat) :
    (l.hearBeat c n h).node n = (l.node n).receive l.now h := by
  unfold hearBeat
  rw [node_count, node_setNode]
  rw [takeReports_eq]
  exact hn

/-- and the answer only takes from the node, and is counted. -/
theorem beat_eq (l : Ledger) (c : CoordinatorRef) (n : NodeRef) (h : Heartbeat) :
    let served := ((l.node n).receive l.now h).serve (l.coordinator c).limits
    ((l.hearBeat c n h).setNode n served.2.2).count c served.2.1 = l.beat c n h := by
  intro served
  unfold hearBeat
  rw [count_setNode, setNode_setNode, ← count_append]
  rfl

/-- The node as a heartbeat leaves it. -/
theorem node_beat (hn : n.index < l.nodes.size) (c : CoordinatorRef) (h : Heartbeat) :
    (l.beat c n h).node n = (((l.node n).receive l.now h).serve (l.coordinator c).limits).2.2 := by
  unfold beat
  rw [node_count, node_setNode]
  rw [takeReports_eq]
  exact hn

end Ledger

namespace Request
variable {s : Service} {c : CoordinatorRef} {n : NodeRef} {uuid : String}

private theorem exec_receiveReports (n : NodeRef) (now : UInt64) (reports : List StorageReport)
    (sums : NodeStats × Nat) (s : Service) :
    ∃ journal, (reports.foldlM (receiveReport n now) sums).exec s =
      (.ok ((reports.filter (s.ledger.node n).knows).foldl NodeStats.add sums.1,
          sums.2 + reports.countP fun r => !(s.ledger.node n).knows r),
        ⟨s.ledger.takeReports n now reports, journal⟩) := by
  induction reports generalizing s sums with
  | nil => exact ⟨s.journal, rfl⟩
  | cons r reports ih =>
    rw [List.foldlM_cons, exec_bind]
    unfold receiveReport
    rw [exec_bind_ok (exec_ledger _)]
    cases hfind : s.ledger.storageOf? n r.storage.id with
    | some v =>
      have hknows : (s.ledger.node n).knows r = true := by
        unfold Node.knows
        exact congrArg Option.isSome hfind
      have htake : s.ledger.takeReports n now (r :: reports) = (s.ledger.modifyStorage v fun storage =>
          storage.receiveHeartbeat r now).takeReports n now reports := by
        unfold Ledger.takeReports
        rw [List.foldl_cons, Ledger.takeReport, hfind]
      obtain ⟨journal, he⟩ := ih (sums.1.add r, sums.2)
        ⟨s.ledger.modifyStorage v fun storage => storage.receiveHeartbeat r now, s.journal⟩
      refine ⟨journal, ?_⟩
      rw [htake, List.filter_cons, hknows, List.countP_cons, hknows]
      exact he
    | none =>
      have hknows : (s.ledger.node n).knows r = false := by
        unfold Node.knows
        exact congrArg Option.isSome hfind
      have htake : s.ledger.takeReports n now (r :: reports) = s.ledger.takeReports n now reports := by
        unfold Ledger.takeReports
        rw [List.foldl_cons, Ledger.takeReport, hfind]
      obtain ⟨journal, he⟩ := ih (sums.1, sums.2 + 1)
        ⟨s.ledger, .unrecognizedStorage r.storage.id (s.ledger.node n).uuid :: s.journal⟩
      refine ⟨journal, ?_⟩
      rw [htake, List.filter_cons, hknows, List.countP_cons, hknows, ← Nat.add_assoc, Nat.add_right_comm]
      exact he

theorem exec_updateHeartbeat (hn : n.index < s.ledger.nodes.size) (h : Heartbeat) :
    ∃ journal, (updateHeartbeat n h).exec s = (.ok (h.reports.countP fun r => !(s.ledger.node n).knows r),
      ⟨(s.ledger.takeReports n s.ledger.now h.reports).setNode n ((s.ledger.node n).receive s.ledger.now h),
        journal⟩) := by
  let failing : Node := { s.ledger.node n with volumeFailures := h.volumeFailures }
  have hfailing : (s.ledger.setNode n failing).node n = failing := Ledger.node_setNode hn failing
  obtain ⟨journal, he⟩ := exec_receiveReports n s.ledger.now h.reports ({}, 0) ⟨s.ledger.setNode n failing, s.journal⟩
  refine ⟨journal, ?_⟩
  have hmodify : s.ledger.modifyNode n (fun node => { node with volumeFailures := h.volumeFailures }) =
      s.ledger.setNode n failing := Ledger.modifyNode_eq_setNode s.ledger n _
  have htake : (s.ledger.setNode n failing).takeReports n s.ledger.now h.reports =
      (s.ledger.takeReports n s.ledger.now h.reports).setNode n failing :=
    Ledger.takeReports_setNode s.ledger n failing rfl _ _
  simp only [hfailing, htake] at he
  have hlast : ((s.ledger.takeReports n s.ledger.now h.reports).setNode n failing).node n = failing := by
    refine Ledger.node_setNode ?_ failing
    rw [Ledger.takeReports_eq]
    exact hn
  unfold updateHeartbeat
  rw [exec_bind_ok (exec_ledger _)]
  simp only
  rw [exec_bind_ok (exec_modifyNode ..)]
  rw [hmodify, exec_bind_ok he]
  simp only
  rw [exec_bind_ok (exec_modifyNode ..)]
  simp only
  rw [Ledger.modifyNode_eq_setNode, hlast, Ledger.setNode_setNode, Nat.zero_add]
  rfl

theorem exec_takeFrom_eq {α : Type} (n : NodeRef) (f : Node → α × Node) (s : Service) :
    (takeFrom n f).exec s = (.ok (f (s.ledger.node n)).1,
      { s with ledger := s.ledger.setNode n (f (s.ledger.node n)).2 }) := rfl

theorem exec_dispatched (c : CoordinatorRef) (counter : Counter) (count : Nat) (s : Service) :
    (dispatched c counter count).exec s = (.ok ⟨⟩,
      { s with ledger := s.ledger.count c [(counter, UInt64.ofNat count)] }) := rfl

theorem exec_commands_of_made (hn : n.index < s.ledger.nodes.size) (c : CoordinatorRef) :
    let served := (s.ledger.node n).serve (s.ledger.coordinator c).limits
    (commands c n).exec s = (.ok served.1, { s with
      ledger := (s.ledger.setNode n served.2.2).count c served.2.1 }) := by
  intro served
  unfold commands
  rw [exec_bind_ok (exec_ledger _)]
  simp only
  rw [exec_bind_ok (exec_takeFrom_eq ..)]
  cases hpoll : (s.ledger.node n).pollRecoveries (s.ledger.coordinator c).limits.maxRecoveryStreams.toNat with
  | mk batch node =>
    cases batch with
    | some blocks =>
      have hserved : served =
          ([.recover blocks], [(.blocksToRecoverDispatched, UInt64.ofNat blocks.length)], node) := by
        simp only [served, Node.serve, hpoll]
      rw [hserved]
      rfl
    | none =>
      have hnode : ∀ node : Node, (s.ledger.setNode n node).node n = node := Ledger.node_setNode hn
      cases htransfers : node.pollTransfers (s.ledger.coordinator c).limits.maxReplicationStreams.toNat with
      | mk transfers node₂ =>
        cases hblocks : node₂.drainInvalidations (s.ledger.coordinator c).limits.blockInvalidateLimit.toNat with
        | mk blocks node₃ =>
          simp only [served, Node.serve, hpoll, htransfers, hblocks]
          -- writing to the node again and again is writing to it once, and counting does not get in between
          cases transfers <;> cases blocks <;>
            simp only [exec_bind, exec_takeFrom_eq, exec_dispatched, hnode, htransfers, hblocks,
              Ledger.setNode_setNode, Ledger.node_count, Ledger.count_setNode] <;> rfl

/-- A heartbeat that has been counted is taken in as if it had not been. -/
private theorem exec_updateHeartbeat_of_counted (hn : n.index < s.ledger.nodes.size) (c : CoordinatorRef)
    (h : Heartbeat) :
    ∃ journal, (updateHeartbeat n h).exec ⟨s.ledger.count c [(.heartbeatsTotal, 1)], s.journal⟩ =
      (.ok (h.reports.countP fun r => !(s.ledger.node n).knows r),
        ⟨((s.ledger.takeReports n s.ledger.now h.reports).setNode n
          ((s.ledger.node n).receive s.ledger.now h)).count c [(.heartbeatsTotal, 1)], journal⟩) := by
  let counted := s.ledger.count c [(.heartbeatsTotal, 1)]
  have hnode : counted.node n = s.ledger.node n := Ledger.node_count s.ledger c _ n
  have hnow : counted.now = s.ledger.now := rfl
  obtain ⟨journal, he⟩ := exec_updateHeartbeat (s := ⟨counted, s.journal⟩) (n := n) hn h
  simp only [hnode, hnow] at he
  rw [Ledger.takeReports_count, Ledger.count_setNode] at he
  exact ⟨journal, he⟩

/-- The answer to a heartbeat that has been taken in is that to the node as it is then. -/
private theorem exec_commands_of_heard (hn : n.index < s.ledger.nodes.size) (c : CoordinatorRef) (h : Heartbeat)
    (journal : List Event) : (commands c n).exec ⟨s.ledger.hearBeat c n h, journal⟩ =
      (.ok (((s.ledger.node n).receive s.ledger.now h).serve (s.ledger.coordinator c).limits).1,
        ⟨s.ledger.beat c n h, journal⟩) := by
  have hmade : n.index < (s.ledger.hearBeat c n h).nodes.size :=
    Nat.lt_of_lt_of_eq hn (Ledger.size_nodes_hearBeat s.ledger c n h).symm
  have hcommands := exec_commands_of_made (s := ⟨s.ledger.hearBeat c n h, journal⟩) (n := n) hmade c
  simp only [Ledger.node_hearBeat hn, Ledger.limits_hearBeat] at hcommands
  rw [Ledger.beat_eq] at hcommands
  exact hcommands

/-- A heartbeat of a node that is alive and not turned away is taken in and answered. -/
theorem exec_heartbeat_of_live (hfind : (s.ledger.coordinator c).nodes.find? uuid = some n)
    (hn : n.index < s.ledger.nodes.size) (hallowed : (s.ledger.node n).disallowed = false)
    (halive : (s.ledger.node n).alive = true) (h : Heartbeat) :
    ∃ journal, (heartbeat c uuid h).exec s =
      (.ok (.ok (((s.ledger.node n).receive s.ledger.now h).serve (s.ledger.coordinator c).limits).1),
        ⟨s.ledger.beat c n h, journal⟩) := by
  obtain ⟨journal, he⟩ := exec_updateHeartbeat_of_counted hn c h
  have hincrement : (modifyMetrics c fun m => m.increment .heartbeatsTotal).exec s =
      (.ok ⟨⟩, ⟨s.ledger.count c [(.heartbeatsTotal, 1)], s.journal⟩) := rfl
  let taken := (s.ledger.takeReports n s.ledger.now h.reports).setNode n ((s.ledger.node n).receive s.ledger.now h)
  let unknown := h.reports.countP fun r => !(s.ledger.node n).knows r
  have hadd : (modifyMetrics c fun m => m.add .unknownStorageReports (UInt64.ofNat unknown)).exec
      ⟨taken.count c [(.heartbeatsTotal, 1)], journal⟩ = (.ok ⟨⟩, ⟨s.ledger.hearBeat c n h, journal⟩) := rfl
  refine ⟨journal, ?_⟩
  unfold heartbeat
  rw [exec_bind_ok (exec_ledger _)]
  simp only [hfind]
  rw [exec_bind_ok (exec_node ..)]
  simp only [hallowed, Bool.false_eq_true, if_false]
  rw [exec_bind_ok hincrement]
  simp only [halive, Bool.not_true, Bool.false_eq_true, if_false]
  rw [exec_bind_ok he]
  rw [exec_bind_ok hadd]
  rw [exec_bind_ok (exec_commands_of_heard hn c h journal)]
  rfl

/-- A node that is not in the registry is turned away, -/
theorem exec_heartbeat_of_none (hfind : (s.ledger.coordinator c).nodes.find? uuid = none) (h : Heartbeat) :
    (heartbeat c uuid h).exec s = (.ok (.error (.unregisteredDatanode uuid)),
      { s with ledger := s.ledger.count c [(.rejectedHeartbeats, 1)] }) := by
  unfold heartbeat
  rw [exec_bind_ok (exec_ledger _)]
  simp only [hfind]
  rfl

/-- so is one that is not allowed, -/
theorem exec_heartbeat_of_disallowed (hfind : (s.ledger.coordinator c).nodes.find? uuid = some n)
    (hallowed : (s.ledger.node n).disallowed = true) (h : Heartbeat) :
    ∃ journal, (heartbeat c uuid h).exec s = (.ok (.error (.disallowedDatanode uuid)),
      ⟨s.ledger.count c [(.rejectedHeartbeats, 1)], journal⟩) := by
  unfold heartbeat
  rw [exec_bind_ok (exec_ledger _)]
  simp only [hfind]
  rw [exec_bind_ok (exec_node ..)]
  simp only [hallowed, if_true]
  exact ⟨_, rfl⟩

/-- and one that was declared dead is told to register, and nothing else happens but that this is counted. -/
theorem exec_heartbeat_of_dead (hfind : (s.ledger.coordinator c).nodes.find? uuid = some n)
    (hallowed : (s.ledger.node n).disallowed = false) (halive : (s.ledger.node n).alive = false) (h : Heartbeat) :
    (heartbeat c uuid h).exec s = (.ok (.ok [.register]),
      { s with ledger := s.ledger.count c [(.heartbeatsTotal, 1)] }) := by
  unfold heartbeat
  rw [exec_bind_ok (exec_ledger _)]
  simp only [hfind]
  rw [exec_bind_ok (exec_node ..)]
  simp only [hallowed, Bool.false_eq_true, if_false]
  rw [exec_bind, modifyMetrics, exec_modifyLedger]
  simp only [halive, Bool.not_false, if_true]
  rfl

end Request

theorem Step.ledger_updateHeartbeat {s : Service} {n : NodeRef} (hn : n.index < s.ledger.nodes.size) (h : Heartbeat) :
    ((updateHeartbeat n h).after s).ledger =
      (s.ledger.takeReports n s.ledger.now h.reports).setNode n ((s.ledger.node n).receive s.ledger.now h) := by
  obtain ⟨journal, he⟩ := Request.exec_updateHeartbeat hn h
  exact congrArg (fun x => x.2.ledger) he

end DatanodeLedger
