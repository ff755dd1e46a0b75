import DatanodeLedger.Proofs.Registry.Beats

/-! What a heartbeat takes from the queues of its node, and what of that goes into the answer. -/
namespace DatanodeLedger

namespace Ledger
variable {l l' : Ledger} {n : NodeRef}

/-- The transfers and the recoveries that wait for a node are as they were, and so are the terms of the
coordinators. -/
structure Undisturbed (n : NodeRef) (l l' : Ledger) : Prop where
  size : l.nodes.size ≤ l'.nodes.size
  transfers : (l'.node n).transfers = (l.node n).transfers
  recoveries : (l'.node n).recoveries = (l.node n).recoveries
  terms : l.KeepsTerms l'

instance : IsPreorder Ledger (Undisturbed n) where
  refl _ := ⟨Nat.le_refl _, rfl, rfl, .of_eq rfl⟩
  trans _ _ _ h h' :=
    ⟨Nat.le_trans h.size h'.size, h'.transfers.trans h.transfers, h'.recoveries.trans h.recoveries,
      h.terms.trans h'.terms⟩

theorem undisturbed_of_nodes (h : l'.nodes = l.nodes) (terms : l.KeepsTerms l') : l.Undisturbed n l' := by
  have hnode : l'.node n = l.node n := by
    unfold node
    rw [h]
  exact ⟨Nat.le_of_eq (congrArg Array.size h.symm), congrArg Node.transfers hnode,
    congrArg Node.recoveries hnode, terms⟩

theorem undisturbed_modifyNode {m : NodeRef} {f : Node → Node}
    (transfers : (f (l.node m)).transfers = (l.node m).transfers)
    (recoveries : (f (l.node m)).recoveries = (l.node m).recoveries) :
    l.Undisturbed n (l.modifyNode m f) :=
  ⟨Nat.le_of_eq Array.size_modify.symm, node_modifyNode_congr Node.transfers transfers n,
    node_modifyNode_congr Node.recoveries recoveries n, .of_eq rfl⟩

instance : Request.Frame (Undisturbed n) where
  node h := undisturbed_modifyNode h.transfers h.recoveries
  storage _ := undisturbed_of_nodes rfl (.of_eq rfl)
  hands nodes _ _ _ terms _ := undisturbed_of_nodes nodes terms
  block _ _ _ := undisturbed_of_nodes rfl (.of_eq rfl)
  newNode l r location := by
    have hsize : l.nodes.size ≤ (l.addNode { Node.ofRegistration r with location }).2.nodes.size :=
      size_addNode l _ ▸ Nat.le_succ _
    -- a node that has not been made has empty queues, and so has one that is new
    rcases node_addNode_cases l { Node.ofRegistration r with location } n with h | ⟨hnew, h⟩
    · exact ⟨hsize, congrArg Node.transfers h, congrArg Node.recoveries h, .of_eq rfl⟩
    · have hold : l.node n = default := node_of_le (Nat.le_of_eq hnew.symm)
      exact ⟨hsize, by rw [h, hold]; rfl, by rw [h, hold]; rfl, .of_eq rfl⟩
  announce {l m a} _ :=
    trans_of (Undisturbed n)
      (undisturbed_of_nodes rfl (.of_eq rfl) : l.Undisturbed n (l.addStorage (.announced (l.node m).uuid a)).2)
      (undisturbed_modifyNode rfl rfl)
  cursors _ := undisturbed_of_nodes rfl (.of_eq rfl)

/-- The work of one node is none of another's. -/
theorem allowsWork_undisturbed {m : NodeRef} (h : m ≠ n) : Request.AllowsWork (Undisturbed n) m := by
  intro l f _
  have hnode : (l.modifyNode m f).node n = l.node n := node_modifyNode_of_ne h.symm f
  exact ⟨Nat.le_of_eq Array.size_modify.symm, congrArg Node.transfers hnode, congrArg Node.recoveries hnode,
    .of_eq rfl⟩

end Ledger
open Ledger (Undisturbed)

namespace Command

def transfers : Command → List Transfer
  | replicate transfers => transfers
  | _ => []

def recoveries : Command → List OpenRef
  | recover blocks => blocks
  | _ => []

/-- A command that brings a node neither transfers nor recoveries. -/
def Workless : Command → Prop
  | replicate _ | recover _ => False
  | _ => True

theorem Workless.transfers {command : Command} (h : command.Workless) : command.transfers = [] := by
  cases command with
  | replicate batch => exact h.elim
  | _ => rfl

theorem Workless.recoveries {command : Command} (h : command.Workless) : command.recoveries = [] := by
  cases command with
  | recover blocks => exact h.elim
  | _ => rfl

/-- Besides transfers and recoveries, an answer has deletions, a bandwidth and keys. -/
theorem workless_of_mem {blocks : Option (List Block)} {bandwidth : Option UInt64} {keys : Bool} {command : Command}
    (hc : command ∈ (blocks.map invalidate).toList ++ ((bandwidth.map balancerBandwidth).toList
      ++ (if keys then [keyUpdate] else []))) : command.Workless := by
  rw [List.mem_append, List.mem_append] at hc
  rcases hc with hc | hc | hc
  · obtain ⟨_, -, rfl⟩ := Option.map_eq_some_iff.1 (Option.mem_toList.1 hc)
    exact trivial
  · obtain ⟨_, -, rfl⟩ := Option.map_eq_some_iff.1 (Option.mem_toList.1 hc)
    exact trivial
  · cases keys with
    | false => cases hc
    | true =>
      cases List.mem_singleton.1 hc
      exact trivial

end Command

/-- The commands in the answer to a heartbeat from a node, by what it finds in the queues and what it leaves
there. -/
inductive Issued (limits : Limits) (node node' : Node) : List Command → Prop
  | idle {commands : List Command} (workless : ∀ command ∈ commands, command.Workless)
    (transfers : node'.transfers = node.transfers) (recoveries : node'.recoveries = node.recoveries) :
    Issued limits node node' commands
  /-- lease recovery goes out alone -/
  | recover {blocks : List OpenRef}
    (polled : (node.recoveries.poll limits.maxRecoveryStreams.toNat).1 = some blocks)
    (transfers : node'.transfers = node.transfers)
    (recoveries : node'.recoveries = (node.recoveries.poll limits.maxRecoveryStreams.toNat).2) :
    Issued limits node node' [.recover blocks]
  | replicate {batch : List Transfer} {commands : List Command}
    (polled : (node.transfers.poll limits.maxReplicationStreams.toNat).1 = some batch)
    (workless : ∀ command ∈ commands, command.Workless)
    (transfers : node'.transfers = (node.transfers.poll limits.maxReplicationStreams.toNat).2)
    (recoveries : node'.recoveries = node.recoveries) :
    Issued limits node node' (.replicate batch :: commands)

namespace Issued
variable {limits : Limits} {node node' node₁ : Node} {commands : List Command}

/-- What an answer carries is taken from the queues of the node within the limits. -/
theorem serve (limits : Limits) (node : Node) : Issued limits node (node.serve limits).2.2 (node.serve limits).1 := by
  cases hpoll : (node.recoveries.poll limits.maxRecoveryStreams.toNat).1 with
  | some blocks =>
    rw [Node.serve_of_some hpoll]
    exact .recover hpoll rfl rfl
  | none =>
    obtain ⟨hsent, hnode⟩ := Node.serve_of_none hpoll
    rw [hsent, hnode, List.append_assoc, List.append_assoc]
    cases htransfers : (node.transfers.poll limits.maxReplicationStreams.toNat).1 with
    | none => exact .idle (fun _ => Command.workless_of_mem) (Work.Queue.poll_of_none htransfers) rfl
    | some batch => exact .replicate htransfers (fun _ => Command.workless_of_mem) rfl rfl

/-- Only the two queues of the node count. -/
theorem congr (h : Issued limits node node' commands) (transfers : node.transfers = node₁.transfers)
    (recoveries : node.recoveries = node₁.recoveries) : Issued limits node₁ node' commands := by
  cases h with
  | idle workless htransfers hrecoveries =>
    exact .idle workless (htransfers.trans transfers) (hrecoveries.trans recoveries)
  | recover polled htransfers hrecoveries =>
    rw [recoveries] at polled hrecoveries
    exact .recover polled (htransfers.trans transfers) hrecoveries
  | replicate polled workless htransfers hrecoveries =>
    rw [transfers] at polled htransfers
    exact .replicate polled workless htransfers (hrecoveries.trans recoveries)

theorem workless_transfers (workless : ∀ command ∈ commands, command.Workless) :
    commands.flatMap Command.transfers = [] :=
  List.flatMap_eq_nil_iff.2 fun command hc => (workless command hc).transfers

theorem workless_recoveries (workless : ∀ command ∈ commands, command.Workless) :
    commands.flatMap Command.recoveries = [] :=
  List.flatMap_eq_nil_iff.2 fun command hc => (workless command hc).recoveries

/-- What goes out and what stays are the queue of transfers as it was, in its order, -/
theorem transfers_append (h : Issued limits node node' commands) :
    commands.flatMap Command.transfers ++ node'.transfers.items = node.transfers.items := by
  cases h with
  | idle workless htransfers _ => rw [workless_transfers workless, htransfers, List.nil_append]
  | recover _ htransfers _ => rw [htransfers]; rfl
  | replicate polled workless htransfers _ =>
    have happend := node.transfers.poll_append limits.maxReplicationStreams.toNat
    rw [polled] at happend
    rw [List.flatMap_cons, workless_transfers workless, List.append_nil, htransfers]
    exact happend

/-- and so with the recoveries. -/
theorem recoveries_append (h : Issued limits node node' commands) :
    commands.flatMap Command.recoveries ++ node'.recoveries.items = node.recoveries.items := by
  cases h with
  | idle workless _ hrecoveries => rw [workless_recoveries workless, hrecoveries, List.nil_append]
  | recover polled _ hrecoveries =>
    have happend := node.recoveries.poll_append limits.maxRecoveryStreams.toNat
    rw [polled] at happend
    rw [hrecoveries, List.flatMap_cons, List.flatMap_nil, List.append_nil]
    exact happend
  | replicate _ workless _ hrecoveries =>
    rw [List.flatMap_cons, workless_recoveries workless, hrecoveries]
    rfl

end Issued

/-- The batches of an answer are not empty and keep to the limits, transfers in them have targets, and
recoveries go out alone. -/
structure Batched (limits : Limits) (commands : List Command) : Prop where
  transfers : ∀ batch, .replicate batch ∈ commands →
    batch ≠ [] ∧ batch.length ≤ limits.maxReplicationStreams.toNat ∧ ∀ t ∈ batch, t.targets ≠ []
  recoveries : ∀ batch, .recover batch ∈ commands →
    batch ≠ [] ∧ batch.length ≤ limits.maxRecoveryStreams.toNat ∧ commands = [.recover batch]

theorem Issued.batched {limits : Limits} {node node' : Node} {commands : List Command}
    (h : Issued limits node node' commands) (htargets : ∀ t ∈ node.transfers.items, t.targets ≠ []) :
    Batched limits commands := by
  cases h with
  | idle workless _ _ => exact ⟨fun _ hc => (workless _ hc).elim, fun _ hc => (workless _ hc).elim⟩
  | @recover blocks polled _ _ =>
    have hlength := Work.Queue.length_of_poll polled
    refine ⟨fun batch hc => (nomatch List.mem_singleton.1 hc), fun batch hc => ?_⟩
    cases List.mem_singleton.1 hc
    exact ⟨Work.Queue.ne_nil_of_poll polled, hlength ▸ Nat.min_le_left _ _, rfl⟩
  | @replicate batch commands polled workless _ _ =>
    have hlength := Work.Queue.length_of_poll polled
    have happend := node.transfers.poll_append limits.maxReplicationStreams.toNat
    rw [polled] at happend
    constructor
    · intro batch' hc
      rcases List.mem_cons.1 hc with hc | hc
      · cases hc
        refine ⟨Work.Queue.ne_nil_of_poll polled, hlength ▸ Nat.min_le_left _ _, fun t ht => htargets t ?_⟩
        rw [← happend]
        exact List.mem_append_left _ ht
      · exact (workless _ hc).elim
    · intro batch' hc
      rcases List.mem_cons.1 hc with hc | hc
      · cases hc
      · exact (workless _ hc).elim

/-- A heartbeat from a node of the registry is always answered. -/
theorem Request.exec_heartbeat {s : Service} {n : NodeRef} {c : CoordinatorRef} {uuid : String}
    (hfind : (s.ledger.coordinator c).nodes.find? uuid = some n) (hn : n.index < s.ledger.nodes.size)
    (h : Heartbeat) :
    ∃ answer s', (heartbeat c uuid h).exec s = (.ok answer, s') ∧
      Issued (s.ledger.coordinator c).limits (s.ledger.node n) (s'.ledger.node n) (answer.toOption.getD []) := by
  cases hallowed : (s.ledger.node n).disallowed with
  | true =>
    obtain ⟨journal, he⟩ := exec_heartbeat_of_disallowed hfind hallowed h
    refine ⟨_, _, he, ?_⟩
    rw [Ledger.node_count]
    exact .idle (fun _ hc => (List.not_mem_nil hc).elim) rfl rfl
  | false =>
    cases halive : (s.ledger.node n).alive with
    | false =>
      refine ⟨_, _, exec_heartbeat_of_dead hfind hallowed halive h, ?_⟩
      rw [Ledger.node_count]
      refine .idle (fun command hc => ?_) rfl rfl
      cases List.mem_singleton.1 hc
      exact trivial
    | true =>
      obtain ⟨journal, he⟩ := exec_heartbeat_of_live hfind hn hallowed halive h
      refine ⟨_, _, he, ?_⟩
      rw [Ledger.node_beat hn]
      exact (Issued.serve _ ((s.ledger.node n).receive s.ledger.now h)).congr rfl rfl

end DatanodeLedger
