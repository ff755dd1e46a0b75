import DatanodeLedger.Proofs.Decommission.Phases

/-! The gate in front of the results of scans, over arbitrary runs of what the holders of the state and the tracker of
the progress do. Results that come while the node is not in progress leave no trace, at once or later. -/
namespace DatanodeLedger
namespace Decommission

inductive Action where
  | setState (state : AdminState)
  | set (scan : Scan)
  | setStartTime (startTime : UInt64)
  | read
  deriving DecidableEq, Repr

namespace Action

def apply (d : Decommission) : Action → Decommission
  | setState state => d.setState state
  | set scan => d.set scan.underReplicated scan.decommissionOnly scan.underReplicatedOpen
  | setStartTime startTime => d.setStartTime startTime
  | read => d

/-- What an action gives back: the state, and the progress as it reads in it. -/
def answers (d : Decommission) : Action → List (AdminState × DecommissionProgress)
  | read => [(d.state, d.progress)]
  | _ => []

def state? : Action → Option AdminState
  | setState state => some state
  | _ => none

def scan? : Action → Option Scan
  | set scan => some scan
  | _ => none

def startTime? : Action → Option UInt64
  | setStartTime startTime => some startTime
  | _ => none

end Action

def run (d : Decommission) (actions : List Action) : Decommission := actions.foldl Action.apply d

/-- What the reads of a run give, in their order. -/
def reads (d : Decommission) : List Action → List (AdminState × DecommissionProgress)
  | [] => []
  | action :: actions => action.answers d ++ reads (action.apply d) actions

/-- A run without the results that come while the node is not in progress. -/
def heeded (state : AdminState) : List Action → List Action
  | [] => []
  | .setState state' :: actions => .setState state' :: heeded state' actions
  | .set scan :: actions =>
    if state = .decommissionInProgress then .set scan :: heeded state actions else heeded state actions
  | action :: actions => action :: heeded state actions

/-- What can be seen after some actions, told from the actions alone. -/
def seen (state : AdminState) (actions : List Action) : AdminState × DecommissionProgress :=
  let current := latest Action.state? state actions
  let scan := latest Action.scan? {} (heeded state actions)
  (current,
    if current = .decommissionInProgress then
      { underReplicated := scan.underReplicated
        decommissionOnly := scan.decommissionOnly
        underReplicatedOpen := scan.underReplicatedOpen
        startTime := latest Action.startTime? 0 actions }
    else {})

/-- Results of a scan are taken as a whole or not at all. -/
theorem set_cases (d : Decommission) (scan : Scan) :
    (d.state = .decommissionInProgress ∧ (Action.set scan).apply d = { d with recorded := { d.recorded with
        underReplicated := scan.underReplicated
        decommissionOnly := scan.decommissionOnly
        underReplicatedOpen := scan.underReplicatedOpen } }) ∨
      (d.state ≠ .decommissionInProgress ∧ (Action.set scan).apply d = d) := by
  by_cases h : d.state = .decommissionInProgress
  · exact .inl ⟨h, if_pos (beq_iff_eq.2 h)⟩
  · exact .inr ⟨h, if_neg fun hphase => h (beq_iff_eq.1 hphase)⟩

theorem state_apply (d : Decommission) (action : Action) : (action.apply d).state = action.state?.getD d.state := by
  cases action with
  | set scan => rcases set_cases d scan with ⟨-, h⟩ | ⟨-, h⟩ <;> rw [h] <;> rfl
  | _ => rfl

theorem startTime_apply (d : Decommission) (action : Action) :
    (action.apply d).recorded.startTime = action.startTime?.getD d.recorded.startTime := by
  cases action with
  | set scan => rcases set_cases d scan with ⟨-, h⟩ | ⟨-, h⟩ <;> rw [h] <;> rfl
  | _ => rfl

theorem state_run (d : Decommission) (actions : List Action) :
    (d.run actions).state = latest Action.state? d.state actions := by
  induction actions generalizing d with
  | nil => rfl
  | cons action actions ih => rw [run, List.foldl_cons, ← run, ih, latest_cons, state_apply]

theorem startTime_run (d : Decommission) (actions : List Action) :
    (d.run actions).recorded.startTime = latest Action.startTime? d.recorded.startTime actions := by
  induction actions generalizing d with
  | nil => rfl
  | cons action actions ih => rw [run, List.foldl_cons, ← run, ih, latest_cons, startTime_apply]

/-- An action that is heeded brings what is recorded then, and one that is not does nothing. -/
theorem heeded_cons (d : Decommission) (action : Action) (actions : List Action) :
    (heeded d.state (action :: actions) = action :: heeded (action.apply d).state actions ∧
      (action.apply d).recorded.scan = action.scan?.getD d.recorded.scan) ∨
    (heeded d.state (action :: actions) = heeded d.state actions ∧ action.apply d = d ∧ action.answers d = []) := by
  cases action with
  | set scan =>
    rcases set_cases d scan with ⟨hphase, h⟩ | ⟨hphase, h⟩
    · rw [h, heeded, if_pos hphase]
      exact .inl ⟨rfl, rfl⟩
    · rw [h, heeded, if_neg hphase]
      exact .inr ⟨rfl, rfl, rfl⟩
  | _ => exact .inl ⟨rfl, rfl⟩

/-- What is recorded are the last results that were heeded. -/
theorem scan_run (d : Decommission) (actions : List Action) :
    (d.run actions).recorded.scan = latest Action.scan? d.recorded.scan (heeded d.state actions) := by
  induction actions generalizing d with
  | nil => rfl
  | cons action actions ih =>
    rw [run, List.foldl_cons, ← run, ih]
    rcases heeded_cons d action actions with ⟨h, hscan⟩ | ⟨h, hsame, -⟩
    · rw [h, latest_cons, hscan]
    · rw [h, hsame]

theorem reads_heeded (d : Decommission) (actions : List Action) :
    d.reads (heeded d.state actions) = d.reads actions := by
  induction actions generalizing d with
  | nil => rfl
  | cons action actions ih =>
    rcases heeded_cons d action actions with ⟨h, -⟩ | ⟨h, hsame, hnone⟩
    · rw [h, reads, reads, ih]
    · rw [h, ih, reads, hsame, hnone, List.nil_append]

/-- What can be seen after a run. -/
theorem seen_run (state : AdminState) (actions : List Action) :
    ((run { state } actions).state, (run { state } actions).progress) = seen state actions := by
  have hstate : (run { state } actions).state = latest Action.state? state actions := state_run _ _
  have hscan : (run { state } actions).recorded.scan = latest Action.scan? {} (heeded state actions) := scan_run _ _
  have hstart : (run { state } actions).recorded.startTime = latest Action.startTime? 0 actions := startTime_run _ _
  rw [seen, ← hstate, ← hscan, ← hstart, progress]
  exact congrArg _ (if_congr beq_iff_eq rfl rfl)

theorem length_reads (d : Decommission) (actions : List Action) : (d.reads actions).length = actions.count .read := by
  induction actions generalizing d with
  | nil => rfl
  | cons action actions ih =>
    rw [reads, List.length_append, ih, List.count_cons, Nat.add_comm]
    cases action <;> rfl

theorem reads_append (d : Decommission) (before after : List Action) :
    d.reads (before ++ after) = d.reads before ++ (d.run before).reads after := by
  induction before generalizing d with
  | nil => rfl
  | cons action before ih =>
    rw [List.cons_append, reads, ih, reads, List.append_assoc]
    rfl

end Decommission

open Decommission (Action)

/-- What a change of a node does to its decommission. -/
def Node.Change.actions : Node.Change → List Action
  | adminState state => [.setState state]
  | startDecommission now => [.setState .decommissionInProgress, .setStartTime now]
  | scan underReplicated decommissionOnly underReplicatedOpen =>
    [.set ⟨underReplicated, decommissionOnly, underReplicatedOpen⟩]
  | startTime time => [.setStartTime time]
  | _ => []

theorem Node.Change.decommission_apply (node : Node) (change : Node.Change) :
    (change.apply node).decommission = node.decommission.run change.actions := by
  cases change <;> rfl

/-- What a step does to the decommission of a node. -/
def Step.actions (n : NodeRef) : Step → List Action
  | changeNode m change => if m = n then change.actions else []
  | _ => []

theorem Step.decommission_after {s : Service} (hs : Reachable s) {step : Step} (hstep : step.Enabled s.ledger)
    (n : NodeRef) :
    ((step.after s).ledger.node n).decommission = (s.ledger.node n).decommission.run (step.actions n) := by
  have hafter : ((step.after s).ledger.node n).decommission = (step.turn s.ledger n).decommission :=
    congrArg Node.Standing.decommission (step.standing_after hs hstep n)
  rw [hafter]
  rcases step.turn_cases s.ledger n with ⟨change, rfl, hturn⟩ | ⟨hother, -, hsame⟩
  · rw [hturn, Node.Change.decommission_apply, actions, if_pos rfl]
  · have hnone : step.actions n = [] := by
      cases step with
      | changeNode m change => exact if_neg fun hm : m = n => hother change (hm ▸ rfl)
      | _ => rfl
    rw [hsame, hnone]
    rfl

theorem Service.decommission_run {s : Service} (hs : Reachable s) {steps : List Step} (hsteps : s.Legal steps)
    (n : NodeRef) : ((s.run steps).ledger.node n).decommission =
      (s.ledger.node n).decommission.run (steps.flatMap (Step.actions n)) := by
  induction steps generalizing s with
  | nil => rfl
  | cons step steps ih =>
    have hrun := ih (hs.step hsteps.1) hsteps.2
    rw [Step.decommission_after hs hsteps.1, Decommission.run, Decommission.run, ← List.foldl_append] at hrun
    exact hrun

/-- Results of scans that come while the node is not in progress could as well not have come: without them every read
of the run gives what it gave. A read gives the last state, and in progress the last results that came in progress
and the last start time, zeros where there were none; in any other state it gives zeros. The same can be read in a
service, however the holders of the node and the tracker of its progress take turns with everything else. -/
theorem gated_results_leave_no_trace :
    (∀ (state : AdminState) (actions : List Action),
      Decommission.reads { state } (Decommission.heeded state actions) = Decommission.reads { state } actions ∧
      (Decommission.reads { state } actions).length = actions.count .read ∧
      ∀ before after, actions = before ++ .read :: after →
        (Decommission.reads { state } actions)[before.count .read]? = some (Decommission.seen state before)) ∧
    ∀ (clock : Int) (n : NodeRef) (steps : List Step), ({ ledger := { clock } } : Service).Legal steps →
      let d := ((({ ledger := { clock } } : Service).run steps).ledger.node n).decommission
      (d.state, d.progress) = Decommission.seen .normal (steps.flatMap (Step.actions n)) := by
  constructor
  · intro state actions
    refine ⟨Decommission.reads_heeded { state } actions, Decommission.length_reads _ actions, ?_⟩
    rintro before after rfl
    rw [Decommission.reads_append, ← Decommission.length_reads { state } before,
      List.getElem?_append_right (Nat.le_refl _), Nat.sub_self]
    exact congrArg some (Decommission.seen_run state before)
  · intro clock n steps hsteps d
    have hd : d = Decommission.run { state := .normal } (steps.flatMap (Step.actions n)) :=
      Service.decommission_run (.start clock) hsteps n
    rw [hd]
    exact Decommission.seen_run .normal _

/-- Results that were dropped before a phase and between two phases, with reads in between. -/
theorem dropped_results_stay_dropped :
    let actions : List Action :=
      [.set ⟨9, 9, 9⟩, .setState .decommissionInProgress, .read, .set ⟨5, 3, 1⟩, .setStartTime 7, .setState .normal,
        .set ⟨8, 8, 8⟩, .read, .setState .decommissionInProgress, .read]
    Decommission.heeded .normal actions =
        [.setState .decommissionInProgress, .read, .set ⟨5, 3, 1⟩, .setStartTime 7, .setState .normal, .read,
          .setState .decommissionInProgress, .read] ∧
      (Decommission.reads {} actions)[0]? = some (.decommissionInProgress, ⟨0, 0, 0, 0⟩) ∧
      (Decommission.reads {} actions)[1]? = some (.normal, ⟨0, 0, 0, 0⟩) ∧
      (Decommission.reads {} actions)[2]? = some (.decommissionInProgress, ⟨5, 3, 1, 7⟩) := by
  intro actions
  have h := (gated_results_leave_no_trace.1 .normal actions).2.2
  exact ⟨by decide, h (actions.take 2) (actions.drop 3) rfl, h (actions.take 7) (actions.drop 8) rfl,
    h (actions.take 9) (actions.drop 10) rfl⟩

end DatanodeLedger
