import DatanodeLedger.Proofs.Registry.Standing

/-! The counters of a decommission over the phases that a node goes through. A phase begins with every change into
the state in progress. What has been recorded stays recorded between phases, where it cannot be read, so that it can
be read again at the beginning of the next phase. -/
namespace DatanodeLedger

/-- The results of one scan. -/
structure Scan where
  underReplicated : UInt32 := 0
  decommissionOnly : UInt32 := 0
  underReplicatedOpen : UInt32 := 0
  deriving DecidableEq, Repr

inductive ScanCounter where
  | underReplicated
  | decommissionOnly
  | underReplicatedOpen
  deriving DecidableEq, Repr

def ScanCounter.value (k : ScanCounter) (scan : Scan) : UInt32 :=
  match k with
  | underReplicated => scan.underReplicated
  | decommissionOnly => scan.decommissionOnly
  | underReplicatedOpen => scan.underReplicatedOpen

def DecommissionProgress.scan (p : DecommissionProgress) : Scan :=
  ⟨p.underReplicated, p.decommissionOnly, p.underReplicatedOpen⟩

namespace Scan

theorem eq_zero_iff {scan : Scan} : scan = {} ↔ ∀ k : ScanCounter, k.value scan = 0 := by
  constructor
  · rintro rfl k
    cases k <;> rfl
  · intro h
    obtain ⟨a, b, c⟩ := scan
    have ha : a = 0 := h .underReplicated
    have hb : b = 0 := h .decommissionOnly
    have hc : c = 0 := h .underReplicatedOpen
    rw [ha, hb, hc]

/-- Every counter that is not zero is there as one of some scans wrote it. -/
def WrittenBy (scan : Scan) (scans : List Scan) : Prop :=
  ∀ k : ScanCounter, k.value scan ≠ 0 → ∃ written ∈ scans, k.value written = k.value scan

theorem writtenBy_of_mem {scan : Scan} {scans : List Scan} (h : scan ∈ scans) : scan.WrittenBy scans :=
  fun _ _ => ⟨scan, h, rfl⟩

theorem writtenBy_zero (scans : List Scan) : WrittenBy {} scans := by
  intro k hk
  exact absurd (eq_zero_iff.1 rfl k) hk

/-- No scan writes zeros only. -/
theorem writtenBy_nil_iff {scan : Scan} : scan.WrittenBy [] ↔ scan = {} := by
  constructor
  · intro h
    rw [eq_zero_iff]
    intro k
    by_contra hk
    obtain ⟨written, hmem, -⟩ := h k hk
    exact List.not_mem_nil hmem
  · rintro rfl
    exact writtenBy_zero []

end Scan

namespace Step
variable {s : Service} {n : NodeRef}

/-- The scan that a step records for a node, which has to be in progress. -/
def scans (n : NodeRef) (s : Service) : Step → List Scan
  | changeNode m (.scan underReplicated decommissionOnly underReplicatedOpen) =>
    if m = n ∧ (s.ledger.node n).decommission.isInProgress = true then
      [⟨underReplicated, decommissionOnly, underReplicatedOpen⟩]
    else []
  | _ => []

/-- The steps that begin a phase of a node. -/
def Enters (n : NodeRef) (s : Service) (step : Step) : Prop :=
  (s.ledger.node n).decommission.isInProgress = false ∧
    ((step.after s).ledger.node n).decommission.isInProgress = true

instance (n : NodeRef) (s : Service) (step : Step) : Decidable (step.Enters n s) :=
  inferInstanceAs (Decidable (_ ∧ _))

/-- A step records the scan that it brings, and leaves what has been recorded where it brings none. -/
theorem recorded_after (hs : Reachable s) {step : Step} (hstep : step.Enabled s.ledger) (n : NodeRef) :
    ((step.after s).ledger.node n).decommission.recorded.scan =
      (step.scans n s).getLast?.getD (s.ledger.node n).decommission.recorded.scan := by
  have hafter : ((step.after s).ledger.node n).decommission = (step.turn s.ledger n).decommission :=
    congrArg Node.Standing.decommission (step.standing_after hs hstep n)
  rw [hafter]
  rcases step.turn_cases s.ledger n with ⟨change, rfl, hturn⟩ | ⟨hother, -, hsame⟩
  · rw [hturn]
    cases change with
    | scan a b c =>
      rw [scans, Node.Change.apply]
      cases hphase : (s.ledger.node n).decommission.isInProgress with
      | true =>
        rw [if_pos ⟨rfl, rfl⟩, Decommission.set, if_pos hphase]
        rfl
      | false =>
        rw [if_neg fun h => Bool.noConfusion h.2, Decommission.set, if_neg (Bool.eq_false_iff.1 hphase)]
        rfl
    | _ => rfl
  · have hnone : step.scans n s = [] := by
      unfold scans
      split
      · rename_i m a b c
        refine if_neg fun h => ?_
        exact hother (.scan a b c) (h.1 ▸ rfl)
      · rfl
    rw [hsame, hnone]
    rfl

/-- Nothing is recorded by a step that begins a phase. -/
theorem scans_of_enters {step : Step} (h : step.Enters n s) : step.scans n s = [] := by
  unfold scans
  split
  · exact if_neg fun hphase => Bool.noConfusion (h.1.symm.trans hphase.2)
  · rfl

end Step

/-- The scans that have been recorded for a node, up to the beginning of its last phase and since then. -/
structure Phases where
  earlier : List Scan := []
  current : List Scan := []
  deriving DecidableEq, Repr

namespace Phases

/-- The phases after one more step. -/
def next (n : NodeRef) (s : Service) (p : Phases) (step : Step) : Phases :=
  if step.Enters n s then { earlier := p.earlier ++ p.current } else { p with current := p.current ++ step.scans n s }

/-- What was recorded last, zeros if nothing was. -/
def last (p : Phases) : Scan := (p.earlier ++ p.current).getLast?.getD {}

theorem last_eq (p : Phases) : p.last = p.current.getLast?.getD (p.earlier.getLast?.getD {}) := by
  unfold last
  rw [List.getLast?_append]
  cases p.current.getLast? <;> rfl

theorem last_next (n : NodeRef) (s : Service) (p : Phases) (step : Step) :
    (p.next n s step).last = (step.scans n s).getLast?.getD p.last := by
  unfold next
  split
  · rename_i henters
    rw [Step.scans_of_enters henters, last, List.append_nil]
    rfl
  · rw [last, ← List.append_assoc, List.getLast?_append]
    cases (step.scans n s).getLast? <;> rfl

end Phases

namespace Service
variable {s : Service} {n : NodeRef}

/-- The phases of a node after some steps. -/
def phases (n : NodeRef) (s : Service) (p : Phases) : List Step → Phases
  | [] => p
  | step :: steps => (step.after s).phases n (p.next n s step) steps

/-- What is recorded after a run is what was recorded last. -/
theorem recorded_run (hs : Reachable s) {p : Phases} (h : (s.ledger.node n).decommission.recorded.scan = p.last)
    {steps : List Step} (hsteps : s.Legal steps) :
    ((s.run steps).ledger.node n).decommission.recorded.scan = (s.phases n p steps).last := by
  induction steps generalizing s p with
  | nil => exact h
  | cons step steps ih =>
    apply ih (hs.step hsteps.1) _ hsteps.2
    rw [Step.recorded_after hs hsteps.1 n, Phases.last_next, h]

end Service

theorem Decommission.scan_progress (d : Decommission) :
    d.progress.scan = if d.isInProgress then d.recorded.scan else {} := by
  unfold progress
  split <;> rfl

/-- Over the whole life of a service, what the counters of a node read while it is being decommissioned is the last
scan that was recorded in this phase, and before there is one the last scan of earlier phases; they read as zeros at
all other times. So counters that are not zero are the work of this phase unless it is one without a scan that comes
after a phase whose last scan was not all zeros: then a decommission starts with the counters of that one. -/
theorem decommission_reads_last_scan (clock : Int) (n : NodeRef) {steps : List Step}
    (hsteps : ({ ledger := { clock } } : Service).Legal steps) :
    let start : Service := { ledger := { clock } }
    let phases := start.phases n {} steps
    let left := phases.earlier.getLast?.getD {}
    let s := start.run steps
    let d := (s.ledger.node n).decommission
    d.progress.scan = (if d.isInProgress then phases.current.getLast?.getD left else {}) ∧
      (d.progress.scan.WrittenBy phases.current ↔ (d.isInProgress = true → phases.current = [] → left = {})) ∧
      (d.isInProgress = false → n ∈ s.ledger.heldNodes → ∀ now,
        let again := (((Step.changeNode n (.startDecommission now)).after s).ledger.node n).decommission.progress
        again.scan = phases.last ∧ again.startTime = now) := by
  intro start phases left s d
  have hs : Reachable s := (Reachable.start clock).run hsteps
  have hlast : d.recorded.scan = phases.last := Service.recorded_run (.start clock) rfl hsteps
  have hreads : d.progress.scan = if d.isInProgress then phases.current.getLast?.getD left else {} := by
    rw [d.scan_progress, hlast, phases.last_eq]
  refine ⟨hreads, ?_, ?_⟩
  · rw [hreads]
    cases hphase : d.isInProgress with
    | false => exact iff_of_true (Scan.writtenBy_zero _) fun h => Bool.noConfusion h
    | true =>
      rw [if_pos rfl]
      cases hcurrent : phases.current.getLast? with
      | none =>
        rw [List.getLast?_eq_none_iff.1 hcurrent, Option.getD_none, Scan.writtenBy_nil_iff]
        exact ⟨fun h _ _ => h, fun h => h rfl rfl⟩
      | some scan =>
        have hmem : scan ∈ phases.current := List.mem_of_getLast? hcurrent
        refine iff_of_true (Scan.writtenBy_of_mem hmem) ?_
        intro _ hnil
        rw [hnil] at hmem
        exact absurd hmem List.not_mem_nil
  · intro _ hn now again
    have hafter : ((Step.changeNode n (.startDecommission now)).after s).ledger.node n =
        (s.ledger.node n).startDecommission now := Ledger.node_modifyNode (hs.orderly.held n hn) _
    have hagain : again = { d.recorded with startTime := now } := by
      change (((Step.changeNode n (.startDecommission now)).after s).ledger.node n).decommission.progress = _
      rw [hafter]
      rfl
    rw [hagain]
    exact ⟨hlast, rfl⟩

/-- A node is being decommissioned, scanned, put back into service, and decommissioned again, twice. -/
def threePhases : List Step :=
  [.makeNode (Registration.ofAddress "n" "10.0.0.1" 9866) "/default-rack",
    .changeNode ⟨0⟩ (.scan 9 9 9), .changeNode ⟨0⟩ (.startDecommission 1000), .changeNode ⟨0⟩ (.scan 5 3 1),
    .changeNode ⟨0⟩ (.adminState .normal), .changeNode ⟨0⟩ (.startDecommission 2000),
    .changeNode ⟨0⟩ (.scan 4 0 2), .changeNode ⟨0⟩ (.adminState .decommissioned)]

theorem decommission_reads_last_scan_of_three_phases :
    let s := ({} : Service).run threePhases
    ({} : Service).phases ⟨0⟩ {} threePhases = ⟨[⟨5, 3, 1⟩], [⟨4, 0, 2⟩]⟩ ∧
      (s.ledger.node ⟨0⟩).decommission.progress.scan = {} ∧
      (((Step.changeNode ⟨0⟩ (.startDecommission 3000)).after s).ledger.node ⟨0⟩).decommission.progress.scan =
        ⟨4, 0, 2⟩ := by
  intro s
  have hphases : ({} : Service).phases ⟨0⟩ {} threePhases = ⟨[⟨5, 3, 1⟩], [⟨4, 0, 2⟩]⟩ := by decide +kernel
  have hphase : (s.ledger.node ⟨0⟩).decommission.isInProgress = false := by decide +kernel
  have h := @decommission_reads_last_scan 0 ⟨0⟩ threePhases (by decide +kernel)
  obtain ⟨hreads, -, hagain⟩ := h
  refine ⟨hphases, hreads.trans (if_neg ?_), ((hagain hphase (by decide +kernel) 3000).1).trans ?_⟩
  · exact Bool.eq_false_iff.1 hphase
  · rw [hphases]
    rfl

/-- The scan of the first phase can be read in the second one, in which there was none. -/
theorem old_scan_resurfaces :
    let steps := threePhases.take 6
    let s := ({} : Service).run steps
    ({} : Service).Legal steps ∧ (({} : Service).phases ⟨0⟩ {} steps).current = [] ∧
      (s.ledger.node ⟨0⟩).decommission.progress = ⟨5, 3, 1, 2000⟩ ∧
      ¬ (s.ledger.node ⟨0⟩).decommission.progress.scan.WrittenBy (({} : Service).phases ⟨0⟩ {} steps).current := by
  intro steps s
  have hcurrent : (({} : Service).phases ⟨0⟩ {} steps).current = [] := by decide +kernel
  have hreads : (s.ledger.node ⟨0⟩).decommission.progress = ⟨5, 3, 1, 2000⟩ := by decide +kernel
  refine ⟨by decide +kernel, hcurrent, hreads, ?_⟩
  rw [hcurrent, hreads, Scan.writtenBy_nil_iff]
  decide

end DatanodeLedger
