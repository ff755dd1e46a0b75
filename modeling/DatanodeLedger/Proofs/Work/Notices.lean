import DatanodeLedger.Proofs.Registry.Standing
import DatanodeLedger.Proofs.Work.Conservation

/-! Notices, which a coordinator asks for once for all of its nodes: a balancer bandwidth and new block keys. A node is
sent a notice with the first answer that carries more than lease recoveries, and then no more. -/
namespace DatanodeLedger

inductive Notice where
  /-- zero is no bandwidth to be sent -/
  | bandwidth (value : UInt64)
  | keyUpdate
  deriving DecidableEq, Repr

namespace Notice

/-- The step that asks for a notice. -/
def step (c : CoordinatorRef) : Notice → Step
  | bandwidth value => .setBandwidth c value
  | keyUpdate => .requestKeyUpdate c

/-- How it is sent. -/
def commands : Notice → List Command
  | bandwidth value => if value = 0 then [] else [.balancerBandwidth value]
  | keyUpdate => [.keyUpdate]

/-- Whether a command is a notice of this kind, for whatever bandwidth. -/
def isKind : Notice → Command → Bool
  | bandwidth _, .balancerBandwidth _ => true
  | keyUpdate, .keyUpdate => true
  | _, _ => false

/-- What of this kind waits for a node. -/
def due (node : Node) : Notice → List Command
  | bandwidth _ => (node.takeBandwidth.1.map Command.balancerBandwidth).toList
  | keyUpdate => if node.keyUpdate then [.keyUpdate] else []

/-- The steps that ask for a notice of this kind for a node, or by which others change or take it. -/
def Renews (n : NodeRef) (l : Ledger) : Notice → Step → Prop
  | bandwidth _, .setBandwidth k _ => n ∈ (l.coordinator k).nodes.values
  | bandwidth _, .changeNode m (.bandwidth _) => m = n
  | bandwidth _, .changeNode m .takeBandwidth => m = n
  | keyUpdate, .requestKeyUpdate k => n ∈ (l.coordinator k).nodes.values
  | keyUpdate, .changeNode m (.keyUpdate _) => m = n
  | keyUpdate, .changeNode m .takeKeyUpdate => m = n
  | _, _ => False

instance (n : NodeRef) (l : Ledger) (notice : Notice) (step : Step) : Decidable (notice.Renews n l step) := by
  rcases notice <;> rcases step
  case bandwidth.changeNode change => rcases change <;> unfold Renews <;> infer_instance
  case keyUpdate.changeNode change => rcases change <;> unfold Renews <;> infer_instance
  all_goals unfold Renews; infer_instance

variable {notice : Notice} {node node' : Node}

theorem due_congr (h : node'.standing = node.standing) : notice.due node' = notice.due node := by
  have hbandwidth : node'.bandwidth = node.bandwidth := congrArg Node.Standing.bandwidth h
  have hkey : node'.keyUpdate = node.keyUpdate := congrArg Node.Standing.keyUpdate h
  unfold due Node.takeBandwidth
  rw [hbandwidth, hkey]

theorem due_bandwidth {value : UInt64} (h : node.bandwidth = value) :
    (bandwidth value).due node = (bandwidth value).commands := by
  rw [due, commands, Node.takeBandwidth, h]
  split <;> rfl

/-- What an answer carries of a kind is what was due. -/
theorem filter_answer (batch : Option (List Transfer)) (blocks : Option (List Block)) (node : Node) :
    ((batch.map Command.replicate).toList ++ (blocks.map Command.invalidate).toList
      ++ (node.takeBandwidth.1.map Command.balancerBandwidth).toList
      ++ (if node.keyUpdate then [Command.keyUpdate] else [])).filter notice.isKind = notice.due node := by
  unfold due
  cases notice <;> cases batch <;> cases blocks <;> cases node.takeBandwidth.1 <;> cases node.keyUpdate <;> rfl

end Notice

namespace Step
variable {s : Service} {n : NodeRef} {notice : Notice}

/-- The heartbeats of a node that is alive and allowed, and for which no recovery is handed out. -/
def Delivers (n : NodeRef) (s : Service) : Step → Prop
  | heartbeat k uuid _ =>
    (s.ledger.coordinator k).nodes.find? uuid = some n ∧ (s.ledger.node n).disallowed = false ∧
      (s.ledger.node n).alive = true ∧
      ((s.ledger.node n).recoveries.poll (s.ledger.coordinator k).limits.maxRecoveryStreams.toNat).1 = none
  | _ => False

instance (n : NodeRef) (s : Service) (step : Step) : Decidable (step.Delivers n s) := by
  rcases step <;> unfold Delivers <;> infer_instance

/-- A notice that is asked for is due, whatever was due before. -/
theorem due_step {c : CoordinatorRef} (hs : Reachable s) (hn : n ∈ (s.ledger.coordinator c).nodes.values)
    (notice : Notice) : notice.due (((notice.step c).after s).ledger.node n) = notice.commands := by
  have henabled : (notice.step c).Enabled s.ledger := by
    cases notice <;> exact trivial
  rw [Notice.due_congr ((notice.step c).standing_after hs henabled n)]
  cases notice with
  | bandwidth value =>
    rw [Notice.step, turn, if_pos hn]
    exact Notice.due_bandwidth rfl
  | keyUpdate =>
    rw [Notice.step, turn, if_pos hn]
    rfl

/-- An answer that is withheld is an error, or has nothing but a demand to register or a batch of recoveries. -/
def Withheld (answer : Except Error (List Command)) : Prop :=
  (∃ e, answer = .error e) ∨ answer = .ok [.register] ∨ ∃ blocks, answer = .ok [.recover blocks]

theorem not_withheld (batch : Option (List Transfer)) (blocks : Option (List Block)) (bandwidth : Option UInt64)
    (keyUpdate : Bool) : ¬ Withheld (.ok ((batch.map Command.replicate).toList
      ++ (blocks.map Command.invalidate).toList ++ (bandwidth.map Command.balancerBandwidth).toList
      ++ (if keyUpdate then [Command.keyUpdate] else []))) := by
  unfold Withheld
  cases batch <;> cases blocks <;> cases bandwidth <;> cases keyUpdate <;> simp

theorem filter_withheld {answer : Except Error (List Command)} (h : Withheld answer) :
    (answer.toOption.getD []).filter notice.isKind = [] := by
  rcases h with ⟨e, rfl⟩ | rfl | ⟨blocks, rfl⟩ <;> cases notice <;> rfl

section heartbeat
variable {k : CoordinatorRef} {uuid : String} (beat : Heartbeat)

theorem sent_heartbeat {answer : Except Error (List Command)}
    (hfind : (s.ledger.coordinator k).nodes.find? uuid = some n)
    (he : ((Request.heartbeat k uuid beat).exec s).1 = .ok answer) :
    (heartbeat k uuid beat).sent n s = answer.toOption.getD [] := by
  rw [sent, if_pos hfind, he]
  cases answer <;> rfl

/-- A heartbeat that does not deliver gets an answer that is withheld, and all notices stay due. -/
theorem withheld_of_not_delivers (h : s.ledger.Enrolled)
    (hfind : (s.ledger.coordinator k).nodes.find? uuid = some n)
    (hnot : ¬ (heartbeat k uuid beat).Delivers n s) :
    ∃ answer, ((Request.heartbeat k uuid beat).exec s).1 = .ok answer ∧ Withheld answer ∧
      ∀ notice : Notice, notice.due ((heartbeat k uuid beat).turn s.ledger n) = notice.due (s.ledger.node n) := by
  have hmade := h.made k uuid n hfind
  cases hallowed : (s.ledger.node n).disallowed with
  | true =>
    obtain ⟨journal, he⟩ := Request.exec_heartbeat_of_disallowed hfind hallowed beat
    refine ⟨_, congrArg Prod.fst he, .inl ⟨_, rfl⟩, fun notice => ?_⟩
    rw [turn, if_neg fun hlive => Bool.noConfusion (hallowed.symm.trans hlive.2.1)]
  | false =>
    cases halive : (s.ledger.node n).alive with
    | false =>
      have he := Request.exec_heartbeat_of_dead hfind hallowed halive beat
      refine ⟨_, congrArg Prod.fst he, .inr (.inl rfl), fun notice => ?_⟩
      rw [turn, if_neg fun hlive => Bool.noConfusion (halive.symm.trans hlive.2.2)]
    | true =>
      obtain ⟨journal, he⟩ := Request.exec_heartbeat_of_live hfind hmade hallowed halive beat
      let known := (s.ledger.node n).receive s.ledger.now beat
      cases hpoll : (known.recoveries.poll (s.ledger.coordinator k).limits.maxRecoveryStreams.toNat).1 with
      | none => exact (hnot ⟨hfind, hallowed, halive, hpoll⟩).elim
      | some blocks =>
        have hserve := Node.serve_of_some hpoll
        refine ⟨_, congrArg Prod.fst he, .inr (.inr ⟨blocks, ?_⟩), fun notice => ?_⟩
        · rw [hserve]
        · rw [turn, if_pos ⟨hfind, hallowed, halive⟩, hserve]
          cases notice <;> rfl

/-- One that delivers gets all the notices that are due, and none is due any more. -/
theorem answered_of_delivers (h : s.ledger.Enrolled) (hdelivers : (heartbeat k uuid beat).Delivers n s) :
    ∃ commands, ((Request.heartbeat k uuid beat).exec s).1 = .ok (.ok commands) ∧ ¬ Withheld (.ok commands) ∧
      ∀ notice : Notice, commands.filter notice.isKind = notice.due (s.ledger.node n) ∧
        notice.due ((heartbeat k uuid beat).turn s.ledger n) = [] := by
  obtain ⟨hfind, hallowed, halive, hpoll⟩ := hdelivers
  obtain ⟨journal, he⟩ := Request.exec_heartbeat_of_live hfind (h.made k uuid n hfind) hallowed halive beat
  let known := (s.ledger.node n).receive s.ledger.now beat
  have hnone : (known.recoveries.poll (s.ledger.coordinator k).limits.maxRecoveryStreams.toNat).1 = none := hpoll
  obtain ⟨hcommands, hnode⟩ := Node.serve_of_none hnone
  refine ⟨_, congrArg Prod.fst he, ?_, fun notice => ⟨?_, ?_⟩⟩
  · rw [hcommands]
    exact not_withheld _ _ _ _
  · rw [hcommands]
    refine (Notice.filter_answer _ _ known).trans ?_
    cases notice <;> rfl
  · rw [turn, if_pos ⟨hfind, hallowed, halive⟩, hnode]
    cases notice <;> rfl

end heartbeat

/-- What a step does to a notice that it does not renew: either the notice stays due and is not sent, or it is sent
and is not due any more. -/
structure Forwards (n : NodeRef) (notice : Notice) (s : Service) (step : Step) : Prop where
  kept : ¬ step.Delivers n s → (step.sent n s).filter notice.isKind = [] ∧
    notice.due (step.turn s.ledger n) = notice.due (s.ledger.node n)
  sent : step.Delivers n s → (step.sent n s).filter notice.isKind = notice.due (s.ledger.node n) ∧
    notice.due (step.turn s.ledger n) = []

theorem forwards_heartbeat (h : s.ledger.Enrolled) (k : CoordinatorRef) (uuid : String) (beat : Heartbeat)
    (notice : Notice) : (heartbeat k uuid beat).Forwards n notice s where
  kept hnot := by
    by_cases hfind : (s.ledger.coordinator k).nodes.find? uuid = some n
    · obtain ⟨answer, he, hwithheld, hdue⟩ := withheld_of_not_delivers beat h hfind hnot
      rw [sent_heartbeat beat hfind he]
      exact ⟨filter_withheld hwithheld, hdue notice⟩
    · rw [Step.sent, if_neg hfind, turn, if_neg fun hlive => hfind hlive.1]
      exact ⟨rfl, rfl⟩
  sent hdelivers := by
    obtain ⟨commands, he, -, hsent⟩ := answered_of_delivers beat h hdelivers
    rw [sent_heartbeat beat hdelivers.1 he]
    exact hsent notice

/-- What a step other than a heartbeat makes of a node leaves due what was due, unless it renews the notice. -/
theorem Turned.due {step : Step} {node : Node} (h : Turned s.ledger n step node)
    (hkeep : ¬ notice.Renews n s.ledger step) (hbeat : ∀ k uuid beat, step ≠ heartbeat k uuid beat) :
    notice.due node = notice.due (s.ledger.node n) := by
  cases h with
  | served beat => exact (hbeat _ _ beat rfl).elim
  | changed change =>
    cases notice with
    | bandwidth value =>
      cases change with
      | bandwidth _ | takeBandwidth => exact (hkeep rfl).elim
      | _ => rfl
    | keyUpdate =>
      cases change with
      | keyUpdate _ | takeKeyUpdate => exact (hkeep rfl).elim
      | _ => rfl
  | bandwidth bandwidth hmem =>
    cases notice with
    | bandwidth value => exact (hkeep hmem).elim
    | keyUpdate => rfl
  | keyUpdate hmem =>
    cases notice with
    | bandwidth value => rfl
    | keyUpdate => exact (hkeep hmem).elim
  | _ =>
    cases notice with
    | bandwidth value => rfl
    | keyUpdate => rfl

theorem forwards (h : s.ledger.Enrolled) {step : Step} (hkeep : ¬ notice.Renews n s.ledger step) :
    step.Forwards n notice s := by
  cases step with
  | heartbeat k uuid beat => exact forwards_heartbeat h k uuid beat notice
  | _ =>
    -- no other step sends anything
    have hdue := (turned s.ledger n _).due hkeep nofun
    exact ⟨fun _ => ⟨rfl, hdue⟩, False.elim⟩

end Step
namespace Service
variable {s : Service} {n : NodeRef} {notice : Notice}

/-- As long as no heartbeat delivers, a notice stays due and is not sent. -/
theorem due_run (hs : Reachable s) {steps : List Step} (hsteps : s.Legal steps)
    (hkeep : s.Never (fun s step => notice.Renews n s.ledger step) steps)
    (hquiet : s.Never (fun s step => step.Delivers n s) steps) :
    (s.along (Step.sent n) steps).filter notice.isKind = [] ∧
      notice.due ((s.run steps).ledger.node n) = notice.due (s.ledger.node n) := by
  induction steps generalizing s with
  | nil => exact ⟨rfl, rfl⟩
  | cons step steps ih =>
    obtain ⟨hsent, hdue⟩ := (Step.forwards hs.enrolled hkeep.1).kept hquiet.1
    rw [← Notice.due_congr (step.standing_after hs hsteps.1 n)] at hdue
    obtain ⟨hlater, hsame⟩ := ih (hs.step hsteps.1) hsteps.2 hkeep.2 hquiet.2
    refine ⟨?_, hsame.trans hdue⟩
    rw [along, List.filter_append, hsent, hlater]
    rfl

/-- A notice that is not due is not sent, until it is renewed. -/
theorem spent_run (hs : Reachable s) (hspent : notice.due (s.ledger.node n) = []) {steps : List Step}
    (hsteps : s.Legal steps) (hkeep : s.Never (fun s step => notice.Renews n s.ledger step) steps) :
    (s.along (Step.sent n) steps).filter notice.isKind = [] := by
  induction steps generalizing s with
  | nil => rfl
  | cons step steps ih =>
    have hforwards := Step.forwards hs.enrolled hkeep.1
    have hstep : (step.sent n s).filter notice.isKind = [] ∧ notice.due (step.turn s.ledger n) = [] := by
      by_cases hdelivers : step.Delivers n s
      · exact ⟨(hforwards.sent hdelivers).1.trans hspent, (hforwards.sent hdelivers).2⟩
      · exact ⟨(hforwards.kept hdelivers).1, (hforwards.kept hdelivers).2.trans hspent⟩
    have hdue := (Notice.due_congr (step.standing_after hs hsteps.1 n)).trans hstep.2
    rw [along, List.filter_append, hstep.1, ih (hs.step hsteps.1) hdue hsteps.2 hkeep.2]
    rfl

end Service

/-- A notice reaches every node of its coordinator once.

Once it has been asked for, and until it is asked for again or others change it on the record of the node, no answer to
a heartbeat of the node carries a notice of its kind before one delivers, whatever else happens: work may be queued,
and the node may die, register again or have recoveries handed out. The first heartbeat that delivers, when the node is
alive and allowed and has no recoveries to hand out, gets the notice, with the bandwidth that was set last and exactly
once, or no such notice if that is zero; none after it does.

Answers that are errors, or that have nothing but a demand to register or a batch of recoveries, are those to heartbeats
that do not deliver. They carry no notice and leave all notices due. -/
theorem notices_sent_once {s : Service} (hs : Reachable s) {c : CoordinatorRef} {n : NodeRef}
    (hn : n ∈ (s.ledger.coordinator c).nodes.values) (notice : Notice) {before : List Step}
    (hbefore : s.Legal (notice.step c :: before))
    (hkeep : ((notice.step c).after s).Never (fun s step => notice.Renews n s.ledger step) before)
    (hquiet : ((notice.step c).after s).Never (fun s step => step.Delivers n s) before) :
    let told := (notice.step c).after s
    let waiting := told.run before
    (told.along (Step.sent n) before).filter notice.isKind = [] ∧
    (∀ k uuid beat later, (Step.heartbeat k uuid beat).Delivers n waiting →
      waiting.Legal (.heartbeat k uuid beat :: later) →
      ((Step.heartbeat k uuid beat).after waiting).Never (fun s step => notice.Renews n s.ledger step) later →
      (∃ commands, ((Request.heartbeat k uuid beat).exec waiting).1 = .ok (.ok commands) ∧
        commands.filter notice.isKind = notice.commands) ∧
      (((Step.heartbeat k uuid beat).after waiting).along (Step.sent n) later).filter notice.isKind = []) ∧
    (∀ k uuid beat, (waiting.ledger.coordinator k).nodes.find? uuid = some n →
      ∃ answer, ((Request.heartbeat k uuid beat).exec waiting).1 = .ok answer ∧
        (Step.Withheld answer ↔ ¬ (Step.heartbeat k uuid beat).Delivers n waiting) ∧
        (Step.Withheld answer → ∀ notice : Notice, (answer.toOption.getD []).filter notice.isKind = [] ∧
          notice.due (((Step.heartbeat k uuid beat).after waiting).ledger.node n) =
            notice.due (waiting.ledger.node n))) := by
  intro told waiting
  have htold : Reachable told := hs.step hbefore.1
  have hwaiting : Reachable waiting := htold.run hbefore.2
  obtain ⟨hnone, hsame⟩ := Service.due_run htold hbefore.2 hkeep hquiet
  have hdue : notice.due (waiting.ledger.node n) = notice.commands := hsame.trans (Step.due_step hs hn notice)
  refine ⟨hnone, fun k uuid beat later hdelivers hlater hkeepLater => ?_, fun k uuid beat hfind => ?_⟩
  · obtain ⟨commands, he, -, hsent⟩ := Step.answered_of_delivers beat hwaiting.enrolled hdelivers
    have hspent := (Notice.due_congr (Step.standing_after hwaiting hlater.1 n)).trans (hsent notice).2
    exact ⟨⟨commands, he, (hsent notice).1.trans hdue⟩,
      Service.spent_run (hwaiting.step hlater.1) hspent hlater.2 hkeepLater⟩
  · have henabled : (Step.heartbeat k uuid beat).Enabled waiting.ledger := trivial
    by_cases hdelivers : (Step.heartbeat k uuid beat).Delivers n waiting
    · obtain ⟨commands, he, hopen, -⟩ := Step.answered_of_delivers beat hwaiting.enrolled hdelivers
      exact ⟨.ok commands, he, ⟨fun h => (hopen h).elim, fun h => (h hdelivers).elim⟩, fun h => (hopen h).elim⟩
    · obtain ⟨answer, he, hwithheld, hkept⟩ :=
        Step.withheld_of_not_delivers beat hwaiting.enrolled hfind hdelivers
      refine ⟨answer, he, iff_of_true hwithheld hdelivers, fun _ notice => ⟨Step.filter_withheld hwithheld, ?_⟩⟩
      exact (Notice.due_congr (Step.standing_after hwaiting henabled n)).trans (hkept notice)

/-- A node registers, and a block is opened that will have to be recovered. -/
def enlistedForRecovery : List Step :=
  [.makeCoordinator {}, .register ⟨0⟩ (.ofAddress "n" "10.0.0.1" 9866) [{ id := "A" }],
    .makeOpenBlock { block := ⟨7, 70, 1⟩ }]

/-- It dies and registers again, and has a block to recover. -/
def mishaps : List Step :=
  [.addTransfer ⟨0⟩ ⟨1, 10, 1⟩ [⟨0⟩], .checkHeartbeats ⟨0⟩ 1000000, .heartbeat ⟨0⟩ "n" {},
    .register ⟨0⟩ (.ofAddress "n" "10.0.0.2" 9866) [], .addRecovery ⟨0⟩ ⟨0⟩, .heartbeat ⟨0⟩ "n" {}]

/-- The bandwidth that was set before all of that comes with the transfer, and not with the new keys after it. -/
theorem notices_sent_once_after_mishaps :
    let told := (({} : Service).run enlistedForRecovery).run [.setBandwidth ⟨0⟩ 7]
    let waiting := told.run mishaps
    let later : List Step := [.requestKeyUpdate ⟨0⟩, .heartbeat ⟨0⟩ "n" {}]
    (told.along (Step.sent ⟨0⟩) mishaps).map Command.name = ["register", "recover"] ∧
    (∃ commands, ((Request.heartbeat ⟨0⟩ "n" {}).exec waiting).1 = .ok (.ok commands) ∧
      commands.filter (Notice.bandwidth 7).isKind = [.balancerBandwidth 7]) ∧
    (waiting.along (Step.sent ⟨0⟩) (.heartbeat ⟨0⟩ "n" {} :: later)).map Command.name =
      ["replicate", "balancer_bandwidth", "key_update"] ∧
    (((Step.heartbeat ⟨0⟩ "n" {}).after waiting).along (Step.sent ⟨0⟩) later).filter (Notice.bandwidth 7).isKind = [] := by
  intro told waiting later
  have hs : Reachable (({} : Service).run enlistedForRecovery) := (Reachable.start 0).run (by decide +kernel)
  have hn : (⟨0⟩ : NodeRef) ∈ ((({} : Service).run enlistedForRecovery).ledger.coordinator ⟨0⟩).nodes.values := by
    decide +kernel
  have hbefore : (({} : Service).run enlistedForRecovery).Legal ((Notice.bandwidth 7).step ⟨0⟩ :: mishaps) := by
    decide +kernel
  have h := notices_sent_once hs hn (.bandwidth 7) hbefore (by decide +kernel) (by decide +kernel)
  obtain ⟨hbeat, hlater⟩ := h.2.1 ⟨0⟩ "n" {} later (by decide +kernel) (by decide +kernel) (by decide +kernel)
  exact ⟨by decide +kernel, hbeat, by decide +kernel, hlater⟩

end DatanodeLedger
