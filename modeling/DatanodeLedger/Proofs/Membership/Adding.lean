import DatanodeLedger.Proofs.Membership.Mirror

/-! What an addition changes, to the point. It is one insertion, after one removal if the node has the
block already; and since the removal comes first, a refusal can cost the block its place. -/
namespace DatanodeLedger

namespace Ledger
variable {l l' : Ledger} {n : NodeRef} {id : String} {b : BlockRef}

/-- All lists and all back-references are as they were. -/
structure Unmoved (l l' : Ledger) : Prop where
  listed : ∀ v, l'.listed v = l.listed v
  holders : ∀ c, (l'.block c).holders = (l.block c).holders
  live : ∀ c, l'.holders c = l.holders c

theorem Alike.unmoved (h : l.Alike l') : l.Unmoved l' :=
  ⟨h.listed, fun c => congrArg BlockRecord.holders (h.block c), h.holders⟩

/-- The node has the block on another volume than `id`, and `id` holds a record with its id. -/
def Contested (l : Ledger) (n : NodeRef) (id : String) (b : BlockRef) : Prop :=
  ∃ v t, l.holderOn? b (l.node n).uuid = some v ∧ l.storageOf? n id = some t ∧ v ≠ t ∧ l.Occupied t b

/-- What a refusal changes: nothing, unless the block is contested. Then it is off the volume that held
it, and that is all. -/
structure Refusal (l : Ledger) (n : NodeRef) (id : String) (b : BlockRef) (l' : Ledger) : Prop where
  unmoved_iff : l.Unmoved l' ↔ ¬ l.Contested n id b
  contested : l.Contested n id b → ∃ v, l.holderOn? b (l.node n).uuid = some v ∧ l.Detached v b l'

/-- What an insertion into the list of `t` changes: the block comes to the front of it, and off the
volume `v?` that was found to hold it. It is then on no other volume of the node if none but that one
had it. -/
structure Insertion (l : Ledger) (n : NodeRef) (t : StorageRef) (v? : Option StorageRef) (b : BlockRef)
    (l' : Ledger) : Prop where
  fresh : b ∉ l.listed t
  front : l'.listed t = b :: l.listed t
  source : ∀ v, v? = some v → v ≠ t ∧ b ∈ l.listed v ∧ l'.listed v = (l.listed v).erase b
  others : ∀ v, v ≠ t → v? ≠ some v → l'.listed v = l.listed v
  holders : (l'.holders b).Perm (t :: (l.holders b).filter fun v => v? ≠ some v)
  holders_of_ne : ∀ c, c ≠ b → (l'.block c).holders = (l.block c).holders
  alone_iff : (∀ v ∈ (l.node n).storages.values, v ≠ t → b ∉ l'.listed v) ↔
    ∀ v ∈ (l.node n).storages.values, v ≠ t → v? ≠ some v → b ∉ l.listed v

/-- A refused or a successful addition to the volume `id` of a node, with what it has changed. -/
def Accounted (l : Ledger) (n : NodeRef) (id : String) (b : BlockRef) (added : Bool) (l' : Ledger) : Prop :=
  (added = false → l.Refusal n id b l') ∧
  (added = true → ∃ t, l.storageOf? n id = some t ∧
    l.Insertion n t (l.holderOn? b (l.node n).uuid) b l')

private theorem refusal_of_alike (h : l.Alike l') (hc : ¬ l.Contested n id b) : l.Refusal n id b l' :=
  ⟨⟨fun _ => hc, fun _ => h.unmoved⟩, fun h => (hc h).elim⟩

theorem Addition.refusal (h : l.Addition n id b (.ok false) l') (hl : l.Coherent) :
    l.Refusal n id b l' := by
  cases h with
  | unknown ht h =>
    refine refusal_of_alike h ?_
    rintro ⟨v, t, -, ht', -⟩
    rw [ht] at ht'
    cases ht'
  | @present t _ ht hs h =>
    refine refusal_of_alike h ?_
    rintro ⟨v, t', hs', ht', hne, -⟩
    rw [ht] at ht'
    rw [hs] at hs'
    cases ht'
    cases hs'
    exact hne rfl
  | refused ht hs ho h =>
    refine refusal_of_alike h ?_
    rintro ⟨v, t, hs', -⟩
    rw [hs] at hs'
    cases hs'
  | @lost v t _ ht hs hne ho h =>
    have hc : l.Contested n id b := ⟨v, t, hs, ht, hne, ho⟩
    refine ⟨⟨fun hun => ?_, fun hn => (hn hc).elim⟩, fun _ => ⟨v, hs, h⟩⟩
    -- the list of the volume has lost the block, so it is not what it was
    have hb := (hl.of_holderOn? hs).1
    have hnd := hl.listed_nodup v
    have herase : (l.listed v).erase b = l.listed v := h.listed_self.symm.trans (hun.listed v)
    rw [← herase, hnd.mem_erase_iff] at hb
    exact (hb.1 rfl).elim

/-- Back-references follow the lists. -/
private theorem insertion_of_lists {t : StorageRef} {v? : Option StorageRef} (hl : l.Coherent)
    (hl' : l'.Coherent) (hlive : ∀ v, l'.isLive v = l.isLive v) (ht : l.isLive t = true)
    (fresh : b ∉ l.listed t) (front : l'.listed t = b :: l.listed t)
    (source : ∀ v, v? = some v → v ≠ t ∧ b ∈ l.listed v ∧ l'.listed v = (l.listed v).erase b)
    (others : ∀ v, v ≠ t → v? ≠ some v → l'.listed v = l.listed v)
    (holders_of_ne : ∀ c, c ≠ b → (l'.block c).holders = (l.block c).holders) :
    l.Insertion n t v? b l' := by
  have hsource : ∀ v, v? = some v → b ∉ l'.listed v := by
    intro v hv hb
    rw [(source v hv).2.2, (hl.listed_nodup v).mem_erase_iff] at hb
    exact hb.1 rfl
  have hmem : ∀ v, v ≠ t → (b ∈ l'.listed v ↔ v? ≠ some v ∧ b ∈ l.listed v) := by
    intro v hv
    by_cases hvs : v? = some v
    · exact ⟨fun hb => (hsource v hvs hb).elim, fun hb => (hb.1 hvs).elim⟩
    · rw [others v hv hvs]
      exact ⟨fun hb => ⟨hvs, hb⟩, fun hb => hb.2⟩
  refine ⟨fresh, front, source, others, ?_, holders_of_ne, ?_⟩
  · have hnew : t ∉ (l.holders b).filter fun v => v? ≠ some v := by
      intro hm
      exact fresh (hl.mem_holders.1 (List.mem_of_mem_filter hm)).2
    have hnd : (t :: (l.holders b).filter fun v => v? ≠ some v).Nodup :=
      List.nodup_cons.2 ⟨hnew, (hl.holders_nodup b).filter _⟩
    refine (List.perm_ext_iff_of_nodup (hl'.holders_nodup b) hnd).2 fun v => ?_
    rw [hl'.mem_holders, hlive v, List.mem_cons, List.mem_filter, hl.mem_holders, decide_eq_true_iff]
    by_cases hv : v = t
    · subst hv
      rw [front]
      exact ⟨fun _ => .inl rfl, fun _ => ⟨ht, List.mem_cons_self⟩⟩
    · rw [hmem v hv]
      constructor
      · rintro ⟨hvl, hvs, hb⟩
        exact .inr ⟨⟨hvl, hb⟩, hvs⟩
      · rintro (rfl | ⟨⟨hvl, hb⟩, hvs⟩)
        · exact (hv rfl).elim
        · exact ⟨hvl, hvs, hb⟩
  · constructor
    · intro h v hv hne hvs hb
      exact h v hv hne ((hmem v hne).2 ⟨hvs, hb⟩)
    · intro h v hv hne hb
      obtain ⟨hvs, hb⟩ := (hmem v hne).1 hb
      exact h v hv hne hvs hb

theorem Addition.insertion (h : l.Addition n id b (.ok true) l') (hl : l.Coherent)
    (hn : n ∈ l.heldNodes) :
    ∃ t, l.storageOf? n id = some t ∧ l.Insertion n t (l.holderOn? b (l.node n).uuid) b l' := by
  cases h with
  | @placed t _ ht hs ho h =>
    have hlive := (hl.of_storageOf? hn ht).2.1
    refine ⟨t, ht, insertion_of_lists hl h.coherent h.live hlive (fun hb => ho (occupied_of_mem hb))
      h.listed_self (fun v hv => ?_) (fun v hv _ => h.listed_of_ne v hv) h.holders_of_ne⟩
    rw [hs] at hv
    cases hv
  | @moved v t l₁ _ ht hs hne ho h₁ h =>
    have hlive := (hl.of_storageOf? hn ht).2.1
    have hself : l'.listed t = b :: l.listed t := by
      rw [h.listed_self, h₁.listed_of_ne t (Ne.symm hne)]
    refine ⟨t, ht, insertion_of_lists hl h.coherent (fun w => (h.live w).trans (h₁.live w)) hlive
      (fun hb => ho (occupied_of_mem hb)) hself (fun w hw => ?_) (fun w hw hws => ?_) fun c hc => ?_⟩
    · rw [hs] at hw
      cases hw
      exact ⟨hne, (hl.of_holderOn? hs).1, (h.listed_of_ne v hne).trans h₁.listed_self⟩
    · have hwv : w ≠ v := fun he => hws (he ▸ hs)
      exact (h.listed_of_ne w hw).trans (h₁.listed_of_ne w hwv)
    · exact (h.holders_of_ne c hc).trans (h₁.holders_of_ne c hc)

theorem Addition.accounted {added : Bool} (h : l.Addition n id b (.ok added) l') (hl : l.Coherent)
    (hn : n ∈ l.heldNodes) : l.Accounted n id b added l' := by
  refine ⟨fun he => ?_, fun he => ?_⟩
  · subst he
    exact h.refusal hl
  · subst he
    exact h.insertion hl hn

end Ledger

variable {s : Service} {b : BlockRef}

/-- An addition that is refused leaves everything as it was exactly if the block was not contested; one
that succeeds has put the block in front of the list, taken it off the volume that was found to hold it,
and changed nothing else. This is so for additions to a node and for reported blocks. -/
theorem addition_accounted (h : Reachable s) (hb : b.index < s.ledger.blocks.size) (id : String) :
    (∀ n ∈ s.ledger.heldNodes, ∀ g added, ((Request.addBlock g n id b).exec s).1 = .ok added →
      s.ledger.Accounted n id b added ((Request.addBlock g n id b).exec s).2.ledger) ∧
    (∀ c uuid added, ((Request.addReportedBlock c uuid id b).exec s).1 = .ok (.ok added) →
      ∃ n, (s.ledger.coordinator c).nodes.find? uuid = some n ∧
        s.ledger.Accounted n id b added ((Request.addReportedBlock c uuid id b).exec s).2.ledger) := by
  have hl := h.coherent
  refine ⟨fun n hn g added he => ?_, fun c uuid added he => ?_⟩
  · have hadd := Request.exec_addBlock hl hn hb g id
    rw [he] at hadd
    exact hadd.accounted hl hn
  · have hadd := Request.exec_addReportedBlock hl hb c uuid id
    rw [he] at hadd
    generalize ((Request.addReportedBlock c uuid id b).exec s).2.ledger = l' at hadd ⊢
    generalize hanswer : (Except.ok (Except.ok added) : Except Fault (Except Error Bool)) = answer at hadd
    cases hadd with
    | unregistered hn => cases hanswer
    | unknown hn ht => cases hanswer
    | @added n answer _ hn hadd =>
      cases answer with
      | error e => cases hanswer
      | ok added' =>
        cases hanswer
        exact ⟨n, hn, hadd.accounted hl (Ledger.mem_heldNodes_of_find? hn)⟩

/-- Two records with one id, each on a volume of its own. -/
def contestedSteps : List Step :=
  [.makeCoordinator {}, .makeBlock ⟨1, 10, 1⟩ 3, .makeBlock ⟨1, 20, 2⟩ 3,
    .register ⟨0⟩ (.ofAddress "n" "10.0.0.1" 9866) [{ id := "A" }, { id := "B" }],
    .addReportedBlock ⟨0⟩ "n" "A" ⟨0⟩, .addReportedBlock ⟨0⟩ "n" "B" ⟨1⟩]

theorem addition_accounted_contested :
    let s := ({} : Service).run contestedSteps
    Reachable s ∧
    s.ledger.Accounted ⟨0⟩ "B" ⟨0⟩ false ((Request.addBlock ⟨⟨0⟩⟩ ⟨0⟩ "B" ⟨0⟩).exec s).2.ledger ∧
    ∃ n, (s.ledger.coordinator ⟨0⟩).nodes.find? "n" = some n ∧ s.ledger.Accounted n "B" ⟨0⟩ false
      ((Request.addReportedBlock ⟨0⟩ "n" "B" ⟨0⟩).exec s).2.ledger := by
  intro s
  have h : Reachable s := (Reachable.start 0).run (by decide +kernel)
  have hb : (⟨0⟩ : BlockRef).index < s.ledger.blocks.size := by decide +kernel
  obtain ⟨hadd, hreport⟩ := addition_accounted h hb "B"
  have hn : (⟨0⟩ : NodeRef) ∈ s.ledger.heldNodes := by decide +kernel
  refine ⟨h, hadd ⟨0⟩ hn ⟨⟨0⟩⟩ false ?_, hreport ⟨0⟩ "n" false ?_⟩
  · rfl
  · rfl

/-- The refused addition has taken the block off the only list that it was on. -/
theorem refused_addition_loses_block :
    let s := ({} : Service).run contestedSteps
    let added := (Request.addReportedBlock ⟨0⟩ "n" "B" ⟨0⟩).exec s
    Reachable s ∧ added.1.toOption.bind Except.toOption = some false ∧
    s.ledger.listed ⟨0⟩ = [⟨0⟩] ∧ s.ledger.holders ⟨0⟩ = [⟨0⟩] ∧
    added.2.ledger.listed ⟨0⟩ = [] ∧ added.2.ledger.holders ⟨0⟩ = [] := by
  intro s added
  refine ⟨(Reachable.start 0).run (by decide +kernel), ?_⟩
  decide +kernel

end DatanodeLedger
