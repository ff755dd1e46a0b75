import DatanodeLedger.Proofs.Membership.Mirror

/-! A block on one volume of a node. A node is known by its uuid, and all requests but one keep to the law
that of the live volumes with one uuid at most one lists a given record. -/
namespace DatanodeLedger

namespace Ledger
variable {l l' : Ledger} {n : NodeRef} {id : String} {b old new : BlockRef} {u v : StorageRef}

/-- No record is on two live volumes with one uuid. -/
def OnePerNode (l : Ledger) : Prop :=
  ∀ b u v, l.isLive u = true → l.isLive v = true → (l.storage u).owner = (l.storage v).owner →
    b ∈ l.listed u → b ∈ l.listed v → u = v

/-- No record is on two volumes of a node that someone holds. -/
def OnePerHeldNode (l : Ledger) : Prop :=
  ∀ n ∈ l.heldNodes, ∀ u ∈ (l.node n).storages.values, ∀ v ∈ (l.node n).storages.values, ∀ b,
    b ∈ l.listed u → b ∈ l.listed v → u = v

instance : Decidable l.OnePerHeldNode :=
  inferInstanceAs (Decidable (∀ n ∈ _, ∀ u ∈ _, ∀ v ∈ _, ∀ b ∈ _, _ → _))

/-- Live volumes with one uuid are volumes of one node that someone holds. -/
def OneNodePerUuid (l : Ledger) : Prop :=
  ∀ u ∈ l.storageRefs.filter l.isLive, ∀ v ∈ l.storageRefs.filter l.isLive,
    (l.storage u).owner = (l.storage v).owner →
      ∃ n ∈ l.heldNodes, u ∈ (l.node n).storages.values ∧ v ∈ (l.node n).storages.values

instance : Decidable l.OneNodePerUuid :=
  inferInstanceAs (Decidable (∀ u ∈ _, ∀ v ∈ _, _ → ∃ n ∈ _, _))

theorem OnePerNode.held (h : l.OnePerNode) (hl : l.Coherent) : l.OnePerHeldNode := by
  intro n hn u hu v hv b hbu hbv
  have howner : (l.storage u).owner = (l.storage v).owner :=
    (hl.owned n u hu).2.trans (hl.owned n v hv).2.symm
  exact h b u v (isLive_of_mem hn hu) (isLive_of_mem hn hv) howner hbu hbv

/-- Where a uuid stands for one node, the two laws are the same. -/
theorem OnePerHeldNode.onePerNode (h : l.OnePerHeldNode) (huuid : l.OneNodePerUuid) : l.OnePerNode := by
  intro b u v hu hv howner hbu hbv
  have hmem : ∀ w, l.isLive w = true → b ∈ l.listed w → w ∈ l.storageRefs.filter l.isLive :=
    fun w hw hb => List.mem_filter.2 ⟨mem_storageRefs_of_mem_listed hb, hw⟩
  obtain ⟨n, hn, hnu, hnv⟩ := huuid u (hmem u hu hbu) v (hmem v hv hbv) howner
  exact h n hn u hnu v hnv b hbu hbv

theorem Thins.onePerNode (h : l.Thins l') (hl : l.Coherent) (hone : l.OnePerNode) : l'.OnePerNode := by
  obtain ⟨-, hgrows, hthin⟩ := h hl
  intro b u v hu hv howner hbu hbv
  have hbu₀ := hthin u b hbu
  have hbv₀ := hthin v b hbv
  have hlu := lt_size_of_mem_listed hbu₀
  have hlv := lt_size_of_mem_listed hbv₀
  rw [hgrows.owner u hlu, hgrows.owner v hlv] at howner
  exact hone b u v (hgrows.live u hlu hu) (hgrows.live v hlv hv) howner hbu₀ hbv₀

/-- A block may come onto a volume exactly if no other live volume with its uuid has it. -/
theorem Rewritten.onePerNode_iff (h : l.Attached v b l') (hone : l.OnePerNode) (hv : l.isLive v = true) :
    l'.OnePerNode ↔ ∀ u, u ≠ v → l.isLive u = true → (l.storage u).owner = (l.storage v).owner →
      b ∉ l.listed u := by
  have hself : b ∈ l'.listed v := h.listed_self ▸ List.mem_cons_self
  constructor
  · intro hone' u hne hu howner hb
    rw [← h.listed_of_ne u hne] at hb
    refine hne (hone' b u v ((h.live u).trans hu) ((h.live v).trans hv) ?_ hb hself)
    rw [h.owner, h.owner, howner]
  · intro hfree c x y hx hy howner hcx hcy
    rw [h.live] at hx hy
    rw [h.owner, h.owner] at howner
    by_cases hc : c = b
    · subst hc
      by_cases hxv : x = v <;> by_cases hyv : y = v
      · exact hxv.trans hyv.symm
      · subst hxv
        rw [h.listed_of_ne y hyv] at hcy
        exact (hfree y hyv hy howner.symm hcy).elim
      · subst hyv
        rw [h.listed_of_ne x hxv] at hcx
        exact (hfree x hxv hx howner hcx).elim
      · rw [h.listed_of_ne x hxv] at hcx
        rw [h.listed_of_ne y hyv] at hcy
        exact hone c x y hx hy howner hcx hcy
    · have hback : ∀ w, c ∈ l'.listed w → c ∈ l.listed w := by
        intro w hw
        by_cases hwv : w = v
        · subst hwv
          rw [h.listed_self] at hw
          exact (List.mem_cons.1 hw).resolve_left hc
        · rwa [h.listed_of_ne w hwv] at hw
      exact hone c x y hx hy howner (hback x hcx) (hback y hcy)

theorem Addition.onePerNode {answer : Except Fault Bool} (h : l.Addition n id b answer l')
    (hl : l.Coherent) (hn : n ∈ l.heldNodes) (hone : l.OnePerNode) : l'.OnePerNode := by
  cases h with
  | foreign e h => exact h.quiet.thins.onePerNode hl hone
  | unknown ht h => exact h.quiet.thins.onePerNode hl hone
  | present ht hs h => exact h.quiet.thins.onePerNode hl hone
  | refused ht hs ho h => exact h.quiet.thins.onePerNode hl hone
  | placed ht hs ho h =>
    obtain ⟨-, hlive, howner⟩ := hl.of_storageOf? hn ht
    refine (h.onePerNode_iff hone hlive).2 fun w _ hw hwo => ?_
    exact hl.of_holderOn?_eq_none hs hw (hwo.trans howner)
  | lost ht hs hne ho h => exact h.thins.onePerNode hl hone
  | @moved v t l₁ _ ht hs hne ho h h' =>
    obtain ⟨-, hlive, howner⟩ := hl.of_storageOf? hn ht
    obtain ⟨hbv, hvlive, hvowner⟩ := hl.of_holderOn? hs
    have hone₁ := h.thins.onePerNode hl hone
    refine (h'.onePerNode_iff hone₁ ((h.live t).trans hlive)).2 fun w _ hw hwo hb => ?_
    rw [h.live] at hw
    rw [h.owner, h.owner, howner] at hwo
    -- the volume that had the block was the only one of the node to have it
    by_cases hwv : w = v
    · subst hwv
      rw [h.listed_self, (hl.listed_nodup w).mem_erase_iff] at hb
      exact hb.1 rfl
    · rw [h.listed_of_ne w hwv] at hb
      exact hwv (hone b w v hw hvlive (hwo.trans hvowner.symm) hb hbv)

/-- The volume of a node that holds `old` is not the only one that `new` would be on if it took the place
of `old`. -/
def Doubles (l : Ledger) (n : NodeRef) (old new : BlockRef) : Prop :=
  ∃ v u, l.holderOn? old (l.node n).uuid = some v ∧ u ≠ v ∧ l.isLive u = true ∧
    (l.storage u).owner = (l.node n).uuid ∧ new ∈ l.listed u

theorem doubles_iff : l.Doubles n old new ↔
    ∃ v ∈ (l.holderOn? old (l.node n).uuid).toList, ∃ u ∈ l.storageRefs, u ≠ v ∧ l.isLive u = true ∧
      (l.storage u).owner = (l.node n).uuid ∧ new ∈ l.listed u := by
  constructor
  · rintro ⟨v, u, hv, hne, hu, howner, hb⟩
    exact ⟨v, Option.mem_toList.2 hv, u, mem_storageRefs_of_mem_listed hb, hne, hu, howner, hb⟩
  · rintro ⟨v, hv, u, -, hrest⟩
    exact ⟨v, u, Option.mem_toList.1 hv, hrest⟩

instance : Decidable (l.Doubles n old new) := decidable_of_iff _ doubles_iff.symm

theorem Replacement.onePerNode_iff {answer : Except Fault BlockRef}
    (h : l.Replacement n old new answer l') (hl : l.Coherent) (hone : l.OnePerNode) :
    l'.OnePerNode ↔ ¬ (answer = .ok new ∧ l.Doubles n old new) := by
  cases h with
  | foreign e h => exact ⟨fun _ hd => (by cases hd.1), fun _ => h.quiet.thins.onePerNode hl hone⟩
  | absent hs h => exact ⟨fun _ hd => (by cases hd.1), fun _ => h.quiet.thins.onePerNode hl hone⟩
  | refused hs h ho => exact ⟨fun _ hd => (by cases hd.1), fun _ => h.thins.onePerNode hl hone⟩
  | @replaced v l₁ _ hs h ho h' =>
    obtain ⟨-, hlive, howner⟩ := hl.of_holderOn? hs
    have hone₁ := h.thins.onePerNode hl hone
    rw [h'.onePerNode_iff hone₁ ((h.live v).trans hlive)]
    constructor
    · rintro hfree ⟨-, w, u, hw, hne, hu, huo, hb⟩
      rw [hs] at hw
      cases hw
      rw [← h.listed_of_ne u hne] at hb
      refine hfree u hne ((h.live u).trans hu) ?_ hb
      rw [h.owner, h.owner, huo, howner]
    · intro hd u hne hu huo hb
      rw [h.live] at hu
      rw [h.owner, h.owner, howner] at huo
      rw [h.listed_of_ne u hne] at hb
      exact hd ⟨rfl, v, u, hs, hne, hu, huo, hb⟩

end Ledger

/-- A replacement that returns and leaves the new block on two volumes. -/
def Step.Doubles (s : Service) : Step → Prop
  | .replaceBlock g n old new =>
    ((Request.replaceBlock g n old new).exec s).1 = .ok new ∧ s.ledger.Doubles n old new
  | _ => False

variable {s : Service}

theorem Step.onePerNode_iff (step : Step) (hl : s.ledger.Coherent) (h : step.Enabled s.ledger)
    (hone : s.ledger.OnePerNode) : (step.after s).ledger.OnePerNode ↔ ¬ step.Doubles s := by
  by_cases hplaces : step.Places
  · cases step with
    | addBlock g n id b =>
      have hadd := Request.exec_addBlock hl h.1 h.2 g id
      exact ⟨fun _ hd => hd, fun _ => hadd.onePerNode hl h.1 hone⟩
    | replaceBlock g n old new =>
      exact (Request.exec_replaceBlock hl h.2.2 g n old).onePerNode_iff hl hone
    | addReportedBlock c uuid id b =>
      have hadd := Request.exec_addReportedBlock hl h c uuid id
      refine ⟨fun _ hd => hd, fun _ => ?_⟩
      unfold after
      generalize ((Request.addReportedBlock c uuid id b).exec s).2.ledger = l' at hadd ⊢
      generalize ((Request.addReportedBlock c uuid id b).exec s).1 = answer at hadd
      cases hadd with
      | unregistered hn => exact hone
      | unknown hn ht => exact hone
      | added hn hadd => exact hadd.onePerNode hl (Ledger.mem_heldNodes_of_find? hn) hone
    | _ => exact hplaces.elim
  · refine ⟨fun _ hd => ?_, fun _ => (step.thins_after h hplaces).onePerNode hl hone⟩
    cases step with
    | replaceBlock g n old new => exact hplaces trivial
    | _ => exact hd

/-- What coherence makes of two properties holds throughout legal steps if they do. -/
theorem Service.Throughout.of_coherent {P P' Q : Service → Prop}
    (hQ : ∀ s, s.ledger.Coherent → P s → P' s → Q s) {steps : List Step} (hl : s.ledger.Coherent)
    (hsteps : s.Legal steps) (h : s.Throughout P steps) (h' : s.Throughout P' steps) :
    s.Throughout Q steps := by
  induction steps generalizing s with
  | nil => exact hQ s hl h h'
  | cons step steps ih =>
    exact ⟨hQ s hl h.1 h'.1, ih (step.coherent_after hl hsteps.1) hsteps.2 h.2 h'.2⟩

theorem Service.onePerNode_iff {steps : List Step} (hl : s.ledger.Coherent) (hsteps : s.Legal steps)
    (hone : s.ledger.OnePerNode) :
    s.Throughout (fun s => s.ledger.OnePerNode) steps ↔ s.Never (fun s step => step.Doubles s) steps := by
  induction steps generalizing s with
  | nil => exact ⟨fun _ => trivial, fun _ => hone⟩
  | cons step steps ih =>
    obtain ⟨hstep, hrest⟩ := hsteps
    have hiff := step.onePerNode_iff hl hstep hone
    have hl' := step.coherent_after hl hstep
    constructor
    · rintro ⟨-, hthrough⟩
      have hone' := hthrough.head
      exact ⟨hiff.1 hone', (ih hl' hrest hone').1 hthrough⟩
    · rintro ⟨hnot, hnever⟩
      exact ⟨hone, (ih hl' hrest (hiff.2 hnot)).2 hnever⟩

/-- In a run that starts without records, every record is on at most one volume of every node throughout
exactly if no replacement that returns brings in a block that another volume of the node holds. The
volumes of a node are those with its uuid; where a uuid stands for one node, they are those it keeps. -/
theorem one_volume_per_node (clock : Int) {steps : List Step}
    (h : Service.Legal { ledger := { clock } } steps) :
    (Service.Throughout (fun s => s.ledger.OnePerNode) { ledger := { clock } } steps ↔
      Service.Never (fun s step => step.Doubles s) { ledger := { clock } } steps) ∧
    (Service.Never (fun s step => step.Doubles s) { ledger := { clock } } steps →
      Service.Throughout (fun s => s.ledger.OnePerHeldNode) { ledger := { clock } } steps) ∧
    (Service.Throughout (fun s => s.ledger.OneNodePerUuid) { ledger := { clock } } steps →
      (Service.Throughout (fun s => s.ledger.OnePerHeldNode) { ledger := { clock } } steps ↔
        Service.Never (fun s step => step.Doubles s) { ledger := { clock } } steps)) := by
  have hl := Ledger.coherent_start clock
  have hone : Ledger.OnePerNode { clock } := fun b u v _ _ _ hb _ => (List.not_mem_nil hb).elim
  have hiff := Service.onePerNode_iff (s := { ledger := { clock } }) hl h hone
  have hheld : Service.Never (fun s step => step.Doubles s) { ledger := { clock } } steps →
      Service.Throughout (fun s => s.ledger.OnePerHeldNode) { ledger := { clock } } steps := by
    intro hnever
    have hthrough := hiff.2 hnever
    exact hthrough.of_coherent (fun _ hl hone _ => hone.held hl) hl h hthrough
  refine ⟨hiff, hheld, fun huuid => ⟨fun hthrough => hiff.1 ?_, hheld⟩⟩
  exact hthrough.of_coherent (fun _ _ hone huuid => hone.onePerNode huuid) hl h huuid

/-- A block takes the place of another on the first volume of a node and moves to the second. -/
def movingSteps : List Step :=
  [.makeBlock ⟨1, 10, 1⟩ 3, .makeBlock ⟨2, 20, 1⟩ 3,
    .makeNode (.ofAddress "n" "10.0.0.1" 9866) "/default-rack",
    .updateStorage ⟨0⟩ { id := "A" }, .updateStorage ⟨0⟩ { id := "B" },
    .addBlock ⟨⟨0⟩⟩ ⟨0⟩ "A" ⟨0⟩, .replaceBlock ⟨⟨0⟩⟩ ⟨0⟩ ⟨0⟩ ⟨1⟩, .addBlock ⟨⟨0⟩⟩ ⟨0⟩ "B" ⟨1⟩]

theorem one_volume_per_node_moving :
    Service.Legal {} movingSteps ∧
    Service.Never (fun s step => step.Doubles s) {} movingSteps ∧
    Service.Throughout (fun s => s.ledger.OnePerNode) {} movingSteps ∧
    Service.Throughout (fun s => s.ledger.OneNodePerUuid) {} movingSteps ∧
    Service.Throughout (fun s => s.ledger.OnePerHeldNode) {} movingSteps := by
  have h : Service.Legal {} movingSteps := by decide +kernel
  have hnever : Service.Never (fun s step => step.Doubles s) {} movingSteps := by
    -- only the replacement could put a block on two volumes
    refine ⟨id, id, id, id, id, id, fun hd => ?_, id, trivial⟩
    exact absurd hd.2 (by decide +kernel)
  have huuid : Service.Throughout (fun s => s.ledger.OneNodePerUuid) {} movingSteps := by decide +kernel
  obtain ⟨hiff, -, hheld⟩ := one_volume_per_node 0 h
  exact ⟨h, hnever, hiff.2 hnever, huuid, (hheld huuid).2 hnever⟩

/-- Two blocks on two volumes of a node, of which one takes the place of the other. -/
def doublingSteps : List Step :=
  [.makeBlock ⟨1, 10, 1⟩ 3, .makeBlock ⟨2, 20, 1⟩ 3,
    .makeNode (.ofAddress "n" "10.0.0.1" 9866) "/default-rack",
    .updateStorage ⟨0⟩ { id := "A" }, .updateStorage ⟨0⟩ { id := "B" },
    .addBlock ⟨⟨0⟩⟩ ⟨0⟩ "A" ⟨0⟩, .addBlock ⟨⟨0⟩⟩ ⟨0⟩ "B" ⟨1⟩, .replaceBlock ⟨⟨0⟩⟩ ⟨0⟩ ⟨0⟩ ⟨1⟩]

/-- The block that was brought in is on both volumes, though no other node has their uuid. -/
theorem replacement_doubles_block :
    let s := ({} : Service).run doublingSteps
    Reachable s ∧ ⟨0⟩ ∈ s.ledger.heldNodes ∧ (s.ledger.node ⟨0⟩).storages.values = [⟨0⟩, ⟨1⟩] ∧
    s.ledger.listed ⟨0⟩ = [⟨1⟩] ∧ s.ledger.listed ⟨1⟩ = [⟨1⟩] ∧
    s.ledger.OneNodePerUuid ∧ ¬ s.ledger.OnePerHeldNode := by
  intro s
  refine ⟨(Reachable.start 0).run (by decide +kernel), ?_⟩
  decide +kernel

end DatanodeLedger
