import DatanodeLedger.Proofs.Membership.Mirror
import DatanodeLedger.Proofs.Registry.Outcomes

/-! The gauges of a coordinator. A gauge rises and falls with what it stands for, and is never lowered at zero, as
long as nobody else decides which nodes are alive. -/
namespace DatanodeLedger

namespace Ledger
variable {l l' l'' : Ledger} {c k : CoordinatorRef} {n : NodeRef}

/-- What a gauge shows. -/
def reading (l : Ledger) (c : CoordinatorRef) (g : Gauge) : Nat := ((l.coordinator c).metrics.gauge g).toNat

/-- How often a gauge of a coordinator was to be lowered that stood at zero. -/
def underflows (l : Ledger) (c : CoordinatorRef) : Nat := (l.coordinator c).metrics.underflows

/-- What a gauge stands for: the nodes of a registry, or those of them that are alive. -/
def population (l : Ledger) (c : CoordinatorRef) : Gauge → Nat
  | .registeredDatanodes => (l.coordinator c).nodes.size
  | .liveDatanodes => (l.coordinator c).nodes.values.countP fun n => (l.node n).alive

/-- The registry and the gauges of a coordinator are as they were, and its nodes are as alive. -/
structure Untouched (c : CoordinatorRef) (l l' : Ledger) : Prop where
  registry : (l'.coordinator c).nodes = (l.coordinator c).nodes
  gauge : ∀ g, (l'.coordinator c).metrics.gauge g = (l.coordinator c).metrics.gauge g
  underflows : l'.underflows c = l.underflows c
  alive : ∀ n ∈ (l.coordinator c).nodes.values, (l'.node n).alive = (l.node n).alive

namespace Untouched

theorem trans (h : l.Untouched c l') (h' : l'.Untouched c l'') : l.Untouched c l'' where
  registry := h'.registry.trans h.registry
  gauge g := (h'.gauge g).trans (h.gauge g)
  underflows := h'.underflows.trans h.underflows
  alive n hn := (h'.alive n (h.registry ▸ hn)).trans (h.alive n hn)

theorem of_steady {heard : NodeRef → Prop} (h : l.Steady heard l') (c : CoordinatorRef) : l.Untouched c l' :=
  ⟨h.registry c, h.gauge c, h.underflows c, fun n _ => h.alive n⟩

theorem of_coordinator (hc : l'.coordinator c = l.coordinator c)
    (halive : ∀ n ∈ (l.coordinator c).nodes.values, (l'.node n).alive = (l.node n).alive) : l.Untouched c l' :=
  ⟨congrArg Coordinator.nodes hc, fun g => congrArg (fun k => k.metrics.gauge g) hc,
    congrArg (fun k => k.metrics.underflows) hc, halive⟩

theorem of_other (hnodes : l'.nodes = l.nodes) (hc : l'.coordinator c = l.coordinator c) : l.Untouched c l' := by
  have hnode : ∀ n, l'.node n = l.node n := fun n => by unfold node; rw [hnodes]
  exact of_coordinator hc fun n _ => congrArg Node.alive (hnode n)

theorem refl (l : Ledger) (c : CoordinatorRef) : l.Untouched c l := of_other rfl rfl

variable (h : l.Untouched c l')
include h

theorem reading (g : Gauge) : l'.reading c g = l.reading c g := congrArg UInt64.toNat (h.gauge g)

theorem population (g : Gauge) : l'.population c g = l.population c g := by
  cases g with
  | registeredDatanodes => exact congrArg Table.size h.registry
  | liveDatanodes =>
    unfold Ledger.population
    rw [h.registry]
    exact List.countP_congr fun n hn => by rw [h.alive n hn]

end Untouched

/-- Gauges rise together with what they stand for. -/
structure Raises (c : CoordinatorRef) (up : Gauge → Nat) (l l' : Ledger) : Prop where
  reading : ∀ g, l'.reading c g = (l.reading c g + up g) % UInt64.size
  population : ∀ g, l'.population c g = l.population c g + up g
  underflows : l'.underflows c = l.underflows c

/-- Gauges fall together with what they stand for, though not below zero; and as far as they show enough, none is
lowered at zero. -/
structure Lowers (c : CoordinatorRef) (down : Gauge → Nat) (l l' : Ledger) : Prop where
  reading : ∀ g, l'.reading c g = l.reading c g - down g
  population : ∀ g, l'.population c g + down g = l.population c g
  underflows : (∀ g, down g ≤ l.reading c g) → l'.underflows c = l.underflows c

theorem Untouched.raises (h : l.Untouched c l') {up : Gauge → Nat} (hup : ∀ g, up g = 0) :
    l.Raises c up l' where
  reading g := by
    rw [h.reading, hup, Nat.add_zero]
    exact (Nat.mod_eq_of_lt (UInt64.toNat_lt _)).symm
  population g := by rw [h.population, hup, Nat.add_zero]
  underflows := h.underflows

theorem Untouched.lowers (h : l.Untouched c l') {down : Gauge → Nat} (hdown : ∀ g, down g = 0) :
    l.Lowers c down l' where
  reading g := by rw [h.reading, hdown, Nat.sub_zero]
  population g := by rw [h.population, hdown, Nat.add_zero]
  underflows _ := h.underflows

theorem Raises.trans {up up' : Gauge → Nat} (h : l.Raises c up l') (h' : l'.Raises c up' l'') :
    l.Raises c (fun g => up g + up' g) l'' where
  reading g := by
    rw [h'.reading, h.reading, Nat.mod_add_mod, Nat.add_assoc]
  population g := by
    have := h.population g
    have := h'.population g
    omega
  underflows := h'.underflows.trans h.underflows

theorem Lowers.trans {down down' : Gauge → Nat} (h : l.Lowers c down l') (h' : l'.Lowers c down' l'') :
    l.Lowers c (fun g => down g + down' g) l'' where
  reading g := by
    rw [h'.reading, h.reading, Nat.sub_sub]
  population g := by
    have := h.population g
    have := h'.population g
    omega
  underflows hdown := by
    have hfirst : ∀ g, down g ≤ l.reading c g := fun g => Nat.le_trans (Nat.le_add_right _ _) (hdown g)
    have hsecond : ∀ g, down' g ≤ l'.reading c g := by
      intro g
      have := hdown g
      rw [h.reading]
      omega
    exact (h'.underflows hsecond).trans (h.underflows hfirst)

/-- One item aside, a count is that of the others. -/
private theorem countP_of_perm {α : Type} {as rest : List α} {a : α} (hperm : as.Perm (a :: rest)) (hnd : as.Nodup)
    {p q : α → Bool} (hpq : ∀ x, x ≠ a → q x = p x) : as.countP p = rest.countP q + if p a then 1 else 0 := by
  obtain ⟨ha, -⟩ := List.nodup_cons.1 (hperm.nodup_iff.1 hnd)
  have hrest : rest.countP p = rest.countP q :=
    List.countP_congr fun x hx => by rw [hpq x fun h => ha (h ▸ hx)]
  rw [hperm.countP_eq, List.countP_cons, hrest]

private theorem gauge_lower (m : Metrics) (g g' : Gauge) :
    (m.lower g).gauge g' = if g' = g then Word.saturatingSub (m.gauge g) 1 else m.gauge g' := by
  cases g <;> cases g' <;> rfl

/-- To lower a gauge at zero is noted, and to lower any other is not. -/
private theorem underflows_lower (m : Metrics) (g : Gauge) : (m.lower g).underflows = m.underflows ↔ m.gauge g ≠ 0 := by
  unfold Metrics.lower
  split
  case isTrue hzero => simp [hzero]
  case isFalse hsome => simp [hsome]

private theorem gauge_raise (m : Metrics) (g g' : Gauge) :
    (m.raise g).gauge g' = if g' = g then m.gauge g + 1 else m.gauge g' := by
  cases g <;> cases g' <;> rfl

/-- A gauge that is lowered shows one less, but not less than zero. -/
private theorem reading_lower {g₀ : Gauge}
    (hlower : (l'.coordinator c).metrics = (l.coordinator c).metrics.lower g₀) (g : Gauge) :
    l'.reading c g = l.reading c g - if g = g₀ then 1 else 0 := by
  unfold reading
  rw [hlower, gauge_lower]
  split
  case isTrue hg =>
    rw [hg, Word.toNat_saturatingSub]
    rfl
  case isFalse => rfl

private theorem gauge_ne_zero {g : Gauge} (hsome : 1 ≤ l.reading c g) : (l.coordinator c).metrics.gauge g ≠ 0 := by
  intro hzero
  unfold reading at hsome
  rw [hzero] at hsome
  exact Nat.not_lt_zero 0 hsome

/-- A gauge that shows something is not at zero when it is lowered. -/
private theorem underflows_of_lower {g₀ : Gauge} (hlower : (l'.coordinator c).metrics = (l.coordinator c).metrics.lower g₀)
    (hsome : 1 ≤ l.reading c g₀) : l'.underflows c = l.underflows c := by
  unfold underflows
  rw [hlower]
  exact (underflows_lower _ _).2 (gauge_ne_zero hsome)

/-- A gauge that is raised shows one more, as far as a word goes. -/
private theorem reading_raise {g₀ : Gauge}
    (hraise : (l'.coordinator c).metrics = (l.coordinator c).metrics.raise g₀) (g : Gauge) :
    l'.reading c g = (l.reading c g + if g = g₀ then 1 else 0) % UInt64.size := by
  unfold reading
  rw [hraise, gauge_raise]
  split
  case isTrue hg =>
    rw [hg, UInt64.toNat_add]
    rfl
  case isFalse => exact (Nat.mod_eq_of_lt (UInt64.toNat_lt _)).symm

private theorem underflows_of_raise {g₀ : Gauge}
    (hraise : (l'.coordinator c).metrics = (l.coordinator c).metrics.raise g₀) : l'.underflows c = l.underflows c := by
  unfold underflows
  rw [hraise]
  cases g₀ <;> rfl

section kill

/-- A node of another registry dies or comes to life without anyone else noticing. -/
theorem untouched_kill (hk : k ≠ c) (hn : n ∉ (l.coordinator c).nodes.values) : l.Untouched c (l.kill k n) := by
  have hc : (l.kill k n).coordinator c = l.coordinator c := by
    rw [coordinator_kill, if_neg fun h => hk h.1.symm]
  refine .of_coordinator hc fun m hm => ?_
  rw [node_kill, if_neg fun h : m = n => hn (h ▸ hm)]

theorem untouched_revive (hn' : n.index < l.nodes.size) (hk : k ≠ c) (hn : n ∉ (l.coordinator c).nodes.values) :
    l.Untouched c (l.revive k n) := by
  have hc : (l.revive k n).coordinator c = l.coordinator c := by
    unfold revive
    split
    · rfl
    · exact coordinator_modifyCoordinator_of_ne hk.symm _
  refine .of_coordinator hc fun m hm => ?_
  rw [node_revive l k hn', if_neg fun h : m = n => hn (h ▸ hm)]

variable (hnd : (l.coordinator c).nodes.values.Nodup) (hn : n ∈ (l.coordinator c).nodes.values)
include hnd hn

/-- Where only one of the nodes has died or come to life, the others count as before. -/
private theorem population_of_life (hregistry : (l'.coordinator c).nodes = (l.coordinator c).nodes)
    (hother : ∀ m, m ≠ n → (l'.node m).alive = (l.node m).alive) :
    l'.population c .liveDatanodes + (if (l.node n).alive then 1 else 0) =
      l.population c .liveDatanodes + if (l'.node n).alive then 1 else 0 := by
  have hperm := List.perm_cons_erase hn
  have hbefore := countP_of_perm hperm hnd hother
  have hafter := countP_of_perm hperm hnd (p := fun m => (l'.node m).alive) fun m _ => rfl
  unfold population
  simp only [hregistry]
  omega

/-- One of the live nodes dies. -/
theorem lowers_kill (halive : (l.node n).alive = true) :
    l.Lowers c (fun g => if g = .liveDatanodes then 1 else 0) (l.kill c n) := by
  have hc : (l.kill c n).coordinator c =
      { l.coordinator c with metrics := (l.coordinator c).metrics.lower .liveDatanodes } := by
    rw [coordinator_kill, if_pos ⟨rfl, halive, lt_size_of_mem_values hn⟩]
  have hmetrics := congrArg Coordinator.metrics hc
  refine ⟨reading_lower hmetrics, fun g => ?_, fun hdown => underflows_of_lower hmetrics (hdown .liveDatanodes)⟩
  cases g with
  | registeredDatanodes => exact congrArg (fun k => k.nodes.size) hc
  | liveDatanodes =>
    have hlife := population_of_life hnd hn (by rw [hc]) fun m (hm : m ≠ n) => by
      rw [node_kill, if_neg hm]
    rw [node_kill, if_pos rfl, halive] at hlife
    exact hlife

/-- A node of the registry is alive from now on. -/
theorem raises_revive (hlt : c.index < l.coordinators.size) (hn' : n.index < l.nodes.size) :
    ∃ up, l.Raises c up (l.revive c n) := by
  cases halive : (l.node n).alive with
  | true =>
    have hsame : l.revive c n = l := by
      unfold revive
      rw [if_pos halive]
    rw [hsame]
    exact ⟨fun _ => 0, (Untouched.refl l c).raises fun _ => rfl⟩
  | false =>
    have hc : (l.revive c n).coordinator c =
        { l.coordinator c with metrics := (l.coordinator c).metrics.raise .liveDatanodes } := by
      rw [coordinator_revive l hlt, if_pos ⟨rfl, halive⟩]
    have hmetrics : ((l.revive c n).coordinator c).metrics = (l.coordinator c).metrics.raise .liveDatanodes :=
      congrArg Coordinator.metrics hc
    refine ⟨fun g => if g = .liveDatanodes then 1 else 0, reading_raise hmetrics, fun g => ?_,
      underflows_of_raise hmetrics⟩
    cases g with
    | registeredDatanodes => exact congrArg (fun k => k.nodes.size) hc
    | liveDatanodes =>
      have hlife := population_of_life hnd hn (by rw [hc]) fun m (hm : m ≠ n) => by
        rw [node_revive l c hn', if_neg hm]
      rw [node_revive l c hn', if_pos rfl, halive] at hlife
      exact hlife

end kill

/-- All of some live nodes die. -/
theorem lowers_killAll {ns : List NodeRef} (hnd : (l.coordinator c).nodes.values.Nodup) (hns : ns.Nodup)
    (hmem : ∀ n ∈ ns, n ∈ (l.coordinator c).nodes.values) (halive : ∀ n ∈ ns, (l.node n).alive = true) :
    l.Lowers c (fun g => if g = .liveDatanodes then ns.length else 0) (l.killAll c ns) := by
  induction ns generalizing l with
  | nil => exact (Untouched.refl l c).lowers fun g => by split <;> rfl
  | cons n ns ih =>
    obtain ⟨hn, hns⟩ := List.nodup_cons.1 hns
    have hone := lowers_kill hnd (hmem n List.mem_cons_self) (halive n List.mem_cons_self)
    have hregistry : ((l.kill c n).coordinator c).nodes = (l.coordinator c).nodes := by
      rw [coordinator_kill]
      split <;> rfl
    have hrest := ih (l := l.kill c n) (hregistry ▸ hnd) hns
      (fun m hm => hregistry ▸ hmem m (List.mem_cons_of_mem n hm)) fun m hm => by
        rw [node_kill, if_neg fun h : m = n => hn (h ▸ hm)]
        exact halive m (List.mem_cons_of_mem n hm)
    have hall := hone.trans hrest
    have hdown :
      (fun g : Gauge => (if g = .liveDatanodes then 1 else 0) + if g = .liveDatanodes then ns.length else 0) =
        fun g => if g = .liveDatanodes then (n :: ns).length else 0 := by
      funext g
      split
      · exact Nat.add_comm 1 _
      · rfl
    exact hdown ▸ hall

theorem untouched_killAll {ns : List NodeRef} (hk : k ≠ c) (hns : ∀ n ∈ ns, n ∉ (l.coordinator c).nodes.values) :
    l.Untouched c (l.killAll k ns) := by
  induction ns generalizing l with
  | nil => exact .refl l c
  | cons n ns ih =>
    have hone := untouched_kill hk (hns n List.mem_cons_self)
    exact hone.trans (ih fun m hm => hone.registry ▸ hns m (List.mem_cons_of_mem n hm))

section enroll
variable {r : Registration}

/-- A node that is new is in the registry from now on, and is not alive yet. -/
theorem raises_enroll (h : l.Enrolled) (hlt : c.index < l.coordinators.size)
    (hnew : (l.coordinator c).nodes.find? r.uuid = none) :
    l.Raises c (fun g => if g = .registeredDatanodes then 1 else 0) (l.enroll c r) := by
  have hc := coordinator_enroll hlt r
  have hvalues : ((l.enroll c r).coordinator c).nodes.values = (l.coordinator c).nodes.values ++ [⟨l.nodes.size⟩] := by
    rw [hc]
    exact Table.values_insert_of_find? hnew _
  have hmetrics : ((l.enroll c r).coordinator c).metrics = (l.coordinator c).metrics.raise .registeredDatanodes :=
    congrArg Coordinator.metrics hc
  refine ⟨reading_raise hmetrics, fun g => ?_, underflows_of_raise hmetrics⟩
  cases g with
  | registeredDatanodes =>
    unfold population
    rw [Table.size_eq_length_values, hvalues, List.length_append, Table.size_eq_length_values]
    rfl
  | liveDatanodes =>
    have hself : ((l.enroll c r).node ⟨l.nodes.size⟩).alive = false := congrArg Node.alive (node_bound_self l c r)
    have hold : ∀ m ∈ (l.coordinator c).nodes.values, ((l.enroll c r).node m).alive = (l.node m).alive := by
      intro m hm
      have hlt := h.made c _ m (h.mem_values_iff.1 hm)
      exact congrArg Node.alive (node_bound_of_ne l c r (Nat.ne_of_lt hlt))
    unfold population
    rw [hvalues, List.countP_append, List.countP_singleton, hself, List.countP_congr fun m hm => by rw [hold m hm]]
    rfl

theorem untouched_enroll (h : l.Enrolled) (hk : k ≠ c) : l.Untouched c (l.enroll k r) := by
  have hc : (l.enroll k r).coordinator c = l.coordinator c :=
    (coordinator_modifyCoordinator_of_ne hk.symm _).trans
      (coordinator_modifyCoordinator_of_ne (l := l.bound k r) hk.symm _)
  refine .of_coordinator hc fun m hm => ?_
  have hlt := h.made c _ m (h.mem_values_iff.1 hm)
  exact congrArg Node.alive (node_bound_of_ne l k r (Nat.ne_of_lt hlt))

end enroll

section dismiss
variable {uuid : String}

/-- When a node is dismissed the gauges are lowered for it, that of live nodes if it was one. -/
private theorem coordinator_dismiss (hlt : c.index < l.coordinators.size) (uuid : String) (n : NodeRef) :
    (l.dismiss c uuid n).coordinator c = { l.coordinator c with
      nodes := (l.coordinator c).nodes.erase uuid
      metrics := (if (l.node n).alive = true then (l.coordinator c).metrics.lower .liveDatanodes
        else (l.coordinator c).metrics).lower .registeredDatanodes } := by
  let l₁ := l.modifyCoordinator c fun k => { k with nodes := k.nodes.erase uuid }
  have hsize : l₁.coordinators.size = l.coordinators.size := Array.size_modify
  have herased : l₁.coordinator c = { l.coordinator c with nodes := (l.coordinator c).nodes.erase uuid } :=
    coordinator_modifyCoordinator hlt _
  have hkilled : (l₁.kill c n).coordinators.size = l.coordinators.size := by
    unfold kill
    split
    · exact Array.size_modify.trans hsize
    · exact hsize
  have hlast : (l.dismiss c uuid n).coordinator c = { (l₁.kill c n).coordinator c with
      metrics := ((l₁.kill c n).coordinator c).metrics.lower .registeredDatanodes } :=
    coordinator_modifyCoordinator (l := l₁.kill c n) (hkilled ▸ hlt) _
  have hnode : l₁.node n = l.node n := rfl
  rw [hlast, coordinator_kill, herased, hnode]
  cases (l.node n).alive with
  | true => simp only [hsize, hlt, and_self, if_true]
  | false => simp only [Bool.false_eq_true, false_and, and_false, if_false]

variable (h : l.Enrolled)
include h

/-- A node that is dismissed is out of the registry, and counts as dead. -/
theorem lowers_dismiss (hlt : c.index < l.coordinators.size) (hn : (l.coordinator c).nodes.find? uuid = some n) :
    l.Lowers c (fun g => if g = .registeredDatanodes ∨ (l.node n).alive = true then 1 else 0) (l.dismiss c uuid n) := by
  have hperm := Table.values_perm_erase (h.keys c) hn
  have hc := coordinator_dismiss hlt uuid n
  have hnodes : ((l.dismiss c uuid n).coordinator c).nodes = (l.coordinator c).nodes.erase uuid :=
    congrArg Coordinator.nodes hc
  have hmetrics : ((l.dismiss c uuid n).coordinator c).metrics =
      (if (l.node n).alive = true then (l.coordinator c).metrics.lower .liveDatanodes
        else (l.coordinator c).metrics).lower .registeredDatanodes := congrArg Coordinator.metrics hc
  refine ⟨fun g => ?_, fun g => ?_, fun hdown => ?_⟩
  · unfold reading
    rw [hmetrics]
    cases g <;> cases (l.node n).alive <;> simp [gauge_lower, Word.toNat_saturatingSub]
  · cases g with
    | registeredDatanodes =>
      unfold population
      rw [hnodes, if_pos (Or.inl rfl), Table.size_eq_length_values, Table.size_eq_length_values, hperm.length_eq]
      rfl
    | liveDatanodes =>
      have hother : ∀ m, m ≠ n → ((l.dismiss c uuid n).node m).alive = (l.node m).alive := by
        intro m hm
        rw [node_dismiss, if_neg hm]
      have hcount := countP_of_perm hperm (h.values_nodup c) hother
      unfold population
      rw [hnodes, hcount]
      cases (l.node n).alive <;> rfl
  · have hregistered : (l.coordinator c).metrics.gauge .registeredDatanodes ≠ 0 :=
      gauge_ne_zero (hdown .registeredDatanodes)
    unfold underflows
    rw [hmetrics]
    cases halive : (l.node n).alive with
    | true =>
      have hlive : (l.coordinator c).metrics.gauge .liveDatanodes ≠ 0 := by
        refine gauge_ne_zero (Nat.le_trans (Nat.le_of_eq ?_) (hdown .liveDatanodes))
        rw [if_pos (Or.inr halive)]
      have hlowered := (underflows_lower ((l.coordinator c).metrics.lower .liveDatanodes) .registeredDatanodes).2 hregistered
      exact hlowered.trans ((underflows_lower _ _).2 hlive)
    | false => exact (underflows_lower _ _).2 hregistered

theorem untouched_dismiss (hn : (l.coordinator k).nodes.find? uuid = some n) (hk : k ≠ c) :
    l.Untouched c (l.dismiss k uuid n) := by
  have hmem : n ∉ (l.coordinator c).nodes.values :=
    fun hmem => hk (h.apart k c uuid _ n hn (h.mem_values_iff.1 hmem))
  have herase : l.Untouched c (l.modifyCoordinator k fun k => { k with nodes := k.nodes.erase uuid }) :=
    .of_other rfl (coordinator_modifyCoordinator_of_ne hk.symm _)
  have hkill := untouched_kill (l := l.modifyCoordinator k fun k => { k with nodes := k.nodes.erase uuid })
    (n := n) hk (herase.registry ▸ hmem)
  exact (herase.trans hkill).trans (.of_other rfl (coordinator_modifyCoordinator_of_ne hk.symm _))

end dismiss

section settle
variable (storages : List Announcement)

private theorem steady_hear (l : Ledger) (n : NodeRef) : l.Steady (fun _ => False) (l.hear n storages) :=
  rel_hear (allowsHearing_steady id) l storages

theorem raises_settle (h : l.Enrolled) (hlt : c.index < l.coordinators.size)
    (hn : n ∈ (l.coordinator c).nodes.values) : ∃ up, l.Raises c up (l.settle c n storages) := by
  have hear : l.Steady (fun _ => False) (l.hear n storages) := steady_hear storages l n
  have hear' := h.of_keepsRegistries hear.toKeepsRegistries
  have hmem : n ∈ ((l.hear n storages).coordinator c).nodes.values := hear.registry c ▸ hn
  have hsize := h.made c _ n (h.mem_values_iff.1 hn)
  obtain ⟨up, hup⟩ := raises_revive (hear'.values_nodup c) hmem (Nat.lt_of_lt_of_le hlt hear.terms.size)
    (Nat.lt_of_lt_of_le hsize hear.size)
  exact ⟨_, ((Untouched.of_steady hear c).raises fun _ => rfl).trans hup⟩

theorem untouched_settle (hn' : n.index < l.nodes.size) (hk : k ≠ c) (hn : n ∉ (l.coordinator c).nodes.values) :
    l.Untouched c (l.settle k n storages) := by
  have hear : l.Steady (fun _ => False) (l.hear n storages) := steady_hear storages l n
  exact (Untouched.of_steady hear c).trans
    (untouched_revive (Nat.lt_of_lt_of_le hn' hear.size) hk (hear.registry c ▸ hn))

end settle
end Ledger
open Ledger (Raises Lowers Untouched)

namespace Step
variable {s : Service} {c : CoordinatorRef}

/-- The steps by which others decide whether the nodes of a coordinator are alive, or give it up. -/
def Meddles (c : CoordinatorRef) (s : Service) : Step → Prop
  | changeNode n (.alive _) => n ∈ (s.ledger.coordinator c).nodes.values
  | dropCoordinator k => k = c
  | _ => False

instance (step : Step) : Decidable (step.Meddles c s) := by
  rcases step
  case changeNode _ change => rcases change <;> unfold Meddles <;> infer_instance
  all_goals unfold Meddles; infer_instance

private theorem raises_register (h : s.ledger.Enrolled) (hlt : c.index < s.ledger.coordinators.size)
    (k : CoordinatorRef) (r : Registration) (storages : List Announcement) :
    ∃ up, s.ledger.Raises c up ((register k r storages).after s).ledger := by
  cases hn : (s.ledger.coordinator k).nodes.find? r.uuid with
  | none =>
    have hafter := ledger_register_of_none hn storages
    have hsize : s.ledger.nodes.size < (s.ledger.enroll k r).nodes.size := by
      have hbound : (s.ledger.enroll k r).nodes.size = s.ledger.nodes.size + 1 := s.ledger.size_bound k r
      omega
    rw [hafter]
    by_cases hk : k = c
    · subst hk
      have hentered : (s.ledger.enroll k r).Enrolled := (h.enter k r).of_keepsRegistries
        (Ledger.keepsRegistries_metrics _ k (Metrics.raise · .registeredDatanodes))
      have hcoordinators : (s.ledger.enroll k r).coordinators.size = s.ledger.coordinators.size :=
        Array.size_modify.trans Array.size_modify
      obtain ⟨up, hup⟩ := Ledger.raises_settle (n := ⟨s.ledger.nodes.size⟩) storages hentered
        (hcoordinators ▸ hlt) (Table.mem_values_of_find? (Ledger.find?_enroll_self hlt r))
      exact ⟨_, (Ledger.raises_enroll h hlt hn).trans hup⟩
    · have hother : s.ledger.Untouched c (s.ledger.enroll k r) := Ledger.untouched_enroll h hk
      have hmem : (⟨s.ledger.nodes.size⟩ : NodeRef) ∉ ((s.ledger.enroll k r).coordinator c).nodes.values := by
        rw [hother.registry]
        exact fun hmem => Nat.lt_irrefl _ (h.made c _ _ (h.mem_values_iff.1 hmem))
      exact ⟨fun _ => 0, (hother.trans (Ledger.untouched_settle storages hsize hk hmem)).raises fun _ => rfl⟩
  | some n =>
    have hafter := ledger_register_of_some h hn storages
    have hkeeps : s.ledger.Steady (fun _ => False) (s.ledger.welcome k n r) := Ledger.rel_welcome h hn
    have hmem : n ∈ (s.ledger.coordinator k).nodes.values := Table.mem_values_of_find? hn
    rw [hafter]
    by_cases hk : k = c
    · subst hk
      obtain ⟨up, hup⟩ := Ledger.raises_settle storages (h.of_keepsRegistries hkeeps.toKeepsRegistries)
        (Nat.lt_of_lt_of_le hlt hkeeps.terms.size) (hkeeps.registry k ▸ hmem)
      exact ⟨_, ((Untouched.of_steady hkeeps k).raises fun _ => rfl).trans hup⟩
    · have hother : n ∉ ((s.ledger.welcome k n r).coordinator c).nodes.values := by
        rw [hkeeps.registry c]
        exact fun hmem => hk (h.apart k c _ _ n hn (h.mem_values_iff.1 hmem))
      have hsettle := Ledger.untouched_settle storages (Nat.lt_of_lt_of_le (h.made k _ n hn) hkeeps.size) hk hother
      exact ⟨fun _ => 0, ((Untouched.of_steady hkeeps c).trans hsettle).raises fun _ => rfl⟩

private theorem lowers_removeNode (hl : s.ledger.Coherent) (h : s.ledger.Enrolled)
    (hlt : c.index < s.ledger.coordinators.size) (k : CoordinatorRef) (uuid : String) :
    ∃ down, s.ledger.Lowers c down ((removeNode k uuid).after s).ledger := by
  cases hn : (s.ledger.coordinator k).nodes.find? uuid with
  | none =>
    have hafter := after_removeNode_of_none hn
    rw [hafter]
    exact ⟨fun _ => 0, (Untouched.refl s.ledger c).lowers fun _ => rfl⟩
  | some n =>
    have hafter := ledger_removeNode_of_some hl h hn
    have hstrip : s.ledger.Steady (fun _ => False) (s.ledger.strip k n) := Ledger.rel_strip hl h hn
    have h' := h.of_keepsRegistries hstrip.toKeepsRegistries
    have hn' : ((s.ledger.strip k n).coordinator k).nodes.find? uuid = some n := hstrip.registry k ▸ hn
    rw [hafter]
    by_cases hk : k = c
    · subst hk
      exact ⟨_, ((Untouched.of_steady hstrip k).lowers fun _ => rfl).trans
        (Ledger.lowers_dismiss h' (Nat.lt_of_lt_of_le hlt hstrip.terms.size) hn')⟩
    · have hother := (Untouched.of_steady hstrip c).trans (Ledger.untouched_dismiss h' hn' hk)
      exact ⟨fun _ => 0, hother.lowers fun _ => rfl⟩

private theorem lowers_checkHeartbeats (h : s.ledger.Enrolled) (k : CoordinatorRef) (now : UInt64) :
    ∃ down, s.ledger.Lowers c down ((checkHeartbeats k now).after s).ledger := by
  cases hexpiry : (s.ledger.coordinator k).limits.expiry with
  | error e =>
    have he := Request.exec_checkHeartbeats_of_error hexpiry now
    have hafter : (checkHeartbeats k now).after s = s := congrArg Prod.snd he
    rw [hafter]
    exact ⟨fun _ => 0, (Untouched.refl s.ledger c).lowers fun _ => rfl⟩
  | ok expiry =>
    obtain ⟨journal, he⟩ := Request.exec_checkHeartbeats h hexpiry now
    have hafter : ((checkHeartbeats k now).after s).ledger =
        s.ledger.killAll k (s.ledger.expired k now expiry) := congrArg (fun x => x.2.ledger) he
    have hmem : ∀ n ∈ s.ledger.expired k now expiry, n ∈ (s.ledger.coordinator k).nodes.values :=
      fun n hn => List.mem_of_mem_filter hn
    rw [hafter]
    by_cases hk : k = c
    · subst hk
      refine ⟨_, Ledger.lowers_killAll (h.values_nodup k) ((h.values_nodup k).filter _) hmem fun n hn => ?_⟩
      have hexpired := (List.mem_filter.1 hn).2
      exact (Bool.and_eq_true_iff.1 hexpired).1
    · have hother := Ledger.untouched_killAll (l := s.ledger) hk fun n hn hmem' =>
        hk (h.apart k c _ _ n (h.mem_values_iff.1 (hmem n hn)) (h.mem_values_iff.1 hmem'))
      exact ⟨fun _ => 0, hother.lowers fun _ => rfl⟩

/-- Every step raises the gauges of a coordinator along with what they stand for, or lowers them so. -/
theorem tallies (hl : s.ledger.Coherent) (h : s.ledger.Enrolled) (hlt : c.index < s.ledger.coordinators.size)
    (step : Step) (hmeddles : ¬ step.Meddles c s) (hstep : step.Enabled s.ledger) :
    (∃ up, s.ledger.Raises c up (step.after s).ledger) ∨ ∃ down, s.ledger.Lowers c down (step.after s).ledger := by
  have hquiet : s.ledger.Untouched c (step.after s).ledger →
      ∃ up, s.ledger.Raises c up (step.after s).ledger := fun hsame => ⟨fun _ => 0, hsame.raises fun _ => rfl⟩
  have hsteady : s.ledger.Steady (fun _ => False) (step.after s).ledger →
      ∃ up, s.ledger.Raises c up (step.after s).ledger := fun hsteady => hquiet (.of_steady hsteady c)
  by_cases hstirs : step.Stirs
  · cases step with
    | changeNode n change =>
      refine .inl (hquiet ?_)
      cases change with
      | alive value =>
        refine .of_coordinator rfl fun m hm => congrArg Node.alive (Ledger.node_modifyNode_of_ne ?_ _)
        rintro rfl
        exact hmeddles hm
      | lastUpdate millis =>
        have hheard : s.ledger.Steady (fun _ => False) ((changeNode n (.lastUpdate millis)).after s).ledger :=
          Ledger.allowsHearing_steady id (Node.idle_of_eq rfl rfl rfl rfl rfl) rfl
        exact .of_steady hheard c
      | _ => exact hstirs.elim
    | changeLock r lock => exact .inl (hsteady (Ledger.steady_of_eq rfl rfl))
    | makeCoordinator limits =>
      refine .inl (hquiet (.of_other rfl ?_))
      unfold Ledger.coordinator
      exact congrArg (·.getD default) ((Array.getElem?_push_lt hlt).trans (Array.getElem?_eq_getElem hlt).symm)
    | dropCoordinator k =>
      refine .inl (hquiet (.of_other rfl ?_))
      exact Ledger.coordinator_modifyCoordinator_of_ne (fun hc : c = k => hmeddles hc.symm) _
    | updateHeartbeat n beat =>
      exact .inl (hsteady (Request.respects_updateHeartbeat (Ledger.allowsHearing_steady id) beat s))
    | register k r storages => exact .inl (raises_register h hlt k r storages)
    | removeNode k uuid => exact .inr (lowers_removeNode hl h hlt k uuid)
    | heartbeat k uuid beat =>
      refine .inl (hsteady (Request.respects_heartbeat k uuid beat ?_ ?_))
      · exact fun n _ => Request.Slim.calmWork n
      · exact fun n _ => Ledger.allowsHearing_steady id
    | checkHeartbeats k now => exact .inr (lowers_checkHeartbeats h k now)
    | _ => exact hstirs.elim
  · exact .inl (hsteady (step.narrow_after hstirs hstep))

end Step

/-- The gauges of a coordinator show how many nodes are in its registry, and how many of them count as live. -/
def Service.Gauged (c : CoordinatorRef) (s : Service) : Prop :=
  s.ledger.reading c .registeredDatanodes = (s.ledger.coordinator c).nodes.size ∧
    (Request.numLive c).exec s = (.ok (s.ledger.reading c .liveDatanodes), s)

/-- A registry has no more nodes than a word can count. -/
def Service.Countable (c : CoordinatorRef) (s : Service) : Prop :=
  (s.ledger.coordinator c).nodes.size < UInt64.size

instance (c : CoordinatorRef) : DecidablePred (Service.Countable c) := fun _ => inferInstanceAs (Decidable (_ < _))

namespace Service
variable {s : Service} {c : CoordinatorRef}

theorem gauged_iff : s.Gauged c ↔ ∀ g, s.ledger.reading c g = s.ledger.population c g := by
  have hlive : (Request.numLive c).exec s = (.ok (s.ledger.population c .liveDatanodes), s) := rfl
  unfold Gauged
  rw [hlive]
  refine ⟨fun h g => ?_, fun h => ⟨h _, by rw [h]⟩⟩
  cases g with
  | registeredDatanodes => exact h.1
  | liveDatanodes => exact (Except.ok.inj (congrArg Prod.fst h.2)).symm

/-- What one step keeps: gauges that are right show enough to be lowered, and are right afterwards. -/
theorem Gauged.after (h : s.Gauged c) (hs : Reachable s) (hlt : c.index < s.ledger.coordinators.size)
    {step : Step} (hmeddles : ¬ step.Meddles c s) (hstep : step.Enabled s.ledger)
    (hcountable : (step.after s).Countable c) :
    (step.after s).Gauged c ∧ (step.after s).ledger.underflows c = s.ledger.underflows c := by
  rw [gauged_iff] at h
  have hfit : ∀ g, (step.after s).ledger.population c g < UInt64.size := by
    intro g
    cases g with
    | registeredDatanodes => exact hcountable
    | liveDatanodes =>
      refine Nat.lt_of_le_of_lt List.countP_le_length ?_
      rw [← Table.size_eq_length_values]
      exact hcountable
  rw [gauged_iff]
  rcases step.tallies hs.coherent hs.enrolled hlt hmeddles hstep with ⟨up, hup⟩ | ⟨down, hdown⟩
  · refine ⟨fun g => ?_, hup.underflows⟩
    rw [hup.reading, h, ← hup.population]
    exact Nat.mod_eq_of_lt (hfit g)
  · refine ⟨fun g => ?_, hdown.underflows fun g => ?_⟩
    · have := hdown.population g
      rw [hdown.reading, h]
      omega
    · have := hdown.population g
      rw [h]
      omega

/-- What a run keeps. -/
theorem Gauged.throughout (h : s.Gauged c) (hs : Reachable s) (hlt : c.index < s.ledger.coordinators.size)
    {steps : List Step} (hsteps : s.Legal steps) (halive : s.Never (fun s step => step.Meddles c s) steps)
    (hcountable : s.Throughout (Countable c) steps) :
    s.Throughout (fun s' => s'.Gauged c ∧ s'.ledger.underflows c = s.ledger.underflows c) steps := by
  induction steps generalizing s with
  | nil => exact ⟨h, rfl⟩
  | cons step steps ih =>
    obtain ⟨hafter, hsame⟩ := h.after hs hlt halive.1 hsteps.1 hcountable.2.head
    have hlt' : c.index < (step.after s).ledger.coordinators.size :=
      Nat.lt_of_lt_of_le hlt (step.keepsTerms_after hsteps.1).size
    have hrest := ih hafter (hs.step hsteps.1) hlt' hsteps.2 halive.2 hcountable.2
    rw [hsame] at hrest
    exact ⟨⟨h, rfl⟩, hrest⟩

end Service

/-- From the moment a coordinator is made, its gauges show throughout how many nodes it has and how many of them
are alive, and none is ever to be lowered that stands at zero, whatever else happens on the service: as long as
nobody but the coordinator decides whether one of its nodes is alive. -/
theorem gauges_match_registry {s : Service} (hs : Reachable s) (limits : Limits) {steps : List Step}
    (hsteps : s.Legal (.makeCoordinator limits :: steps)) :
    let c : CoordinatorRef := ⟨s.ledger.coordinators.size⟩
    let made := (Step.makeCoordinator limits).after s
    made.Never (fun s step => step.Meddles c s) steps → made.Throughout (Service.Countable c) steps →
      made.Throughout (fun s => s.Gauged c ∧ s.ledger.underflows c = 0) steps := by
  intro c made halive hcountable
  have hcoordinators : made.ledger.coordinators.size = s.ledger.coordinators.size + 1 := Array.size_push ..
  have hc : made.ledger.coordinator c =
      { limits, lock := ⟨s.ledger.locks.size⟩, metrics := { started := s.ledger.clock } } := by
    have hget : made.ledger.coordinators[s.ledger.coordinators.size]? = some
        { limits, lock := ⟨s.ledger.locks.size⟩, metrics := { started := s.ledger.clock } } := Array.getElem?_push_size
    unfold Ledger.coordinator
    rw [hget]
    rfl
  have hgauged : made.Gauged c := by
    rw [Service.gauged_iff]
    intro g
    unfold Ledger.reading Ledger.population
    rw [hc]
    cases g <;> rfl
  have hnone : made.ledger.underflows c = 0 := congrArg (fun k => k.metrics.underflows) hc
  have hlt : c.index < made.ledger.coordinators.size := hcoordinators ▸ Nat.lt_succ_self _
  have hall := hgauged.throughout (hs.step hsteps.1) hlt hsteps.2 halive hcountable
  rwa [hnone] at hall

/-- Two nodes register, one of them is declared dead and comes back, the other is declared dead and removed, and
a third is removed alive. -/
def comingAndGoing : List Step :=
  let r (uuid : String) := Registration.ofAddress uuid "10.0.0.1" 9866
  [.setClock 1000, .register ⟨0⟩ (r "a") [{ id := "A" }], .register ⟨0⟩ (r "b") [], .checkHeartbeats ⟨0⟩ 631001,
    .heartbeat ⟨0⟩ "a" {}, .register ⟨0⟩ (r "a") [], .removeNode ⟨0⟩ "b", .register ⟨0⟩ (r "c") [],
    .register ⟨0⟩ (r "c") [], .removeNode ⟨0⟩ "c", .removeNode ⟨0⟩ "c"]

theorem gauges_match_registry_coming_and_going :
    let made := (Step.makeCoordinator {}).after {}
    made.Throughout (fun s => s.Gauged ⟨0⟩ ∧ s.ledger.underflows ⟨0⟩ = 0) comingAndGoing ∧
    ((made.run comingAndGoing).ledger.coordinator ⟨0⟩).nodes.keys = ["a"] ∧
    (made.run comingAndGoing).ledger.reading ⟨0⟩ .liveDatanodes = 1 := by
  have h := @gauges_match_registry {} (.start 0) {} comingAndGoing (by decide +kernel)
    (by decide +kernel) (by decide +kernel)
  exact ⟨h, by decide +kernel⟩

/-- A node that others bring back to life is missing from the gauge when it is declared dead again. -/
example :
    let r := Registration.ofAddress "a" "10.0.0.1" 9866
    let made := (Step.makeCoordinator {}).after {}
    let met := made.run [.register ⟨0⟩ r [], .checkHeartbeats ⟨0⟩ 630001, .changeNode ⟨0⟩ (.alive true)]
    met.ledger.underflows ⟨0⟩ = 0 ∧ ((Step.checkHeartbeats ⟨0⟩ 630001).after met).ledger.underflows ⟨0⟩ = 1 := by
  decide +kernel

end DatanodeLedger
