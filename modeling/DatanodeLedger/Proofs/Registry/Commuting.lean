import DatanodeLedger.Proofs.Registry.Independence
import DatanodeLedger.Proofs.Run.Grounded

/-! Operations in the names of two nodes can be done in either order: with the same answers, and with the same records
in the end, up to the names of the records that they make. -/
namespace DatanodeLedger
open Ledger (Within Lockstep)

namespace Ledger

/-- Two ledgers hold the same records, one of them under other names of nodes and volumes. Blocks may refer back to
their volumes in another order, and registries may have been filled in another order. What else refers to records by
name refers to those that have one name in both. -/
structure SameUpTo (ν : Equiv.Perm NodeRef) (σ : Equiv.Perm StorageRef) (l l' : Ledger) : Prop where
  nodes : l'.nodes.size = l.nodes.size
  storages : l'.storages.size = l.storages.size
  blocks : l'.blocks.size = l.blocks.size
  coordinators : l'.coordinators.size = l.coordinators.size
  node : ∀ n, l'.node (ν n) = (l.node n).rename σ
  storage : ∀ v, l'.storage (σ v) = l.storage v
  block : ∀ b, l'.block b = { l.block b with holders := (l'.block b).holders }
  holders : ∀ b, (l'.block b).holders.Perm ((l.block b).holders.map σ)
  coordinator : ∀ k, l'.coordinator k = { l.coordinator k with nodes := (l'.coordinator k).nodes }
  registry : ∀ k, (l'.coordinator k).nodes.entries.Perm ((l.coordinator k).nodes.mapValues ν).entries
  targets : ∀ n, ∀ t ∈ (l.node n).transfers.items, ∀ v ∈ t.targets, σ v = v
  cursors : ∀ k, some k ∈ l.cursors.toList → σ k.storage = k.storage
  pins : ∀ n ∈ l.pins, ν n = n
  rest : l' = { l with
    nodes := l'.nodes, storages := l'.storages, blocks := l'.blocks, coordinators := l'.coordinators }

/-- The names of nodes where those that are made up to `la` and those that are made up to `lb` change places. -/
def exchangeNodes (l la lb : Ledger) : Equiv.Perm NodeRef :=
  NodeRef.exchange l.nodes.size (la.nodes.size - l.nodes.size) (lb.nodes.size - l.nodes.size)

def exchangeVolumes (l la lb : Ledger) : Equiv.Perm StorageRef :=
  StorageRef.exchange l.storages.size (la.storages.size - l.storages.size) (lb.storages.size - l.storages.size)

section exchange
variable {l la lb : Ledger} {n : NodeRef} {v : StorageRef}

theorem exchangeNodes_of_lt (h : n.index < l.nodes.size) : l.exchangeNodes la lb n = n :=
  congrArg NodeRef.mk (exchange_of_lt h _ _)

theorem exchangeNodes_eq_moveNode (hb : l.nodes.size ≤ lb.nodes.size) (h : n.index < la.nodes.size) :
    l.exchangeNodes la lb n = l.moveNode lb n :=
  congrArg NodeRef.mk (exchange_eq_renumber hb h)

theorem exchangeNodes_moveNode (ha : l.nodes.size ≤ la.nodes.size) (h : n.index < lb.nodes.size) :
    l.exchangeNodes la lb (l.moveNode la n) = n :=
  congrArg NodeRef.mk (exchange_renumber ha h)

theorem exchangeVolumes_of_lt (h : v.index < l.storages.size) : l.exchangeVolumes la lb v = v :=
  congrArg StorageRef.mk (exchange_of_lt h _ _)

theorem exchangeVolumes_eq_moveVolume (hb : l.storages.size ≤ lb.storages.size) (h : v.index < la.storages.size) :
    l.exchangeVolumes la lb v = l.moveVolume lb v :=
  congrArg StorageRef.mk (exchange_eq_renumber hb h)

theorem exchangeVolumes_moveVolume (ha : l.storages.size ≤ la.storages.size) (h : v.index < lb.storages.size) :
    l.exchangeVolumes la lb (l.moveVolume la v) = v :=
  congrArg StorageRef.mk (exchange_renumber ha h)

end exchange
end Ledger

/-- Metrics are their counters, their gauges, when counting began, and how often a gauge was lowered at zero. -/
theorem Metrics.ext_counters {m m' : Metrics} (hcounter : ∀ k, m.counter k = m'.counter k)
    (hgauge : ∀ g, m.gauge g = m'.gauge g) (hstarted : m.started = m'.started)
    (hunderflows : m.underflows = m'.underflows) : m = m' := by
  rw [Metrics.mk.injEq]
  exact ⟨hcounter .heartbeatsTotal, hcounter .unknownStorageReports, hcounter .rejectedHeartbeats,
    hcounter .blocksToReplicateDispatched, hcounter .blocksToRecoverDispatched, hcounter .blocksToInvalidateDispatched,
    hcounter .duplicateRecoverySubmissions, hgauge .registeredDatanodes, hgauge .liveDatanodes, hstarted,
    hunderflows⟩

namespace Service
variable {s sa sb sab sba : Service} {c : CoordinatorRef} {a b : String} {f g : NamespaceLock → NamespaceLock}

/-- Where blocks only come onto volumes through the coordinator, a block refers back to exactly the volumes that list
it. -/
theorem Kept.mem_holders_iff (hs : s.Kept c) {v : StorageRef} {d : BlockRef} :
    v ∈ (s.ledger.block d).holders ↔ d ∈ s.ledger.listed v := by
  refine ⟨hs.housed.exact d v, fun hd => ?_⟩
  obtain ⟨uuid, n, hn, hv⟩ := hs.housed.home v d hd
  have hlive := Ledger.isLive_of_mem (Ledger.mem_heldNodes_of_find? hn) hv
  exact (hs.reachable.coherent.mirror v d hlive).1 hd

/-- What is done in the name of `a`, and what is done in the name of `b`, in either order. Each does the same before
the other as after it. -/
structure Diamond (c : CoordinatorRef) (a b : String) (f g : NamespaceLock → NamespaceLock)
    (s sa sb sab sba : Service) : Prop where
  ne : a ≠ b
  start : s.Kept c
  left : sa.Kept c
  right : sb.Kept c
  endLeft : sab.Kept c
  endRight : sba.Kept c
  first : Lockstep c a s.ledger sb.ledger f sa.ledger sba.ledger
  second : Lockstep c b s.ledger sa.ledger g sb.ledger sab.ledger
  afterFirst : Within c b sa.ledger sab.ledger
  afterSecond : Within c a sb.ledger sba.ledger

namespace Diamond
variable (h : Diamond c a b f g s sa sb sab sba) {n : NodeRef} {v : StorageRef}
include h

theorem symm : Diamond c b a g f s sb sa sba sab :=
  ⟨h.ne.symm, h.start, h.right, h.left, h.endRight, h.endLeft, h.second, h.first, h.afterSecond, h.afterFirst⟩

/-- What is done in the name of `a` leaves the node of `b` alone. -/
theorem entered : (sa.ledger.coordinator c).nodes.find? b = (s.ledger.coordinator c).nodes.find? b :=
  h.first.within.registry b h.ne.symm

theorem kept (hn : (s.ledger.coordinator c).nodes.find? b = some n) : sa.ledger.node n = s.ledger.node n :=
  h.first.within.node n (h.start.not_owns h.ne.symm hn)

/-- What is done in the name of `b` leaves alone what has been done in the name of `a`. -/
theorem node_after (hn : s.ledger.Owns c a n) (hmade : n.index < sa.ledger.nodes.size) :
    sab.ledger.node n = sa.ledger.node n := by
  apply h.afterFirst.node
  rintro (hb | hle)
  · rw [h.entered] at hb
    exact h.start.not_owns h.ne.symm hb hn
  · omega

theorem storage_after (hv : s.ledger.Has c a v) (hmade : v.index < sa.ledger.storages.size) :
    sab.ledger.storage v = sa.ledger.storage v := by
  apply h.afterFirst.storage
  rintro (⟨n, hn, hvn⟩ | hle)
  · rw [h.entered] at hn
    rw [h.kept hn] at hvn
    exact h.start.not_has h.ne.symm hn hvn hv
  · omega

theorem node_first (hn : s.ledger.Owns c a n) (hmade : n.index < sa.ledger.nodes.size) :
    sba.ledger.node (s.ledger.moveNode sb.ledger n) = (sab.ledger.node n).rename (s.ledger.moveVolume sb.ledger) := by
  rw [h.node_after hn hmade]
  exact h.first.node n hn

theorem storage_first (hv : s.ledger.Has c a v) (hmade : v.index < sa.ledger.storages.size) :
    sba.ledger.storage (s.ledger.moveVolume sb.ledger v) = sab.ledger.storage v := by
  rw [h.storage_after hv hmade]
  exact h.first.storage v hv

/-- Records that were there before and that neither of the two is about stay as they were. -/
theorem node_untouched (ha : ¬ s.ledger.Owns c a n) (hb : ¬ s.ledger.Owns c b n) :
    sab.ledger.node n = s.ledger.node n := by
  refine (h.afterFirst.node n ?_).trans (h.first.within.node n ha)
  rintro (hfound | hle)
  · rw [h.entered] at hfound
    exact hb (.inl hfound)
  · exact hb (.inr (Nat.le_trans h.first.within.nodes hle))

theorem storage_untouched (ha : ¬ s.ledger.Has c a v) (hb : ¬ s.ledger.Has c b v) :
    sab.ledger.storage v = s.ledger.storage v := by
  refine (h.afterFirst.storage v ?_).trans (h.first.within.storage v ha)
  rintro (⟨n, hn, hvn⟩ | hle)
  · rw [h.entered] at hn
    rw [h.kept hn] at hvn
    exact hb (.inl ⟨n, hn, hvn⟩)
  · exact hb (.inr (Nat.le_trans h.first.within.storages hle))

theorem size_nodes : sba.ledger.nodes.size = sab.ledger.nodes.size := by
  have hfirst := h.first.nodes
  have hsecond := h.second.nodes
  omega

theorem size_storages : sba.ledger.storages.size = sab.ledger.storages.size := by
  have hfirst := h.first.storages
  have hsecond := h.second.storages
  omega

theorem node (n : NodeRef) : sba.ledger.node (s.ledger.exchangeNodes sa.ledger sb.ledger n) =
    (sab.ledger.node n).rename (s.ledger.exchangeVolumes sa.ledger sb.ledger) := by
  have ha := h.first.within.nodes
  have hb := h.second.within.nodes
  -- it is a node of `a`, a node of `b`, one of neither that has been there before, or none at all
  rcases made_cases ha hb (P := fun i => s.ledger.Owns c a ⟨i⟩) (Q := fun i => s.ledger.Owns c b ⟨i⟩)
    (fun _ hi => .inr hi) (fun _ hi => .inr hi) n.index with
    ⟨hn, hmade⟩ | ⟨i, hi, hmade, hmoved⟩ | ⟨hold, hna, hnb⟩ | hle
  · rw [Ledger.exchangeNodes_eq_moveNode hb hmade, h.node_first hn hmade]
    refine Node.rename_congr fun v hv => (Ledger.exchangeVolumes_eq_moveVolume h.second.within.storages ?_).symm
    rw [h.node_after hn hmade] at hv
    exact h.left.reachable.orderly.made n v hv
  · obtain rfl : s.ledger.moveNode sa.ledger ⟨i⟩ = n := congrArg NodeRef.mk hmoved
    rw [Ledger.exchangeNodes_moveNode ha hmade, h.symm.node_first hi hmade, Node.rename_rename]
    refine (Node.rename_eq_self fun v hv => Ledger.exchangeVolumes_moveVolume h.first.within.storages ?_).symm
    rw [h.symm.node_after hi hmade] at hv
    exact h.right.reachable.orderly.made ⟨i⟩ v hv
  · rw [Ledger.exchangeNodes_of_lt hold, h.node_untouched hna hnb, h.symm.node_untouched hnb hna]
    refine (Node.rename_eq_self fun v hv => Ledger.exchangeVolumes_of_lt ?_).symm
    exact h.start.reachable.orderly.made n v hv
  · have hsize := h.second.nodes
    have hfixed : s.ledger.exchangeNodes sa.ledger sb.ledger n = n := congrArg NodeRef.mk (exchange_of_le ha hb hle)
    have hbeyond : sab.ledger.nodes.size ≤ n.index := by omega
    rw [hfixed, Ledger.node_of_le hbeyond, Ledger.node_of_le (h.size_nodes ▸ hbeyond)]
    rfl

theorem storage (v : StorageRef) :
    sba.ledger.storage (s.ledger.exchangeVolumes sa.ledger sb.ledger v) = sab.ledger.storage v := by
  have ha := h.first.within.storages
  have hb := h.second.within.storages
  rcases made_cases ha hb (P := fun i => s.ledger.Has c a ⟨i⟩) (Q := fun i => s.ledger.Has c b ⟨i⟩)
    (fun _ hi => .inr hi) (fun _ hi => .inr hi) v.index with
    ⟨hv, hmade⟩ | ⟨i, hi, hmade, hmoved⟩ | ⟨hold, hva, hvb⟩ | hle
  · rw [Ledger.exchangeVolumes_eq_moveVolume hb hmade, h.storage_first hv hmade]
  · obtain rfl : s.ledger.moveVolume sa.ledger ⟨i⟩ = v := congrArg StorageRef.mk hmoved
    rw [Ledger.exchangeVolumes_moveVolume ha hmade, h.symm.storage_first hi hmade]
  · rw [Ledger.exchangeVolumes_of_lt hold, h.storage_untouched hva hvb, h.symm.storage_untouched hvb hva]
  · have hsize := h.second.storages
    have hfixed : s.ledger.exchangeVolumes sa.ledger sb.ledger v = v :=
      congrArg StorageRef.mk (exchange_of_le ha hb hle)
    have hbeyond : sab.ledger.storages.size ≤ v.index := by omega
    rw [hfixed, Ledger.storage_of_le hbeyond, Ledger.storage_of_le (h.size_storages ▸ hbeyond)]

/-- Blocks are at the same volumes in the end. -/
theorem holders (d : BlockRef) : (sba.ledger.block d).holders.Perm
    ((sab.ledger.block d).holders.map (s.ledger.exchangeVolumes sa.ledger sb.ledger)) := by
  have honce := (h.endLeft.reachable.coherent.once d).map
    (s.ledger.exchangeVolumes sa.ledger sb.ledger).injective
  refine (List.perm_ext_iff_of_nodup (h.endRight.reachable.coherent.once d) honce).2 fun v => ?_
  obtain ⟨w, rfl⟩ := (s.ledger.exchangeVolumes sa.ledger sb.ledger).surjective v
  have hlisted : sba.ledger.listed (s.ledger.exchangeVolumes sa.ledger sb.ledger w) = sab.ledger.listed w := by
    unfold Ledger.listed
    rw [h.storage w]
  rw [List.mem_map_of_injective (Equiv.injective _), h.endLeft.mem_holders_iff, h.endRight.mem_holders_iff, hlisted]

/-- What does not change when something is done in the name of one node is the same in the end. -/
theorem same {α : Type} (F : Ledger → α) (hF : ∀ uuid l l', Within c uuid l l' → F l' = F l) :
    F sba.ledger = F sab.ledger :=
  calc F sba.ledger = F sb.ledger := hF a _ _ h.afterSecond
    _ = F s.ledger := hF b _ _ h.second.within
    _ = F sa.ledger := (hF a _ _ h.first.within).symm
    _ = F sab.ledger := (hF b _ _ h.afterFirst).symm

theorem block (d : BlockRef) :
    sba.ledger.block d = { sab.ledger.block d with holders := (sba.ledger.block d).holders } := by
  have hsame := h.same (fun l => { l.block d with holders := [] }) fun _ _ _ hwithin =>
    congrArg (fun record => { record with holders := [] }) (hwithin.block d)
  exact congrArg (fun record => { record with holders := (sba.ledger.block d).holders }) hsame

/-- The same nodes are registered in the end. -/
theorem find? (k : CoordinatorRef) (uuid : String) : (sba.ledger.coordinator k).nodes.find? uuid =
    ((sab.ledger.coordinator k).nodes.find? uuid).map (s.ledger.exchangeNodes sa.ledger sb.ledger) := by
  have hold : ∀ k, (s.ledger.coordinator k).nodes.find? uuid =
      ((s.ledger.coordinator k).nodes.find? uuid).map (s.ledger.exchangeNodes sa.ledger sb.ledger) := by
    refine fun k => Option.map_id_apply.symm.trans (Option.map_congr fun n hn => ?_)
    exact (Ledger.exchangeNodes_of_lt (h.start.reachable.enrolled.made k uuid n hn)).symm
  by_cases hk : k = c
  · subst hk
    by_cases ha : uuid = a
    · subst ha
      rw [h.first.entry, h.afterFirst.registry uuid h.ne]
      refine Option.map_congr fun n hn => (Ledger.exchangeNodes_eq_moveNode h.second.within.nodes ?_).symm
      exact h.left.reachable.enrolled.made k uuid n hn
    · by_cases hb : uuid = b
      · subst hb
        rw [h.second.entry, h.afterSecond.registry uuid ha, Option.map_map]
        refine Option.map_id_apply.symm.trans (Option.map_congr fun n hn => ?_)
        exact (Ledger.exchangeNodes_moveNode h.first.within.nodes (h.right.reachable.enrolled.made k uuid n hn)).symm
      · rw [h.afterSecond.registry uuid ha, h.second.within.registry uuid hb, h.afterFirst.registry uuid hb,
          h.first.within.registry uuid ha]
        exact hold k
  · rw [h.afterSecond.others k hk, h.second.within.others k hk, h.afterFirst.others k hk, h.first.within.others k hk]
    exact hold k

theorem registry (k : CoordinatorRef) : (sba.ledger.coordinator k).nodes.entries.Perm
    ((sab.ledger.coordinator k).nodes.mapValues (s.ledger.exchangeNodes sa.ledger sb.ledger)).entries := by
  refine Table.entries_perm ?_ (h.endRight.reachable.enrolled.keys k) fun uuid => ?_
  · rw [Table.keys_mapValues]
    exact h.endLeft.reachable.enrolled.keys k
  · rw [Table.find?_mapValues]
    exact h.find? k uuid

/-- As many nodes are registered, and as many of them are alive. -/
theorem population (gauge : Gauge) : sba.ledger.population c gauge = sab.ledger.population c gauge := by
  have hvalues := (h.registry c).map Prod.snd
  have hmapped := Table.values_mapValues (s.ledger.exchangeNodes sa.ledger sb.ledger) (sab.ledger.coordinator c).nodes
  unfold Table.values at hmapped
  rw [hmapped] at hvalues
  cases gauge with
  | registeredDatanodes =>
    have hlength := hvalues.length_eq
    simp only [List.length_map] at hlength
    exact hlength
  | liveDatanodes =>
    refine (hvalues.countP_eq _).trans ((List.countP_map).trans (List.countP_congr fun n _ => ?_))
    show (sba.ledger.node (s.ledger.exchangeNodes sa.ledger sb.ledger n)).alive = true ↔ _
    rw [h.node n]
    rfl

theorem metrics : (sba.ledger.coordinator c).metrics = (sab.ledger.coordinator c).metrics := by
  have hcounter : ∀ k, (sba.ledger.coordinator c).metrics.counter k = (sab.ledger.coordinator c).metrics.counter k := by
    intro k
    have hfirst := h.first.counter k
    have hsecond := h.second.counter k
    grind
  -- raising and lowering a gauge that stops at zero do not commute, but gauges show what there is
  have hgauge : ∀ k, (sba.ledger.coordinator c).metrics.gauge k = (sab.ledger.coordinator c).metrics.gauge k := by
    intro k
    have hright := gauged_iff.1 h.endRight.gauged k
    have hleft := gauged_iff.1 h.endLeft.gauged k
    rw [h.population, ← hleft] at hright
    exact UInt64.toNat_inj.1 hright
  have hstarted := h.same (fun l => (l.coordinator c).metrics.started) fun _ _ _ hwithin => hwithin.started
  have hunderflows : sba.ledger.underflows c = sab.ledger.underflows c := h.endRight.spared.trans h.endLeft.spared.symm
  exact Metrics.ext_counters hcounter hgauge hstarted hunderflows

theorem coordinator (k : CoordinatorRef) :
    sba.ledger.coordinator k = { sab.ledger.coordinator k with nodes := (sba.ledger.coordinator k).nodes } := by
  by_cases hk : k = c
  · subst hk
    have hlimits := h.same (fun l => (l.coordinator k).limits) fun _ _ _ hwithin => hwithin.limits
    have hlock := h.same (fun l => (l.coordinator k).lock) fun _ _ _ hwithin => hwithin.lock
    show sba.ledger.coordinator k = ⟨(sab.ledger.coordinator k).limits, (sab.ledger.coordinator k).lock,
      (sba.ledger.coordinator k).nodes, (sab.ledger.coordinator k).metrics⟩
    rw [← hlimits, ← hlock, ← h.metrics]
  · rw [h.same (·.coordinator k) fun _ _ _ hwithin => hwithin.others k hk]

theorem sameUpTo (hf : Returned f) (hg : Returned g) : sab.ledger.SameUpTo
    (s.ledger.exchangeNodes sa.ledger sb.ledger) (s.ledger.exchangeVolumes sa.ledger sb.ledger) sba.ledger where
  nodes := h.size_nodes
  storages := h.size_storages
  blocks := h.same (·.blocks.size) fun _ _ _ hwithin => hwithin.blocks
  coordinators := h.same (·.coordinators.size) fun _ _ _ hwithin => hwithin.coordinators
  node := h.node
  storage := h.storage
  block := h.block
  holders := h.holders
  coordinator := h.coordinator
  registry := h.registry
  targets n t ht v hv := by
    have hqueued := h.first.within.transfers n (h.afterFirst.transfers n ht)
    exact Ledger.exchangeVolumes_of_lt (h.start.reachable.grounded.targets n t hqueued v hv)
  cursors k hk := by
    rw [h.afterFirst.rest.2.2.1, h.first.within.rest.2.2.1] at hk
    exact Ledger.exchangeVolumes_of_lt (h.start.reachable.grounded.cursors k hk)
  pins n hn := by
    rw [h.afterFirst.rest.2.2.2, h.first.within.rest.2.2.2] at hn
    exact Ledger.exchangeNodes_of_lt (h.start.reachable.orderly.held n (Ledger.mem_heldNodes.2 (.inl hn)))
  rest := by
    have hclock := h.same (·.clock) fun _ _ _ hwithin => hwithin.rest.1
    have hopen := h.same (·.openBlocks) fun _ _ _ hwithin => hwithin.rest.2.1
    have hcursors := h.same (·.cursors) fun _ _ _ hwithin => hwithin.rest.2.2.1
    have hpins := h.same (·.pins) fun _ _ _ hwithin => hwithin.rest.2.2.2
    have hlocks : sba.ledger.locks = sab.ledger.locks := by
      rw [h.first.locks', h.second.locks, h.second.locks', h.first.locks, Ledger.modify_modify, Ledger.modify_modify,
        hf.comm hg]
    show sba.ledger = ⟨sab.ledger.clock, sab.ledger.locks, sba.ledger.blocks, sab.ledger.openBlocks,
      sba.ledger.storages, sba.ledger.nodes, sba.ledger.coordinators, sab.ledger.cursors, sab.ledger.pins⟩
    rw [← hclock, ← hopen, ← hcursors, ← hpins, ← hlocks]

end Diamond
end Service

namespace Operation
variable {s : Service} {c : CoordinatorRef}

/-- Two operations one after the other, and what they answer. -/
def pair (c : CoordinatorRef) (a b : Operation) : Request (Answer × Answer) := do
  let x ← a.request c
  let y ← b.request c
  pure (x, y)

/-- Two operations answer the same in either order, and come to the same: up to the names of the nodes and volumes
that they make, and up to the order in which blocks refer back. What has been there before keeps its name. Only the
journals tell which of the two came first. -/
def Commute (c : CoordinatorRef) (s : Service) (a b : Operation) : Prop :=
  ∃ (x y : Answer) (ab ba : Service) (ν : Equiv.Perm NodeRef) (σ : Equiv.Perm StorageRef),
    (pair c a b).exec s = (.ok (x, y), ab) ∧ (pair c b a).exec s = (.ok (y.rename ν, x.rename ν), ba) ∧
    ab.ledger.SameUpTo ν σ ba.ledger ∧
    (∀ n, n.index < s.ledger.nodes.size → ν n = n) ∧ ∀ v, v.index < s.ledger.storages.size → σ v = v

theorem exec_of_kept (hs : s.Kept c) {op : Operation} (hop : (op.step c).Enabled s.ledger) :
    (op.request c).exec s = (.ok (op.outcome c s.ledger).1, (op.step c).after s) ∧
      ((op.step c).after s).ledger = (op.outcome c s.ledger).2 := by
  obtain ⟨journal, he⟩ := exec_request hs.reachable.coherent hs.reachable.enrolled hop
  rw [after_step, he]
  exact ⟨rfl, rfl⟩

theorem exec_pair {a b : Operation} {x y : Answer} {sa sab : Service}
    (ha : (a.request c).exec s = (.ok x, sa)) (hb : (b.request c).exec sa = (.ok y, sab)) :
    (pair c a b).exec s = (.ok (x, y), sab) := by
  unfold pair
  rw [Request.exec_bind_ok ha]
  rw [Request.exec_bind_ok hb]
  rfl

/-- What an operation does, it does in the name of its node. -/
theorem within (hs : s.Kept c) (op : Operation) {other : String} (hne : op.uuid ≠ other) :
    Within c op.uuid s.ledger (op.outcome c s.ledger).2 := by
  obtain ⟨-, f, -, h⟩ := op.lockstep hs hs (.refl c other s.ledger) hne
  exact h.within

theorem enabled_of_within {l l' : Ledger} {uuid : String} (h : Within c uuid l l') {op : Operation}
    (hop : (op.step c).Enabled l) : (op.step c).Enabled l' := by
  cases op with
  | report uuid volume b => exact Nat.lt_of_lt_of_eq hop h.blocks.symm
  | _ => trivial

/-- The node that an answer names has been made. -/
theorem made_of_answer (hs : s.Kept c) {op : Operation} (hop : (op.step c).Enabled s.ledger)
    (hafter : ((op.step c).after s).Kept c) (hwithin : Within c op.uuid s.ledger ((op.step c).after s).ledger)
    {n : NodeRef} (hn : n ∈ (op.outcome c s.ledger).1.node?) : n.index < ((op.step c).after s).ledger.nodes.size := by
  have hold : ∀ uuid, (s.ledger.coordinator c).nodes.find? uuid = some n →
      n.index < ((op.step c).after s).ledger.nodes.size := fun uuid hfound =>
    Nat.lt_of_lt_of_le (hs.reachable.enrolled.made c uuid n hfound) hwithin.nodes
  have hledger := (exec_of_kept hs hop).2
  cases op with
  | register r storages =>
    cases hfound : (s.ledger.coordinator c).nodes.find? r.uuid with
    | some m =>
      simp only [outcome, Ledger.register, hfound] at hn
      cases hn
      exact hold r.uuid hfound
    | none =>
      simp only [outcome, Ledger.register, hfound] at hn hledger
      cases hn
      apply hafter.reachable.enrolled.made c r.uuid
      rw [hledger, (Ledger.keepsRegistries_settle _ c _ storages).registry]
      exact Ledger.find?_enroll_self hs.made r
  | remove uuid =>
    cases hfound : (s.ledger.coordinator c).nodes.find? uuid with
    | some m =>
      simp only [outcome, Ledger.remove, hfound] at hn
      cases hn
      exact hold uuid hfound
    | none =>
      simp only [outcome, Ledger.remove, hfound] at hn
      cases hn
  | _ => cases hn

/-- What an operation does after another one is what it would have done before. -/
theorem lockstep_after (hs : s.Kept c) {a b : Operation} (hne : a.uuid ≠ b.uuid) (ha : (a.step c).Enabled s.ledger)
    (hb : (b.step c).Enabled s.ledger) {sb : Service} (hsb : (b.step c).after s = sb) (hB : sb.Kept c) :
    (a.step c).Enabled sb.ledger ∧ Within c b.uuid s.ledger sb.ledger ∧
      Within c a.uuid sb.ledger ((a.step c).after sb).ledger ∧
      (a.request c).exec sb =
        (.ok ((a.outcome c s.ledger).1.rename (s.ledger.moveNode sb.ledger)), (a.step c).after sb) ∧
      ∃ f, Returned f ∧ Lockstep c a.uuid s.ledger sb.ledger f ((a.step c).after s).ledger
        ((a.step c).after sb).ledger := by
  have hwithin : Within c b.uuid s.ledger sb.ledger := by
    rw [← hsb, (exec_of_kept hs hb).2]
    exact b.within hs hne.symm
  have ha' := enabled_of_within hwithin ha
  obtain ⟨hexec, hledger⟩ := exec_of_kept hB ha'
  obtain ⟨hanswer, hlockstep⟩ := a.lockstep hs hB hwithin hne
  rw [← hledger, ← (exec_of_kept hs ha).2] at hlockstep
  rw [hanswer] at hexec
  exact ⟨ha', hwithin, hledger ▸ a.within hB hne, hexec, hlockstep⟩

theorem commute (hs : s.Kept c) {a b : Operation} (hne : a.uuid ≠ b.uuid) (ha : (a.step c).Enabled s.ledger)
    (hb : (b.step c).Enabled s.ledger) (hab : s.Throughout (Service.Countable c) [a.step c, b.step c])
    (hba : s.Throughout (Service.Countable c) [b.step c, a.step c]) : Commute c s a b := by
  have hA := hs.after a.managed ha hab.2.head
  have hB := hs.after b.managed hb hba.2.head
  obtain ⟨ha', hwithinB, hafterB, hexecBA, f, hf, hfirst⟩ := lockstep_after hs hne ha hb rfl hB
  obtain ⟨hb', hwithinA, hafterA, hexecAB, g, hg, hsecond⟩ := lockstep_after hs hne.symm hb ha rfl hA
  have hAB := hA.after b.managed hb' hab.2.2
  have hBA := hB.after a.managed ha' hba.2.2
  have hdiamond : Service.Diamond c a.uuid b.uuid f g s _ _ _ _ :=
    ⟨hne, hs, hA, hB, hAB, hBA, hfirst, hsecond, hafterA, hafterB⟩
  refine ⟨_, _, _, _, _, _, exec_pair (exec_of_kept hs ha).1 hexecAB, ?_, hdiamond.sameUpTo hf hg,
    fun n hn => Ledger.exchangeNodes_of_lt hn, fun v hv => Ledger.exchangeVolumes_of_lt hv⟩
  have hx : (a.outcome c s.ledger).1.rename (s.ledger.exchangeNodes _ _) = _ := Answer.rename_congr fun n hn =>
    Ledger.exchangeNodes_eq_moveNode hwithinB.nodes (made_of_answer hs ha hA hwithinA hn)
  have hy : (b.outcome c s.ledger).1.rename (s.ledger.exchangeNodes _ _ ∘ s.ledger.moveNode _) = _ :=
    Answer.rename_eq_self fun n hn =>
      Ledger.exchangeNodes_moveNode hwithinA.nodes (made_of_answer hs hb hB hwithinB hn)
  rw [hx, Answer.rename_rename, hy]
  exact exec_pair (exec_of_kept hs hb).1 hexecBA

end Operation

/-- On a service that has been run by one coordinator only, operations in the names of two nodes commute, whatever
blocks they have in common. -/
theorem operations_commute (clock : Int) (limits : Limits) (steps : List Step) {a b : Operation}
    (hne : a.uuid ≠ b.uuid) :
    let c : CoordinatorRef := ⟨0⟩
    let made := (Step.makeCoordinator limits).after { ledger := { clock } }
    let s := made.run steps
    made.Legal steps → (∀ step ∈ steps, step.Managed c) → made.Throughout (Service.Countable c) steps →
    (a.step c).Enabled s.ledger → (b.step c).Enabled s.ledger →
    s.Throughout (Service.Countable c) [a.step c, b.step c] → s.Throughout (Service.Countable c) [b.step c, a.step c] →
      Operation.Commute c s a b := by
  intro c made s hsteps hmanaged hcountable ha hb hab hba
  have hs := (Service.kept_made clock limits).run hmanaged hsteps hcountable
  exact Operation.commute hs hne ha hb hab hba

/-- A block is on one volume of a node that has two, and another node is there too. -/
def reportedBlock : List Step :=
  let r (uuid : String) := Registration.ofAddress uuid "10.0.0.1" 9866
  [.makeBlock ⟨7, 100, 1⟩ 3, .register ⟨0⟩ (r "a") [{ id := "A" }, { id := "B" }],
    .register ⟨0⟩ (r "b") [{ id := "C" }], .addReportedBlock ⟨0⟩ "a" "B" ⟨0⟩]

/-- Both nodes report the block, the one on its other volume. The block refers back in another order then. -/
theorem operations_commute_on_one_block :
    let s := ((Step.makeCoordinator {}).after {}).run reportedBlock
    let a := Operation.report "a" "A" ⟨0⟩
    let b := Operation.report "b" "C" ⟨0⟩
    Operation.Commute ⟨0⟩ s a b ∧
      (((Operation.pair ⟨0⟩ a b).exec s).2.ledger.block ⟨0⟩).holders = [⟨0⟩, ⟨2⟩] ∧
      (((Operation.pair ⟨0⟩ b a).exec s).2.ledger.block ⟨0⟩).holders = [⟨2⟩, ⟨0⟩] := by
  intro s a b
  have h := operations_commute 0 {} reportedBlock (a := a) (b := b) (by decide) (by decide +kernel)
    (by decide +kernel) (by decide +kernel) (by decide +kernel) (by decide +kernel) (by decide +kernel)
    (by decide +kernel)
  exact ⟨h, by decide +kernel, by decide +kernel⟩

end DatanodeLedger
