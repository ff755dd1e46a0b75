import DatanodeLedger.Proofs.Membership.Placement
import DatanodeLedger.Proofs.Run.Orderly

/-! What can be counted on lists and back-references is what can be counted on the placement that they picture. -/
namespace DatanodeLedger

theorem Placement.mem_keys {p : Placement} {uuid : String} {block : UInt64} :
    (uuid, block) ∈ p.places.keys ↔ ∃ id, p.place? uuid block = some id := by
  rw [← Option.isSome_iff_exists, ← Table.contains_iff, ← Table.isSome_find?]
  exact Iff.rfl

namespace Ledger
variable {l : Ledger} {nodes : List NodeRef} {records : List BlockRef} {p : Placement} {n : NodeRef} {id : String}
  {b : BlockRef} {v : StorageRef}

theorem Orderly.entry (h : l.Orderly) (hid : l.storageOf? n id = some v) : (l.storage v).id = id :=
  h.named n id v ((Table.find?_eq_some_iff (h.keys n)).1 hid)

/-- A volume goes by one id on the table of a node. -/
theorem Orderly.id_unique {id' : String} (h : l.Orderly) (hid : l.storageOf? n id = some v)
    (hid' : l.storageOf? n id' = some v) : id = id' := (h.entry hid).symm.trans (h.entry hid')

theorem Orderly.values_nodup (h : l.Orderly) (n : NodeRef) : (l.node n).storages.values.Nodup := by
  have hids : (l.node n).storages.values.map (fun v => (l.storage v).id) = (l.node n).storages.keys := by
    unfold Table.values Table.keys
    rw [List.map_map]
    exact List.map_congr_left fun e he => h.named n e.1 e.2 he
  exact List.Nodup.of_map _ (hids ▸ h.keys n)

/-- The blocks on the volumes of a node, one volume after the other. -/
def blocksOn (l : Ledger) (n : NodeRef) : List BlockRef := (l.node n).storages.values.flatMap l.listed

/-- The names of a node and of a block. -/
def key (l : Ledger) (n : NodeRef) (b : BlockRef) : String × UInt64 := ((l.node n).uuid, (l.block b).block.id)

theorem SameNames.key {l' : Ledger} (h : l.SameNames l') : l'.key n = l.key n := by
  funext b
  unfold Ledger.key
  rw [h.uuid, h.block]

namespace Pictures
variable (h : l.Pictures nodes records p) (hl : l.Coherent) (hn : n ∈ nodes)
include h hl hn

theorem place?_of_mem_values (hv : v ∈ (l.node n).storages.values) (hb : b ∈ l.listed v) :
    b ∈ records ∧ ∃ id, l.storageOf? n id = some v ∧ p.place? (l.node n).uuid (l.block b).block.id = some id := by
  have hlive := isLive_of_mem (h.held n hn) hv
  exact ⟨(h.placed v hlive b hb).1, h.place?_of_mem hl hn hlive (hl.owned n v hv).2 hb⟩

theorem place?_of_blocksOn (hb : b ∈ l.blocksOn n) :
    b ∈ records ∧ ∃ id, p.place? (l.node n).uuid (l.block b).block.id = some id := by
  obtain ⟨v, hv, hbv⟩ := List.mem_flatMap.1 hb
  obtain ⟨hrecord, id, -, hplace⟩ := h.place?_of_mem_values hl hn hv hbv
  exact ⟨hrecord, id, hplace⟩

theorem key_injOn : ∀ b ∈ l.blocksOn n, ∀ c ∈ l.blocksOn n, l.key n b = l.key n c → b = c := by
  intro b hb c hc hkey
  exact h.ids b (h.place?_of_blocksOn hl hn hb).1 c (h.place?_of_blocksOn hl hn hc).1 (Prod.mk.inj hkey).2

theorem blocksOn_nodup (ho : l.Orderly) : (l.blocksOn n).Nodup := by
  refine List.nodup_flatMap.2 ⟨fun v _ => hl.listed_nodup v, ?_⟩
  refine (ho.values_nodup n).imp_of_mem fun hu hv hne b hbu hbv => ?_
  obtain ⟨-, i, hi, hplace⟩ := h.place?_of_mem_values hl hn hu hbu
  obtain ⟨-, j, hj, hplace'⟩ := h.place?_of_mem_values hl hn hv hbv
  obtain rfl := Option.some.inj (hplace.symm.trans hplace')
  exact hne (Option.some.inj (hi.symm.trans hj))

/-- The blocks on the volumes of a node are those that are placed there. -/
theorem blocksOf_perm (ho : l.Orderly) : ((l.blocksOn n).map (l.key n)).Perm (p.blocksOf (l.node n).uuid) := by
  refine (List.perm_ext_iff_of_nodup ?_ (h.keys.filter _)).2 fun ⟨uuid, block⟩ => ?_
  · exact (h.blocksOn_nodup hl hn ho).map_on (h.key_injOn hl hn)
  · rw [List.mem_map, List.mem_filter, Placement.mem_keys, decide_eq_true_iff]
    constructor
    · rintro ⟨b, hb, hkey⟩
      obtain ⟨rfl, rfl⟩ := Prod.mk.inj hkey
      exact ⟨(h.place?_of_blocksOn hl hn hb).2, rfl⟩
    · rintro ⟨⟨id, hplace⟩, huuid⟩
      obtain ⟨m, hm, huuid', v, hid, b, hb, hblock⟩ := h.listed uuid block id hplace
      obtain rfl := h.uuids m hm n hn (huuid'.trans huuid)
      refine ⟨b, List.mem_flatMap.2 ⟨v, Table.mem_values_of_find? hid, hb⟩, ?_⟩
      unfold key
      rw [huuid', hblock]

/-- The blocks that a volume lists are those that are placed on it. -/
theorem countOn_eq (ho : l.Orderly) (hid : l.storageOf? n id = some v) :
    (l.listed v).length = p.countOn (l.node n).uuid id := by
  have hv := Table.mem_values_of_find? hid
  have hentries : p.places.entries.Nodup := .of_map Prod.fst h.keys
  have hmem : ∀ b ∈ l.listed v, b ∈ l.blocksOn n := fun b hb => List.mem_flatMap.2 ⟨v, hv, hb⟩
  have hperm : ((l.listed v).map fun b => (l.key n b, id)).Perm
      (p.places.entries.filter fun entry => entry.1.1 = (l.node n).uuid ∧ entry.2 = id) := by
    refine (List.perm_ext_iff_of_nodup ?_ (hentries.filter _)).2 fun ⟨⟨uuid, block⟩, i⟩ => ?_
    · refine (hl.listed_nodup v).map_on fun b hb c hc he => ?_
      exact h.key_injOn hl hn b (hmem b hb) c (hmem c hc) (Prod.mk.inj he).1
    · rw [List.mem_map, List.mem_filter, ← Table.find?_eq_some_iff h.keys, decide_eq_true_iff]
      constructor
      · rintro ⟨b, hb, he⟩
        obtain ⟨hkey, rfl⟩ := Prod.mk.inj he
        obtain ⟨rfl, rfl⟩ := Prod.mk.inj hkey
        obtain ⟨-, j, hj, hplace⟩ := h.place?_of_mem_values hl hn hv hb
        obtain rfl := ho.id_unique hid hj
        exact ⟨hplace, rfl, rfl⟩
      · rintro ⟨hplace, rfl, rfl⟩
        obtain ⟨m, hm, huuid, w, hw, b, hb, hblock⟩ := h.listed _ block _ hplace
        obtain rfl := h.uuids m hm n hn huuid
        obtain rfl := Option.some.inj (hid.symm.trans hw)
        exact ⟨b, hb, by rw [← hblock]; rfl⟩
  unfold Placement.countOn
  rw [List.countP_eq_length_filter, ← hperm.length_eq, List.length_map]

end Pictures

theorem Coherent.numBlocks_storage (hl : l.Coherent) (v : StorageRef) :
    (l.storage v).numBlocks = .ok (l.listed v).length := by
  unfold Storage.numBlocks
  rw [(hl.shown v).length_eq rfl, row, List.length_map]

/-- The blocks of a node are counted volume by volume. -/
theorem Coherent.numBlocks_eq (hl : l.Coherent) (n : NodeRef) : l.numBlocks n = .ok (l.blocksOn n).length := by
  have hfold : ∀ (vs : List StorageRef) (count : Nat),
      vs.foldlM (fun count v => do pure (count + (← (l.storage v).numBlocks))) count =
        (.ok (count + (vs.flatMap l.listed).length) : Except Fault Nat) := by
    intro vs
    induction vs with
    | nil => exact fun _ => rfl
    | cons v vs ih =>
      intro count
      rw [List.foldlM_cons, hl.numBlocks_storage v]
      refine (ih _).trans ?_
      rw [List.flatMap_cons, List.length_append, Nat.add_assoc]
  exact (hfold _ 0).trans (congrArg Except.ok (Nat.zero_add _))

/-- The volumes that hold a block are as many as the nodes that it is placed on. -/
theorem Pictures.length_holders (h : l.Pictures nodes records p) (hl : l.Coherent) (hb : b ∈ records) :
    (l.holders b).length = p.countNodes (l.block b).block.id := by
  have hfound : ∀ v ∈ l.holders b, ∃ n ∈ nodes, ∃ id, (l.storage v).owner = (l.node n).uuid ∧
      l.storageOf? n id = some v ∧ p.place? (l.node n).uuid (l.block b).block.id = some id := by
    intro v hv
    obtain ⟨hlive, hbv⟩ := hl.mem_holders.1 hv
    obtain ⟨-, n, hn, id, hid, hplace⟩ := h.placed v hlive b hbv
    exact ⟨n, hn, id, (hl.of_storageOf? (h.held n hn) hid).2.2, hid, hplace⟩
  have hperm : ((l.holders b).map fun v => ((l.storage v).owner, (l.block b).block.id)).Perm
      (p.places.keys.filter fun key => key.2 = (l.block b).block.id) := by
    refine (List.perm_ext_iff_of_nodup ?_ (h.keys.filter _)).2 fun ⟨uuid, block⟩ => ?_
    · refine (hl.holders_nodup b).map_on fun u hu v hv he => ?_
      obtain ⟨m, hm, i, howner, hi, hplace⟩ := hfound u hu
      obtain ⟨n, hn, j, howner', hj, hplace'⟩ := hfound v hv
      obtain rfl := h.uuids m hm n hn (howner.symm.trans ((Prod.mk.inj he).1.trans howner'))
      obtain rfl := Option.some.inj (hplace.symm.trans hplace')
      exact Option.some.inj (hi.symm.trans hj)
    · rw [List.mem_map, List.mem_filter, Placement.mem_keys, decide_eq_true_iff]
      constructor
      · rintro ⟨v, hv, he⟩
        obtain ⟨rfl, rfl⟩ := Prod.mk.inj he
        obtain ⟨n, -, id, howner, -, hplace⟩ := hfound v hv
        exact ⟨⟨id, howner ▸ hplace⟩, rfl⟩
      · rintro ⟨⟨id, hplace⟩, rfl⟩
        obtain ⟨n, hn, rfl, v, hid, c, hc, hblock⟩ := h.listed uuid _ id hplace
        obtain ⟨-, hlive, howner⟩ := hl.of_storageOf? (h.held n hn) hid
        obtain rfl := h.ids c (h.placed v hlive c hc).1 b hb hblock
        exact ⟨v, hl.mem_holders.2 ⟨hlive, hc⟩, by rw [howner]⟩
  unfold Placement.countNodes
  rw [List.countP_eq_length_filter, ← hperm.length_eq, List.length_map]

end Ledger
end DatanodeLedger
