import DatanodeLedger.Proofs.Membership.Admission

/-! Membership as a partial map. A placement says on which volume of a node a block is, for any node and any
block by their names; lists and back-references picture it. -/
namespace DatanodeLedger

/-- A call about membership, on nodes and blocks that go by references or by names. -/
inductive Call (ν β : Type) where
  | announce (n : ν) (a : Announcement)
  | add (n : ν) (id : String) (b : β)
  | remove (n : ν) (b : β)
  | removeFrom (n : ν) (id : String) (b : β)
  | removeAll (n : ν)

def Call.map {ν ν' β β' : Type} (f : ν → ν') (g : β → β') : Call ν β → Call ν' β'
  | announce n a => .announce (f n) a
  | add n id b => .add (f n) id (g b)
  | remove n b => .remove (f n) (g b)
  | removeFrom n id b => .removeFrom (f n) id (g b)
  | removeAll n => .removeAll (f n)

inductive Reply where
  | announced
  | changed (value : Bool)
  | removed (count : Nat)
  deriving DecidableEq, Repr

/-- Which volumes the nodes know, and on which of them the blocks are. A node goes by its uuid. -/
structure Placement where
  known : List (String × String) := []
  places : Table (String × UInt64) String := {}

namespace Placement
variable {p : Placement}

def place? (p : Placement) (uuid : String) (block : UInt64) : Option String := p.places.find? (uuid, block)

/-- The blocks of a node. -/
def blocksOf (p : Placement) (uuid : String) : List (String × UInt64) :=
  p.places.keys.filter fun key => key.1 = uuid

/-- How many blocks are on a volume of a node. -/
def countOn (p : Placement) (uuid id : String) : Nat :=
  p.places.entries.countP fun entry => entry.1.1 = uuid ∧ entry.2 = id

/-- How many nodes have a block. -/
def countNodes (p : Placement) (block : UInt64) : Nat := p.places.keys.countP fun key => key.2 = block

def perform (p : Placement) : Call String UInt64 → Reply × Placement
  | .announce uuid a => (.announced, { p with known := (uuid, a.id) :: p.known })
  | .add uuid id block =>
    if (uuid, id) ∈ p.known ∧ p.place? uuid block ≠ some id then
      (.changed true, { p with places := p.places.insert (uuid, block) id })
    else (.changed false, p)
  | .remove uuid block =>
    (.changed (p.place? uuid block).isSome, { p with places := p.places.erase (uuid, block) })
  | .removeFrom uuid id block =>
    if p.place? uuid block = some id then
      (.changed true, { p with places := p.places.erase (uuid, block) })
    else (.changed false, p)
  | .removeAll uuid =>
    (.removed (p.blocksOf uuid).length, { p with places := (p.blocksOf uuid).foldl Table.erase p.places })

theorem perform_remove (p : Placement) (uuid : String) (block : UInt64) :
    p.perform (.remove uuid block) =
      (.changed (p.place? uuid block).isSome, { p with places := p.places.erase (uuid, block) }) := rfl

/-- The replies to some calls, and the placement after them. -/
def run (p : Placement) : List (Call String UInt64) → List Reply × Placement
  | [] => ([], p)
  | call :: calls =>
    let rest := (p.perform call).2.run calls
    ((p.perform call).1 :: rest.1, rest.2)

end Placement

namespace Table
variable {κ α : Type} [DecidableEq κ]

theorem find?_foldl_erase {ks : List κ} {t : Table κ α} {k : κ} {a : α} :
    (ks.foldl erase t).find? k = some a ↔ k ∉ ks ∧ t.find? k = some a := by
  induction ks generalizing t with
  | nil => exact ⟨fun h => ⟨List.not_mem_nil, h⟩, And.right⟩
  | cons j ks ih =>
    rw [List.foldl_cons, ih, List.mem_cons, not_or]
    by_cases hj : k = j
    · rw [hj, find?_erase_self]
      exact ⟨fun h => (nomatch h.2), fun h => (h.1.1 rfl).elim⟩
    · rw [find?_erase_of_ne t hj]
      exact ⟨fun h => ⟨⟨hj, h.1⟩, h.2⟩, fun h => ⟨h.1.2, h.2⟩⟩

/-- To erase first makes no difference to what an insertion leaves to be found. -/
theorem find?_insert_erase (t : Table κ α) (k : κ) (a : α) (j : κ) :
    ((t.erase k).insert k a).find? j = (t.insert k a).find? j := by
  by_cases hj : j = k
  · rw [hj, find?_insert_self, find?_insert_self]
  · rw [find?_insert_of_ne _ hj, find?_insert_of_ne _ hj, find?_erase_of_ne _ hj]

/-- What is not there can be erased. -/
theorem find?_erase_of_none {t : Table κ α} {k : κ} (h : t.find? k = none) (j : κ) :
    (t.erase k).find? j = t.find? j := by
  by_cases hj : j = k
  · rw [hj, find?_erase_self, h]
  · rw [find?_erase_of_ne _ hj]

theorem keys_nodup_foldl_erase {t : Table κ α} (h : t.keys.Nodup) (ks : List κ) :
    (ks.foldl erase t).keys.Nodup := by
  induction ks generalizing t with
  | nil => exact h
  | cons k ks ih => exact ih (keys_nodup_erase h k)

end Table

namespace Ledger
variable {l l' : Ledger} {nodes : List NodeRef} {records : List BlockRef} {p p' : Placement} {n : NodeRef}
  {id : String} {b : BlockRef} {v : StorageRef}

/-- Nodes that are held and go by different uuids, and records that are made and go by different ids. -/
structure Distinct (l : Ledger) (nodes : List NodeRef) (records : List BlockRef) : Prop where
  held : ∀ n ∈ nodes, n ∈ l.heldNodes
  uuids : ∀ m ∈ nodes, ∀ n ∈ nodes, (l.node m).uuid = (l.node n).uuid → m = n
  made : ∀ b ∈ records, b.index < l.blocks.size
  ids : ∀ b ∈ records, ∀ c ∈ records, (l.block b).block.id = (l.block c).block.id → b = c

/-- What is on the lists of these nodes and what is in the placement is the same, and nothing is on other lists. -/
structure Pictures (l : Ledger) (nodes : List NodeRef) (records : List BlockRef) (p : Placement) : Prop
    extends l.Distinct nodes records where
  keys : p.places.keys.Nodup
  known : ∀ n ∈ nodes, ∀ id, (l.storageOf? n id).isSome = true ↔ ((l.node n).uuid, id) ∈ p.known
  placed : ∀ v, l.isLive v = true → ∀ b ∈ l.listed v, b ∈ records ∧ ∃ n ∈ nodes, ∃ id,
    l.storageOf? n id = some v ∧ p.place? (l.node n).uuid (l.block b).block.id = some id
  listed : ∀ uuid block id, p.place? uuid block = some id → ∃ n ∈ nodes, (l.node n).uuid = uuid ∧
    ∃ v, l.storageOf? n id = some v ∧ ∃ b ∈ l.listed v, (l.block b).block.id = block

/-- All records go by the same names as before. -/
structure SameNames (l l' : Ledger) : Prop where
  uuid : ∀ n, (l'.node n).uuid = (l.node n).uuid
  block : ∀ b, (l'.block b).block = (l.block b).block

theorem SameNames.trans {l'' : Ledger} (h : l.SameNames l') (h' : l'.SameNames l'') : l.SameNames l'' :=
  ⟨fun n => (h'.uuid n).trans (h.uuid n), fun b => (h'.block b).trans (h.block b)⟩

theorem Alike.sameNames (h : l.Alike l') : l.SameNames l' :=
  ⟨h.uuid, fun b => congrArg BlockRecord.block (h.block b)⟩

theorem Rewritten.sameNames {bs : List BlockRef} {hs : List StorageRef} (h : l.Rewritten v b bs hs l') :
    l.SameNames l' := ⟨h.uuid, h.block⟩

theorem Rewritten.storageOf? {bs : List BlockRef} {hs : List StorageRef} (h : l.Rewritten v b bs hs l')
    (n : NodeRef) (id : String) : l'.storageOf? n id = l.storageOf? n id := by
  unfold Ledger.storageOf?
  rw [h.volumes]

theorem Distinct.of_sameNames (h : l.Distinct nodes records) (hnames : l.SameNames l')
    (held : l'.heldNodes = l.heldNodes) (blocks : l.blocks.size ≤ l'.blocks.size) :
    l'.Distinct nodes records where
  held n hn := held ▸ h.held n hn
  uuids m hm n hn huuid := h.uuids m hm n hn (by rwa [hnames.uuid, hnames.uuid] at huuid)
  made b hb := Nat.lt_of_lt_of_le (h.made b hb) blocks
  ids b hb c hc hid := h.ids b hb c hc (by rwa [hnames.block, hnames.block] at hid)

namespace Pictures
variable (h : l.Pictures nodes records p)
include h

/-- It is only what can be looked up in a placement that counts. -/
theorem congr (hkeys : p'.places.keys.Nodup) (hknown : p'.known = p.known)
    (hplaces : ∀ uuid block, p'.place? uuid block = p.place? uuid block) : l.Pictures nodes records p' where
  toDistinct := h.toDistinct
  keys := hkeys
  known n hn id := hknown ▸ h.known n hn id
  placed v hv b hb := by
    simp only [hplaces]
    exact h.placed v hv b hb
  listed uuid block id hp := h.listed uuid block id ((hplaces uuid block).symm.trans hp)

/-- A volume of these nodes that lists a block is where the block is placed. -/
theorem place?_of_mem (hl : l.Coherent) (hn : n ∈ nodes) (hv : l.isLive v = true)
    (howner : (l.storage v).owner = (l.node n).uuid) (hb : b ∈ l.listed v) :
    ∃ id, l.storageOf? n id = some v ∧ p.place? (l.node n).uuid (l.block b).block.id = some id := by
  obtain ⟨-, m, hm, id, hid, hplace⟩ := h.placed v hv b hb
  have huuid := (hl.owned m v (Table.mem_values_of_find? hid)).2.symm.trans howner
  obtain rfl := h.uuids m hm n hn huuid
  exact ⟨id, hid, hplace⟩

theorem place?_of_holderOn? (hl : l.Coherent) (hn : n ∈ nodes) (hv : l.holderOn? b (l.node n).uuid = some v) :
    ∃ id, l.storageOf? n id = some v ∧ p.place? (l.node n).uuid (l.block b).block.id = some id := by
  obtain ⟨hbv, hlive, howner⟩ := hl.of_holderOn? hv
  exact h.place?_of_mem hl hn hlive howner hbv

/-- As records do not share ids, the only one with the id of a block that a volume lists is the block itself. -/
theorem mem_listed_of_occupied (hb : b ∈ records) (hv : l.isLive v = true) (ho : l.Occupied v b) :
    b ∈ l.listed v := by
  obtain ⟨c, hc, hblock⟩ := List.mem_map.1 ho
  exact h.ids c (h.placed v hv c hc).1 b hb hblock ▸ hc

/-- A block is listed where it is placed. -/
theorem listed_of_place? (hl : l.Coherent) (hn : n ∈ nodes) (hb : b ∈ records)
    (hplace : p.place? (l.node n).uuid (l.block b).block.id = some id) :
    ∃ v, l.storageOf? n id = some v ∧ b ∈ l.listed v := by
  obtain ⟨m, hm, huuid, v, hid, c, hc, hblock⟩ := h.listed _ _ _ hplace
  obtain rfl := h.uuids m hm n hn huuid
  obtain ⟨-, hlive, -⟩ := hl.of_storageOf? (h.held m hm) hid
  obtain rfl := h.ids c (h.placed v hlive c hc).1 b hb hblock
  exact ⟨v, hid, hc⟩

/-- The volume that is found to hold a block is the one where it is placed. -/
theorem holderOn?_eq (hl : l.Coherent) (hn : n ∈ nodes) (hb : b ∈ records) :
    l.holderOn? b (l.node n).uuid =
      (p.place? (l.node n).uuid (l.block b).block.id).bind fun id => l.storageOf? n id := by
  cases hholder : l.holderOn? b (l.node n).uuid with
  | some v =>
    obtain ⟨hbv, hlive, howner⟩ := hl.of_holderOn? hholder
    obtain ⟨id, hid, hplace⟩ := h.place?_of_mem hl hn hlive howner hbv
    rw [hplace]
    exact hid.symm
  | none =>
    cases hplace : p.place? (l.node n).uuid (l.block b).block.id with
    | none => rfl
    | some id =>
      obtain ⟨v, hid, hbv⟩ := h.listed_of_place? hl hn hb hplace
      obtain ⟨-, hlive, howner⟩ := hl.of_storageOf? (h.held n hn) hid
      exact (hl.of_holderOn?_eq_none hholder hlive howner hbv).elim

/-- No volume is found exactly if the block has no place on the node. -/
theorem holderOn?_eq_none_iff (hl : l.Coherent) (hn : n ∈ nodes) (hb : b ∈ records) :
    l.holderOn? b (l.node n).uuid = none ↔ p.place? (l.node n).uuid (l.block b).block.id = none := by
  rw [h.holderOn?_eq hl hn hb]
  cases hplace : p.place? (l.node n).uuid (l.block b).block.id with
  | none => exact ⟨fun _ => rfl, fun _ => rfl⟩
  | some id =>
    obtain ⟨v, hid, -⟩ := h.listed_of_place? hl hn hb hplace
    refine ⟨fun hnone => ?_, fun hnone => nomatch hnone⟩
    rw [Option.bind_some, hid] at hnone
    cases hnone

/-- Nothing has moved, and the nodes know at least the volumes that they knew. -/
theorem unmoved (hnames : l.SameNames l') (hgrows : l.Grows l')
    (held : l'.heldNodes = l.heldNodes) (hlists : ∀ v, l'.listed v = l.listed v)
    (htables : ∀ n id v, l.storageOf? n id = some v → l'.storageOf? n id = some v)
    (hknown : ∀ n ∈ nodes, ∀ id, (l'.storageOf? n id).isSome = true ↔ ((l'.node n).uuid, id) ∈ p'.known)
    (hplaces : p'.places = p.places) : l'.Pictures nodes records p' where
  toDistinct := h.toDistinct.of_sameNames hnames held hgrows.blocks
  keys := hplaces ▸ h.keys
  known := hknown
  placed v hv b hb := by
    rw [hlists] at hb
    obtain ⟨hrecord, n, hn, id, hid, hplace⟩ := h.placed v (hgrows.live v (lt_size_of_mem_listed hb) hv) b hb
    refine ⟨hrecord, n, hn, id, htables n id v hid, ?_⟩
    unfold Placement.place?
    rw [hplaces, hnames.uuid, hnames.block]
    exact hplace
  listed uuid block id hp := by
    unfold Placement.place? at hp
    rw [hplaces] at hp
    obtain ⟨n, hn, huuid, v, hid, b, hb, hblock⟩ := h.listed uuid block id hp
    refine ⟨n, hn, (hnames.uuid n).trans huuid, v, htables n id v hid, b, hlists v ▸ hb, ?_⟩
    rw [hnames.block]
    exact hblock

theorem alike (halike : l.Alike l') : l'.Pictures nodes records p :=
  h.unmoved halike.sameNames halike.quiet.toGrows halike.held halike.listed
    (fun n id _ hid => (halike.storageOf? n id).trans hid)
    (fun n hn id => by rw [halike.storageOf?, halike.uuid]; exact h.known n hn id) rfl

/-- A block that is taken off the volume where it is placed loses its place. -/
theorem detached (hl : l.Coherent) (hn : n ∈ nodes) (hid : l.storageOf? n id = some v) (hb : b ∈ l.listed v)
    (hrew : l.Detached v b l') : l'.Pictures nodes records
      { p with places := p.places.erase ((l.node n).uuid, (l.block b).block.id) } := by
  obtain ⟨-, hlive, howner⟩ := hl.of_storageOf? (h.held n hn) hid
  obtain ⟨i, hi, hplace⟩ := h.place?_of_mem hl hn hlive howner hb
  have hbrecord := (h.placed v hlive b hb).1
  refine ⟨h.toDistinct.of_sameNames hrew.sameNames hrew.held hrew.grows.blocks,
    Table.keys_nodup_erase h.keys _, fun m hm j => ?_, fun u hu c hc => ?_, fun uuid block j hp => ?_⟩
  · rw [hrew.storageOf?, hrew.uuid]
    exact h.known m hm j
  -- what is still listed goes by another name than the block that is taken off
  · obtain ⟨hc, hne⟩ := (hrew.mem_listed hl).1 hc
    obtain ⟨hrecord, m, hm, j, hj, hplace'⟩ := h.placed u (hrew.live u ▸ hu) c hc
    refine ⟨hrecord, m, hm, j, (hrew.storageOf? m j).trans hj, ?_⟩
    rw [hrew.uuid, hrew.block]
    refine (Table.find?_erase_of_ne _ fun hkey => hne ?_).trans hplace'
    obtain ⟨huuid, hblock⟩ := Prod.mk.inj hkey
    obtain rfl := h.uuids m hm n hn huuid
    obtain rfl := h.ids c hrecord b hbrecord hblock
    rw [hplace] at hplace'
    cases hplace'
    exact ⟨Option.some.inj (hj.symm.trans hi), rfl⟩
  · have hne : (uuid, block) ≠ ((l.node n).uuid, (l.block b).block.id) := by
      intro hkey
      have hnone := Table.find?_erase_self p.places ((l.node n).uuid, (l.block b).block.id)
      unfold Placement.place? at hp
      rw [hkey, hnone] at hp
      cases hp
    obtain ⟨m, hm, huuid, u, hj, c, hc, hblock⟩ :=
      h.listed uuid block j ((Table.find?_erase_of_ne _ hne).symm.trans hp)
    refine ⟨m, hm, (hrew.uuid m).trans huuid, u, (hrew.storageOf? m j).trans hj, c,
      (hrew.mem_listed hl).2 ⟨hc, ?_⟩, ?_⟩
    · rintro ⟨rfl, rfl⟩
      have howner' := (hl.of_storageOf? (h.held m hm) hj).2.2
      exact hne (by rw [← huuid, ← hblock, ← howner', howner])
    · rw [hrew.block]
      exact hblock

/-- A block that has no place on the node gets one. -/
theorem attached (hn : n ∈ nodes) (hrecord : b ∈ records) (hid : l.storageOf? n id = some v)
    (hnone : p.place? (l.node n).uuid (l.block b).block.id = none) (hrew : l.Attached v b l') :
    l'.Pictures nodes records
      { p with places := p.places.insert ((l.node n).uuid, (l.block b).block.id) id } := by
  refine ⟨h.toDistinct.of_sameNames hrew.sameNames hrew.held hrew.grows.blocks,
    Table.keys_nodup_insert h.keys _ _, fun m hm j => ?_, fun u hu c hc => ?_, fun uuid block j hp => ?_⟩
  · rw [hrew.storageOf?, hrew.uuid]
    exact h.known m hm j
  · rcases hrew.mem_listed.1 hc with ⟨rfl, rfl⟩ | hc
    · refine ⟨hrecord, n, hn, id, (hrew.storageOf? n id).trans hid, ?_⟩
      rw [hrew.uuid, hrew.block]
      exact Table.find?_insert_self _ _ _
    · obtain ⟨hcrecord, m, hm, j, hj, hplace⟩ := h.placed u (hrew.live u ▸ hu) c hc
      refine ⟨hcrecord, m, hm, j, (hrew.storageOf? m j).trans hj, ?_⟩
      rw [hrew.uuid, hrew.block]
      refine (Table.find?_insert_of_ne _ (fun hkey => ?_) _).trans hplace
      unfold Placement.place? at hnone hplace
      rw [hkey, hnone] at hplace
      cases hplace
  · by_cases hkey : (uuid, block) = ((l.node n).uuid, (l.block b).block.id)
    · have hself := Table.find?_insert_self p.places ((l.node n).uuid, (l.block b).block.id) id
      obtain ⟨huuid, hblock⟩ := Prod.mk.inj hkey
      unfold Placement.place? at hp
      rw [hkey, hself] at hp
      cases hp
      refine ⟨n, hn, (hrew.uuid n).trans huuid.symm, v, (hrew.storageOf? n id).trans hid, b,
        hrew.mem_listed.2 (.inl ⟨rfl, rfl⟩), ?_⟩
      rw [hrew.block]
      exact hblock.symm
    · obtain ⟨m, hm, huuid, u, hj, c, hc, hblock⟩ :=
        h.listed uuid block j ((Table.find?_insert_of_ne _ hkey _).symm.trans hp)
      refine ⟨m, hm, (hrew.uuid m).trans huuid, u, (hrew.storageOf? m j).trans hj, c,
        hrew.mem_listed.2 (.inr hc), ?_⟩
      rw [hrew.block]
      exact hblock

/-- A block that goes from one volume of the node to another has lost its place before it gets the new one. -/
theorem moved {l₁ : Ledger} {t : StorageRef} {j : String} (hl : l.Coherent) (hn : n ∈ nodes) (hrecord : b ∈ records)
    (hid : l.storageOf? n id = some v) (hb : b ∈ l.listed v) (ht : l.storageOf? n j = some t)
    (hrew : l.Detached v b l₁) (hrew' : l₁.Attached t b l') :
    l'.Pictures nodes records
      { p with places := p.places.insert ((l.node n).uuid, (l.block b).block.id) j } := by
  have ht₁ : l₁.storageOf? n j = some t := (hrew.storageOf? n j).trans ht
  have hnone : Placement.place? { p with places := p.places.erase ((l.node n).uuid, (l.block b).block.id) }
      (l₁.node n).uuid (l₁.block b).block.id = none := by
    rw [hrew.uuid, hrew.block]
    exact Table.find?_erase_self _ _
  have h' := (h.detached hl hn hid hb hrew).attached hn hrecord ht₁ hnone hrew'
  rw [hrew.uuid, hrew.block] at h'
  exact h'.congr (Table.keys_nodup_insert h.keys _ _) rfl fun _ _ => (Table.find?_insert_erase _ _ _ _).symm

end Pictures
end Ledger
end DatanodeLedger
