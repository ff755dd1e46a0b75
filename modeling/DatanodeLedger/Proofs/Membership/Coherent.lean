import DatanodeLedger.Proofs.Membership.Listing
import Mathlib.Order.Defs.Unbundled

/-! What holds between the lists of the volumes and the back-references of the blocks, and the changes
of a ledger that leave both alone. -/
namespace DatanodeLedger.Ledger
variable {l l' l'' : Ledger} {s t : StorageRef} {b c : BlockRef}

/-- The volumes that the nodes keep are made, and carry the uuids of their nodes. -/
def Owned (l : Ledger) : Prop :=
  ∀ n, ∀ s ∈ (l.node n).storages.values,
    s.index < l.storages.size ∧ (l.storage s).owner = (l.node n).uuid

/-- Lists and back-references agree. A volume that is gone may still be referred to. -/
structure Coherent (l : Ledger) : Prop where
  shown : ∀ s, (l.storage s).blocks.Shows [l.row s]
  made : ∀ s, ∀ b ∈ l.listed s, b.index < l.blocks.size
  mirror : ∀ s b, l.isLive s = true → (b ∈ l.listed s ↔ s ∈ (l.block b).holders)
  known : ∀ b, ∀ s ∈ (l.block b).holders, s.index < l.storages.size
  once : ∀ b, (l.block b).holders.Nodup
  owned : l.Owned

/-- No record is unmade or becomes another one, and no volume comes back once it is gone. -/
structure Grows (l l' : Ledger) : Prop where
  blocks : l.blocks.size ≤ l'.blocks.size
  storages : l.storages.size ≤ l'.storages.size
  block : ∀ b, b.index < l.blocks.size → (l'.block b).block = (l.block b).block
  owner : ∀ s, s.index < l.storages.size → (l'.storage s).owner = (l.storage s).owner
  live : ∀ s, s.index < l.storages.size → l'.isLive s = true → l.isLive s = true
  owned : l.Owned → l'.Owned

/-- The ledger grows, and all lists and back-references are as they were. -/
structure Quiet (l l' : Ledger) : Prop extends Grows l l' where
  lists : ∀ s, (l'.storage s).blocks = (l.storage s).blocks
  holders : ∀ b, (l'.block b).holders = (l.block b).holders

namespace Grows

theorem refl (l : Ledger) : l.Grows l where
  blocks := Nat.le_refl _
  storages := Nat.le_refl _
  block _ _ := rfl
  owner _ _ := rfl
  live _ _ h := h
  owned h := h

theorem trans (h : l.Grows l') (h' : l'.Grows l'') : l.Grows l'' where
  blocks := Nat.le_trans h.blocks h'.blocks
  storages := Nat.le_trans h.storages h'.storages
  block b hb := (h'.block b (Nat.lt_of_lt_of_le hb h.blocks)).trans (h.block b hb)
  owner s hs := (h'.owner s (Nat.lt_of_lt_of_le hs h.storages)).trans (h.owner s hs)
  live s hs hlive := h.live s hs (h'.live s (Nat.lt_of_lt_of_le hs h.storages) hlive)
  owned ho := h'.owned (h.owned ho)

end Grows

namespace Quiet

theorem refl (l : Ledger) : l.Quiet l where
  toGrows := .refl l
  lists _ := rfl
  holders _ := rfl

theorem trans (h : l.Quiet l') (h' : l'.Quiet l'') : l.Quiet l'' where
  toGrows := h.toGrows.trans h'.toGrows
  lists s := (h'.lists s).trans (h.lists s)
  holders b := (h'.holders b).trans (h.holders b)

theorem listed (h : l.Quiet l') (s : StorageRef) : l'.listed s = l.listed s := listed_congr (h.lists s)

theorem coherent (h : l.Quiet l') (hl : l.Coherent) : l'.Coherent where
  shown s := by
    have hrow : l'.row s = l.row s := by
      unfold row
      rw [h.listed s]
      exact List.map_congr_left fun b hb => by rw [h.block b (hl.made s b hb)]
    rw [hrow, h.lists s]
    exact hl.shown s
  made s b hb := by
    rw [h.listed s] at hb
    exact Nat.lt_of_lt_of_le (hl.made s b hb) h.blocks
  mirror s b hlive := by
    rw [h.listed s, h.holders b]
    by_cases hs : s.index < l.storages.size
    · exact hl.mirror s b (h.live s hs hlive)
    · -- a volume that is new has an empty list, and nothing refers to it yet
      exact ⟨fun hb => (hs (lt_size_of_mem_listed hb)).elim, fun hb => (hs (hl.known b s hb)).elim⟩
  known b s hs := by
    rw [h.holders b] at hs
    exact Nat.lt_of_lt_of_le (hl.known b s hs) h.storages
  once b := h.holders b ▸ hl.once b
  owned := h.owned hl.owned

end Quiet

instance : IsPreorder Ledger Quiet where
  refl := Quiet.refl
  trans _ _ _ := Quiet.trans

/-- Nothing that bears on membership has changed. -/
structure Alike (l l' : Ledger) : Prop where
  storages : l'.storages = l.storages
  blocks : l'.blocks = l.blocks
  live : ∀ s, l'.isLive s = l.isLive s
  held : l'.heldNodes = l.heldNodes
  keeps : ∀ n s, l'.keeps n s = l.keeps n s
  volumes : ∀ n, (l'.node n).storages = (l.node n).storages
  uuid : ∀ n, (l'.node n).uuid = (l.node n).uuid

namespace Coherent

theorem ids_nodup (h : l.Coherent) (s : StorageRef) :
    ((l.listed s).map fun b => (l.block b).block.id).Nodup := by
  have hkeys := (h.shown s).keys_nodup
  simpa only [Slab.Plain.keys, row, List.flatten_cons, List.flatten_nil, List.append_nil, List.map_map,
    Function.comp_def] using hkeys

theorem listed_nodup (h : l.Coherent) (s : StorageRef) : (l.listed s).Nodup := (h.ids_nodup s).of_map _

/-- What a volume lists lies in the arena of its slab, seat by seat. -/
theorem exists_layout (h : l.Coherent) (s : StorageRef) :
    ∃ seats, (l.storage s).blocks.Layout [seats] := by
  obtain ⟨rows, hlay, hplain⟩ := h.shown s
  obtain ⟨seats, rfl, -⟩ := List.map_eq_singleton_iff.1 hplain
  exact ⟨seats, hlay⟩

theorem blockRefs_eq (h : l.Coherent) (s : StorageRef) : (l.storage s).blockRefs = .ok (l.listed s) := by
  rw [blockRefs_of_shows (h.shown s), row, List.map_map]
  simp only [Function.comp_def, List.map_id']

theorem mem_holders (h : l.Coherent) : s ∈ l.holders b ↔ l.isLive s = true ∧ b ∈ l.listed s := by
  rw [holders, List.mem_filter]
  constructor
  · rintro ⟨hs, hlive⟩
    exact ⟨hlive, (h.mirror s b hlive).2 hs⟩
  · rintro ⟨hlive, hb⟩
    exact ⟨(h.mirror s b hlive).1 hb, hlive⟩

theorem holders_nodup (h : l.Coherent) (b : BlockRef) : (l.holders b).Nodup := (h.once b).filter _

end Coherent

/-- The ledger after a volume has got another list, and a block other back-references. -/
def rewrite (l : Ledger) (s : StorageRef) (b : BlockRef) (blocks : Slab UInt64 BlockRef)
    (holders : List StorageRef) : Ledger :=
  (l.modifyStorage s fun storage => { storage with blocks }).modifyBlock b fun record =>
    { record with holders }

/-- The membership of one block on one volume has changed; `bs` is the list of the volume now, and
`hs` are the back-references of the block. -/
structure Rewritten (l : Ledger) (s : StorageRef) (b : BlockRef) (bs : List BlockRef)
    (hs : List StorageRef) (l' : Ledger) : Prop where
  grows : l.Grows l'
  coherent : l'.Coherent
  live : ∀ t, l'.isLive t = l.isLive t
  held : l'.heldNodes = l.heldNodes
  volumes : ∀ n, (l'.node n).storages = (l.node n).storages
  uuid : ∀ n, (l'.node n).uuid = (l.node n).uuid
  owner : ∀ t, (l'.storage t).owner = (l.storage t).owner
  block : ∀ c, (l'.block c).block = (l.block c).block
  listed_self : l'.listed s = bs
  listed_of_ne : ∀ t, t ≠ s → l'.listed t = l.listed t
  holders_self : (l'.block b).holders = hs
  holders_of_ne : ∀ c, c ≠ b → (l'.block c).holders = (l.block c).holders

section rewrite
variable {blocks : Slab UInt64 BlockRef} {bs : List BlockRef} {hs : List StorageRef}

/-- What a new list and new back-references have to obey: they agree on the block and the volume, and
apart from these two they agree with what was there. -/
structure Fits (l : Ledger) (s : StorageRef) (b : BlockRef) (bs : List BlockRef)
    (hs : List StorageRef) : Prop where
  storage : s.index < l.storages.size
  block : b.index < l.blocks.size
  both : b ∈ bs ↔ s ∈ hs
  others : ∀ c, c ≠ b → (c ∈ bs ↔ c ∈ l.listed s)
  holders : ∀ t, t ≠ s → l.isLive t = true → (t ∈ hs ↔ t ∈ (l.block b).holders)
  known : ∀ t ∈ hs, t.index < l.storages.size
  once : hs.Nodup

private theorem block_rewrite (l : Ledger) (s : StorageRef) (b c : BlockRef) :
    ((l.rewrite s b blocks hs).block c).block = (l.block c).block :=
  block_modifyBlock_congr (l := l.modifyStorage s _) BlockRecord.block rfl c

private theorem owner_rewrite (l : Ledger) (s t : StorageRef) (b : BlockRef) :
    ((l.rewrite s b blocks hs).storage t).owner = (l.storage t).owner :=
  storage_modifyStorage_congr Storage.owner rfl t

private theorem grows_rewrite (l : Ledger) (s : StorageRef) (b : BlockRef) :
    l.Grows (l.rewrite s b blocks hs) where
  blocks := Nat.le_of_eq (Array.size_modify ..).symm
  storages := Nat.le_of_eq (Array.size_modify ..).symm
  block c _ := block_rewrite l s b c
  owner t _ := owner_rewrite l s t b
  live _ _ h := h
  owned h n t ht := by
    obtain ⟨hlt, hown⟩ := h n t ht
    refine ⟨?_, (owner_rewrite l s t b).trans hown⟩
    rw [show (l.rewrite s b blocks hs).storages.size = l.storages.size from Array.size_modify ..]
    exact hlt

private theorem blocks_rewrite_of_ne {t : StorageRef} (ht : t ≠ s) :
    ((l.rewrite s b blocks hs).storage t).blocks = (l.storage t).blocks :=
  congrArg Storage.blocks (storage_modifyStorage_of_ne ht _)

private theorem listed_rewrite_of_ne {t : StorageRef} (ht : t ≠ s) :
    (l.rewrite s b blocks hs).listed t = l.listed t :=
  listed_congr (blocks_rewrite_of_ne ht)

private theorem holders_rewrite_of_ne {c : BlockRef} (hc : c ≠ b) :
    ((l.rewrite s b blocks hs).block c).holders = (l.block c).holders :=
  congrArg BlockRecord.holders (block_modifyBlock_of_ne (l := l.modifyStorage s _) hc _)

private theorem holders_rewrite_self (hb : b.index < l.blocks.size) :
    ((l.rewrite s b blocks hs).block b).holders = hs :=
  congrArg BlockRecord.holders (block_modifyBlock (l := l.modifyStorage s _) hb _)

private theorem blocks_rewrite_self (hs' : s.index < l.storages.size) :
    ((l.rewrite s b blocks hs).storage s).blocks = blocks :=
  congrArg Storage.blocks (storage_modifyStorage hs' _)

variable (hfit : l.Fits s b bs hs) (hshow : blocks.Shows [bs.map fun c => ((l.block c).block.id, c)])
include hfit hshow

private theorem listed_rewrite_self : (l.rewrite s b blocks hs).listed s = bs := by
  have hself : ((l.rewrite s b blocks hs).storage s).blocks = blocks := blocks_rewrite_self hfit.storage
  rw [listed_of_shows (hself ▸ hshow), List.map_map]
  simp only [Function.comp_def, List.map_id']

/-- The volume and the block that are rewritten agree with each other, and the others as before. -/
private theorem Coherent.rewrite (h : l.Coherent) : (l.rewrite s b blocks hs).Coherent where
  shown t := by
    simp only [row, block_rewrite]
    by_cases ht : t = s
    · rw [ht, listed_rewrite_self hfit hshow, blocks_rewrite_self hfit.storage]
      exact hshow
    · rw [listed_rewrite_of_ne ht, blocks_rewrite_of_ne ht]
      exact h.shown t
  made t c hc := by
    have hsize : (l.rewrite s b blocks hs).blocks.size = l.blocks.size := Array.size_modify ..
    rw [hsize]
    by_cases ht : t = s
    · rw [ht, listed_rewrite_self hfit hshow] at hc
      by_cases hcb : c = b
      · exact hcb ▸ hfit.block
      · exact h.made s c ((hfit.others c hcb).1 hc)
    · rw [listed_rewrite_of_ne ht] at hc
      exact h.made t c hc
  mirror t c hlive := by
    have hlive' : l.isLive t = true := hlive
    by_cases ht : t = s
    · rw [ht, listed_rewrite_self hfit hshow]
      by_cases hc : c = b
      · rw [hc, holders_rewrite_self hfit.block]
        exact hfit.both
      · rw [holders_rewrite_of_ne hc, hfit.others c hc]
        exact h.mirror s c (ht ▸ hlive')
    · rw [listed_rewrite_of_ne ht]
      by_cases hc : c = b
      · rw [hc, holders_rewrite_self hfit.block, hfit.holders t ht hlive']
        exact h.mirror t b hlive'
      · rw [holders_rewrite_of_ne hc]
        exact h.mirror t c hlive'
  known c t ht := by
    have hsize : (l.rewrite s b blocks hs).storages.size = l.storages.size := Array.size_modify ..
    rw [hsize]
    by_cases hc : c = b
    · rw [hc, holders_rewrite_self hfit.block] at ht
      exact hfit.known t ht
    · rw [holders_rewrite_of_ne hc] at ht
      exact h.known c t ht
  once c := by
    by_cases hc : c = b
    · rw [hc, holders_rewrite_self hfit.block]
      exact hfit.once
    · rw [holders_rewrite_of_ne hc]
      exact h.once c
  owned := (grows_rewrite l s b).owned h.owned

theorem Coherent.rewritten (h : l.Coherent) : l.Rewritten s b bs hs (l.rewrite s b blocks hs) where
  grows := grows_rewrite l s b
  coherent := h.rewrite hfit hshow
  live _ := rfl
  held := rfl
  volumes _ := rfl
  uuid _ := rfl
  owner t := owner_rewrite l s t b
  block := block_rewrite l s b
  listed_self := listed_rewrite_self hfit hshow
  listed_of_ne _ := listed_rewrite_of_ne
  holders_self := holders_rewrite_self hfit.block
  holders_of_ne _ := holders_rewrite_of_ne

end rewrite

namespace Alike

theorem refl (l : Ledger) : l.Alike l :=
  ⟨rfl, rfl, fun _ => rfl, rfl, fun _ _ => rfl, fun _ => rfl, fun _ => rfl⟩

theorem trans (h : l.Alike l') (h' : l'.Alike l'') : l.Alike l'' where
  storages := h'.storages.trans h.storages
  blocks := h'.blocks.trans h.blocks
  live s := (h'.live s).trans (h.live s)
  held := h'.held.trans h.held
  keeps n s := (h'.keeps n s).trans (h.keeps n s)
  volumes n := (h'.volumes n).trans (h.volumes n)
  uuid n := (h'.uuid n).trans (h.uuid n)

instance : IsPreorder Ledger Alike where
  refl := refl
  trans _ _ _ := trans

variable (h : l.Alike l')
include h

theorem storage (s : StorageRef) : l'.storage s = l.storage s := by
  unfold Ledger.storage
  rw [h.storages]

theorem block (b : BlockRef) : l'.block b = l.block b := by
  unfold Ledger.block
  rw [h.blocks]

theorem listed (s : StorageRef) : l'.listed s = l.listed s :=
  listed_congr (congrArg Storage.blocks (h.storage s))

theorem holders (b : BlockRef) : l'.holders b = l.holders b := by
  unfold Ledger.holders
  rw [h.block b]
  exact List.filter_congr fun s _ => h.live s

theorem holderOn? (b : BlockRef) (uuid : String) : l'.holderOn? b uuid = l.holderOn? b uuid := by
  unfold Ledger.holderOn?
  rw [h.holders b]
  simp only [h.storage]

theorem storageOf? (n : NodeRef) (id : String) : l'.storageOf? n id = l.storageOf? n id := by
  unfold Ledger.storageOf?
  rw [h.volumes n]

theorem quiet : l.Quiet l' where
  blocks := Nat.le_of_eq (congrArg Array.size h.blocks.symm)
  storages := Nat.le_of_eq (congrArg Array.size h.storages.symm)
  block b _ := congrArg BlockRecord.block (h.block b)
  owner s _ := congrArg Storage.owner (h.storage s)
  live s _ hs := h.live s ▸ hs
  owned ho n s hs := by
    rw [h.storages, h.storage s, h.uuid n]
    exact ho n s (h.volumes n ▸ hs)
  lists s := congrArg Storage.blocks (h.storage s)
  holders b := congrArg BlockRecord.holders (h.block b)

theorem rewritten {bs : List BlockRef} {hs : List StorageRef} (h' : l'.Rewritten s b bs hs l'') :
    l.Rewritten s b bs hs l'' where
  grows := h.quiet.toGrows.trans h'.grows
  coherent := h'.coherent
  live t := (h'.live t).trans (h.live t)
  held := h'.held.trans h.held
  volumes n := (h'.volumes n).trans (h.volumes n)
  uuid n := (h'.uuid n).trans (h.uuid n)
  owner t := (h'.owner t).trans (congrArg Storage.owner (h.storage t))
  block c := (h'.block c).trans (congrArg BlockRecord.block (h.block c))
  listed_self := h'.listed_self
  listed_of_ne t ht := (h'.listed_of_ne t ht).trans (h.listed t)
  holders_self := h'.holders_self
  holders_of_ne c hc := (h'.holders_of_ne c hc).trans (congrArg BlockRecord.holders (h.block c))

end Alike
end DatanodeLedger.Ledger
