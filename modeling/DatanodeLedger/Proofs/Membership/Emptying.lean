import DatanodeLedger.Proofs.Membership.Admission
import DatanodeLedger.Proofs.Membership.Counts

/-! Taking all blocks off a node, in closed form. Every block takes one entry off the lists of the volumes with
the uuid of the node, so that nothing is left on them in the end. -/
namespace DatanodeLedger

namespace Ledger
variable {l l' l'' : Ledger} {n : NodeRef} {uuid : String} {b c : BlockRef} {v w : StorageRef} {us : List StorageRef}

/-- Nothing has changed but the lists of volumes and the back-references of blocks. -/
structure Relisted (l l' : Ledger) : Prop where
  rest : l' = { l with storages := l'.storages, blocks := l'.blocks }
  storages : l'.storages.size = l.storages.size
  blocks : l'.blocks.size = l.blocks.size
  storage : ∀ v, l'.storage v = { l.storage v with blocks := (l'.storage v).blocks }
  block : ∀ b, l'.block b = { l.block b with holders := (l'.block b).holders }

namespace Relisted

instance : IsPreorder Ledger Relisted where
  refl _ := ⟨rfl, rfl, rfl, fun _ => rfl, fun _ => rfl⟩
  trans l l' l'' h h' := by
    refine ⟨?_, h'.storages.trans h.storages, h'.blocks.trans h.blocks, fun v => ?_, fun b => ?_⟩
    · rw [h'.rest, h.rest]
    · rw [h'.storage v, h.storage v]
    · rw [h'.block b, h.block b]

variable (h : l.Relisted l')
include h

theorem nodes : l'.nodes = l.nodes := by rw [h.rest]

theorem node (n : NodeRef) : l'.node n = l.node n := by rw [h.rest]; rfl

theorem coordinators : l'.coordinators = l.coordinators := by rw [h.rest]

theorem held : l'.heldNodes = l.heldNodes := by rw [h.rest]; rfl

theorem live (v : StorageRef) : l'.isLive v = l.isLive v := by rw [h.rest]; rfl

theorem owner (v : StorageRef) : (l'.storage v).owner = (l.storage v).owner := by rw [h.storage v]

end Relisted

theorem relisted_rewrite (l : Ledger) (v : StorageRef) (b : BlockRef) (blocks : Slab UInt64 BlockRef)
    (holders : List StorageRef) : l.Relisted (l.rewrite v b blocks holders) := by
  refine ⟨rfl, Array.size_modify, Array.size_modify, fun w => ?_, fun c => ?_⟩
  · by_cases hw : w = v ∧ w.index < l.storages.size
    · obtain ⟨rfl, hlt⟩ := hw
      have hself : (l.rewrite w b blocks holders).storage w = { l.storage w with blocks } :=
        storage_modifyStorage hlt _
      rw [hself]
    · have hsame : (l.rewrite v b blocks holders).storage w = l.storage w := by
        by_cases hwv : w = v
        · subst hwv
          have hle : l.storages.size ≤ w.index := Nat.le_of_not_lt fun hlt => hw ⟨rfl, hlt⟩
          unfold storage rewrite modifyBlock modifyStorage
          rw [Array.getElem?_eq_none (by rw [Array.size_modify]; exact hle), Array.getElem?_eq_none hle]
        · exact storage_modifyStorage_of_ne hwv _
      rw [hsame]
  · by_cases hc : c = b ∧ c.index < l.blocks.size
    · obtain ⟨rfl, hlt⟩ := hc
      have hself : (l.rewrite v c blocks holders).block c = { l.block c with holders } :=
        block_modifyBlock (l := l.modifyStorage v _) hlt _
      rw [hself]
    · have hsame : (l.rewrite v b blocks holders).block c = l.block c := by
        by_cases hcb : c = b
        · subst hcb
          have hle : l.blocks.size ≤ c.index := Nat.le_of_not_lt fun hlt => hc ⟨rfl, hlt⟩
          unfold block rewrite modifyBlock modifyStorage
          rw [Array.getElem?_eq_none (by rw [Array.size_modify]; exact hle), Array.getElem?_eq_none hle]
        · exact block_modifyBlock_of_ne (l := l.modifyStorage v _) hcb _
      rw [hsame]

/-- The ledger after a block has been taken off the first volume with a uuid that holds it. -/
def dropBlock (uuid : String) (l : Ledger) (b : BlockRef) : Ledger :=
  match l.holderOn? b uuid with
  | none => l
  | some v =>
    match l.detach v b with
    | .ok (_, l') => l'
    | .error _ => l

def dropBlocks (l : Ledger) (uuid : String) (bs : List BlockRef) : Ledger := bs.foldl (dropBlock uuid) l

theorem dropBlock_of_none (h : l.holderOn? b uuid = none) : l.dropBlock uuid b = l := by
  unfold dropBlock
  rw [h]

theorem Coherent.dropBlock (h : l.Coherent) (hv : l.holderOn? b uuid = some v) :
    l.Detached v b (l.dropBlock uuid b) ∧ l.detach v b = .ok (true, l.dropBlock uuid b) ∧
      ∃ blocks holders, l.dropBlock uuid b = l.rewrite v b blocks holders := by
  obtain ⟨l', he, hdet⟩ := h.detach (h.of_holderOn? hv).1
  have hdrop : l.dropBlock uuid b = l' := by
    unfold Ledger.dropBlock
    rw [hv]
    simp only [he]
  rw [hdrop]
  refine ⟨hdet, he, ?_⟩
  rcases detach_cases he with ⟨hrefused, -⟩ | ⟨-, -, blocks, -, hrewrite⟩
  · cases hrefused
  · exact ⟨blocks, _, hrewrite⟩

theorem relisted_dropBlock (l : Ledger) (uuid : String) (b : BlockRef) : l.Relisted (l.dropBlock uuid b) := by
  unfold dropBlock
  split
  · exact refl_of Relisted l
  · split
    · rename_i he
      rcases detach_cases he with ⟨-, rfl⟩ | ⟨-, -, blocks, -, rfl⟩
      · exact refl_of Relisted _
      · exact relisted_rewrite l _ b blocks _
    · exact refl_of Relisted l

theorem relisted_dropBlocks (l : Ledger) (uuid : String) (bs : List BlockRef) :
    l.Relisted (l.dropBlocks uuid bs) := by
  induction bs generalizing l with
  | nil => exact refl_of Relisted l
  | cons b bs ih => exact trans_of Relisted (relisted_dropBlock l uuid b) (ih _)

/-- The ledger when others hold its nodes. -/
def handTo (l : Ledger) (coordinators : Array Coordinator) (pins : List NodeRef) : Ledger := { l with coordinators, pins }

section handTo
variable {coordinators : Array Coordinator} {pins : List NodeRef}

theorem detach_handTo (l : Ledger) (v : StorageRef) (b : BlockRef) :
    (l.handTo coordinators pins).detach v b =
      (l.detach v b).map fun p => (p.1, p.2.handTo coordinators pins) := by
  have hlists : (l.handTo coordinators pins).lists v b = l.lists v b := rfl
  have hblocks : ((l.handTo coordinators pins).storage v).blocks = (l.storage v).blocks := rfl
  have hid : ((l.handTo coordinators pins).block b).block.id = (l.block b).block.id := rfl
  unfold detach
  rw [hlists, hblocks, hid]
  rcases l.lists v b with e | _ | _
  · rfl
  · rfl
  · cases (l.storage v).blocks.remove (l.block b).block.id <;> rfl

variable (hlive : ∀ v, (l.handTo coordinators pins).isLive v = l.isLive v)
include hlive

/-- As long as the same volumes are live, it does not matter who holds the nodes. -/
theorem dropBlock_handTo (uuid : String) (b : BlockRef) :
    (l.handTo coordinators pins).dropBlock uuid b = (l.dropBlock uuid b).handTo coordinators pins := by
  have hholder : (l.handTo coordinators pins).holderOn? b uuid = l.holderOn? b uuid := by
    unfold holderOn? holders
    rw [funext hlive]
    rfl
  unfold dropBlock
  rw [hholder]
  cases l.holderOn? b uuid with
  | none => rfl
  | some v =>
    simp only [detach_handTo]
    cases l.detach v b <;> rfl

theorem dropBlocks_handTo (uuid : String) (bs : List BlockRef) :
    (l.handTo coordinators pins).dropBlocks uuid bs = (l.dropBlocks uuid bs).handTo coordinators pins := by
  induction bs generalizing l with
  | nil => rfl
  | cons b bs ih =>
    have hlive' : ∀ v, ((l.dropBlock uuid b).handTo coordinators pins).isLive v = (l.dropBlock uuid b).isLive v := by
      intro v
      have hrest : (l.dropBlock uuid b).handTo coordinators pins = (l.handTo coordinators pins).dropBlock uuid b :=
        (dropBlock_handTo hlive uuid b).symm
      rw [(relisted_dropBlock l uuid b).live, hrest, (relisted_dropBlock _ uuid b).live, hlive]
    refine (congrArg (dropBlocks · uuid bs) (dropBlock_handTo hlive uuid b)).trans ?_
    exact ih hlive'

end handTo

theorem Coherent.coherent_dropBlock (h : l.Coherent) (uuid : String) (b : BlockRef) :
    (l.dropBlock uuid b).Coherent := by
  cases hv : l.holderOn? b uuid with
  | none => rwa [dropBlock_of_none hv]
  | some v => exact (h.dropBlock hv).1.coherent

theorem Coherent.coherent_dropBlocks (h : l.Coherent) (uuid : String) (bs : List BlockRef) :
    (l.dropBlocks uuid bs).Coherent := by
  induction bs generalizing l with
  | nil => exact h
  | cons b bs ih => exact ih (h.coherent_dropBlock uuid b)

/-- One of the lists loses an item, and so do all of them together. -/
private theorem flatMap_erase_perm {f f' : StorageRef → List BlockRef} (hnd : us.Nodup) (hv : v ∈ us)
    (hself : f' v = (f v).erase b) (hb : b ∈ f v) (hother : ∀ w, w ≠ v → f' w = f w) :
    (us.flatMap f').Perm ((us.flatMap f).erase b) := by
  have hcons : (us.flatMap f).Perm (b :: us.flatMap f') := by
    induction us with
    | nil => exact (List.not_mem_nil hv).elim
    | cons u us ih =>
      obtain ⟨hu, hnd⟩ := List.nodup_cons.1 hnd
      rw [List.flatMap_cons, List.flatMap_cons]
      by_cases huv : u = v
      · subst huv
        have hrest : us.flatMap f' = us.flatMap f :=
          List.flatMap_congr fun w hw => hother w fun h => hu (h ▸ hw)
        rw [hself, hrest, ← List.cons_append]
        exact (List.perm_cons_erase hb).append_right _
      · rw [hother u huv]
        exact ((ih hnd ((List.mem_cons.1 hv).resolve_left (Ne.symm huv))).append_left (f u)).trans
          List.perm_middle
  exact (List.erase_cons_head b _ ▸ hcons.erase b).symm

/-- The volumes with a uuid that list anything are among some volumes that are there. -/
structure Houses (l : Ledger) (uuid : String) (us : List StorageRef) : Prop where
  nodup : us.Nodup
  live : ∀ v ∈ us, l.isLive v = true
  owner : ∀ v ∈ us, (l.storage v).owner = uuid
  only : ∀ v, l.isLive v = true → (l.storage v).owner = uuid → l.listed v ≠ [] → v ∈ us

section houses
variable (hl : l.Coherent) (h : l.Houses uuid us)
include hl h

theorem Houses.mem_of_holderOn? (hv : l.holderOn? b uuid = some v) : v ∈ us := by
  obtain ⟨hb, hlive, howner⟩ := hl.of_holderOn? hv
  exact h.only v hlive howner (List.ne_nil_of_mem hb)

/-- A volume that is not one of them is as it was. -/
theorem Houses.storage_dropBlock (b : BlockRef) (hw : w ∉ us) :
    (l.dropBlock uuid b).storage w = l.storage w := by
  cases hv : l.holderOn? b uuid with
  | none => rw [dropBlock_of_none hv]
  | some v =>
    obtain ⟨-, -, blocks, holders, hrewrite⟩ := hl.dropBlock hv
    have hwv : w ≠ v := by
      rintro rfl
      exact hw (h.mem_of_holderOn? hl hv)
    rw [hrewrite]
    exact storage_modifyStorage_of_ne hwv _

theorem Houses.dropBlock (b : BlockRef) : (l.dropBlock uuid b).Houses uuid us := by
  have hrelisted := relisted_dropBlock l uuid b
  refine ⟨h.nodup, fun v hv => (hrelisted.live v).trans (h.live v hv),
    fun v hv => (hrelisted.owner v).trans (h.owner v hv), fun v hlive howner hlisted => ?_⟩
  by_contra hv
  have hsame : (l.dropBlock uuid b).listed v = l.listed v :=
    listed_congr (congrArg Storage.blocks (h.storage_dropBlock hl b hv))
  rw [hrelisted.live] at hlive
  rw [hrelisted.owner] at howner
  exact hv (h.only v hlive howner (hsame ▸ hlisted))

/-- A block that is dropped is gone from one of the lists, if it is on any. -/
theorem Houses.flatMap_dropBlock (b : BlockRef) :
    (us.flatMap (l.dropBlock uuid b).listed).Perm ((us.flatMap l.listed).erase b) := by
  cases hv : l.holderOn? b uuid with
  | none =>
    have hb : b ∉ us.flatMap l.listed := by
      intro hb
      obtain ⟨u, hu, hbu⟩ := List.mem_flatMap.1 hb
      exact hl.of_holderOn?_eq_none hv (h.live u hu) (h.owner u hu) hbu
    rw [dropBlock_of_none hv, List.erase_of_not_mem hb]
  | some v =>
    have hdet := (hl.dropBlock hv).1
    exact flatMap_erase_perm h.nodup (h.mem_of_holderOn? hl hv) hdet.listed_self (hl.of_holderOn? hv).1
      hdet.listed_of_ne

/-- Blocks that come up as often as they are listed leave nothing on the lists. -/
theorem Houses.listed_dropBlocks {bs : List BlockRef} (hbs : (us.flatMap l.listed).Subperm bs) (hv : v ∈ us) :
    (l.dropBlocks uuid bs).listed v = [] := by
  induction bs generalizing l with
  | nil =>
    have hnil : us.flatMap l.listed = [] := List.subperm_nil.1 hbs
    exact List.flatMap_eq_nil_iff.1 hnil v hv
  | cons b bs ih =>
    refine ih (hl.coherent_dropBlock uuid b) (h.dropBlock hl b) ?_
    have herase : ((us.flatMap l.listed).erase b).Subperm bs := List.erase_cons_head b bs ▸ hbs.erase b
    exact (h.flatMap_dropBlock hl b).subperm.trans herase

theorem Houses.storage_dropBlocks (bs : List BlockRef) (hw : w ∉ us) :
    (l.dropBlocks uuid bs).storage w = l.storage w := by
  induction bs generalizing l with
  | nil => rfl
  | cons b bs ih =>
    exact (ih (hl.coherent_dropBlock uuid b) (h.dropBlock hl b)).trans (h.storage_dropBlock hl b hw)

/-- The back-references to other volumes stay. -/
theorem Houses.holders_dropBlocks (bs : List BlockRef) (c : BlockRef) :
    (((l.dropBlocks uuid bs).block c).holders.filter fun v => decide (v ∉ us)).Perm
      ((l.block c).holders.filter fun v => decide (v ∉ us)) := by
  induction bs generalizing l with
  | nil => exact List.Perm.refl _
  | cons b bs ih =>
    refine (ih (hl.coherent_dropBlock uuid b) (h.dropBlock hl b)).trans ?_
    cases hv : l.holderOn? b uuid with
    | none => rw [dropBlock_of_none hv]
    | some v =>
      have hdet := (hl.dropBlock hv).1
      by_cases hc : c = b
      · subst hc
        have hmem : v ∈ (l.block c).holders := List.mem_of_mem_filter (List.mem_of_find?_eq_some hv)
        have hvu : v ∈ us := h.mem_of_holderOn? hl hv
        rw [hdet.holders_self]
        refine ((swapRemove_perm v _).filter _).trans ?_
        have hcons := (List.perm_cons_erase hmem).filter fun v => decide (v ∉ us)
        rw [List.filter_cons_of_neg (by simpa using hvu)] at hcons
        exact hcons.symm
      · rw [hdet.holders_of_ne c hc]

end houses

/-- The volumes of a node that someone holds, if no other live ones with its uuid list anything. -/
theorem Coherent.houses (hl : l.Coherent) (ho : l.Orderly) (hn : n ∈ l.heldNodes)
    (honly : ∀ v, l.isLive v = true → (l.storage v).owner = (l.node n).uuid → l.listed v ≠ [] →
      v ∈ (l.node n).storages.values) :
    l.Houses (l.node n).uuid (l.node n).storages.values :=
  ⟨ho.values_nodup n, fun _ hv => isLive_of_mem hn hv, fun v hv => (hl.owned n v hv).2, honly⟩

/-- Once all its blocks are off a node, no block refers back to its volumes, and each keeps its back-references
to others. -/
theorem Houses.holders_dropAll (h : l.Houses uuid us) (hl : l.Coherent) {bs : List BlockRef}
    (hbs : (us.flatMap l.listed).Subperm bs) (c : BlockRef) :
    ((l.dropBlocks uuid bs).block c).holders.Perm ((l.block c).holders.filter fun v => decide (v ∉ us)) := by
  have hl' := hl.coherent_dropBlocks uuid bs
  have hnone : ∀ v ∈ ((l.dropBlocks uuid bs).block c).holders, v ∉ us := by
    intro v hv hvu
    have hlive := ((relisted_dropBlocks l uuid bs).live v).trans (h.live v hvu)
    have hlisted := (hl'.mirror v c hlive).2 hv
    rw [h.listed_dropBlocks hl hbs hvu] at hlisted
    exact List.not_mem_nil hlisted
  have hfilter := h.holders_dropBlocks hl bs c
  rwa [List.filter_eq_self.2 fun v hv => decide_eq_true (hnone v hv)] at hfilter

end Ledger

namespace Request
variable {s : Service} {g : Guard} {n : NodeRef}

/-- A guard of the lock that the node is tied to passes and changes nothing. -/
theorem exec_check_of_tied (h : (s.ledger.node n).lock = some g.lock) : (check n g).exec s = (.ok ⟨⟩, s) := by
  unfold check
  rw [exec_bind_ok (exec_node ..)]
  simp only [h, ne_eq, not_true_eq_false, if_false]
  rfl

section tied
variable {l : Ledger} (hl : l.Coherent) (h : (l.node n).lock = some g.lock)
include hl h

theorem exec_removeBlock_of_tied (b : BlockRef) (journal : List Event) : (removeBlock g n b).exec ⟨l, journal⟩ =
    (.ok (l.holderOn? b (l.node n).uuid).isSome, ⟨l.dropBlock (l.node n).uuid b, journal⟩) := by
  unfold removeBlock
  rw [exec_bind_ok (exec_check_of_tied h)]
  rw [exec_bind_ok (exec_ledger _)]
  simp only
  cases hv : l.holderOn? b (l.node n).uuid with
  | none =>
    rw [Ledger.dropBlock_of_none hv]
    rfl
  | some v => exact exec_attempt_ok ⟨l, journal⟩ (hl.dropBlock hv).2.1

private theorem exec_removeBlocks_of_tied (bs : List BlockRef) (count : Nat) :
    ∃ count', ∀ journal, (bs.foldlM (fun (count : Nat) b => do
        pure (if ← removeBlock g n b then count + 1 else count)) count).exec ⟨l, journal⟩ =
      (.ok count', ⟨l.dropBlocks (l.node n).uuid bs, journal⟩) := by
  induction bs generalizing l count with
  | nil => exact ⟨count, fun _ => rfl⟩
  | cons b bs ih =>
    have hrelisted := Ledger.relisted_dropBlock l (l.node n).uuid b
    obtain ⟨count', he⟩ := ih (l := l.dropBlock (l.node n).uuid b) (hl.coherent_dropBlock _ b)
      ((congrArg Node.lock (hrelisted.node n)).trans h)
      (if (l.holderOn? b (l.node n).uuid).isSome then count + 1 else count)
    refine ⟨count', fun journal => ?_⟩
    rw [List.foldlM_cons, exec_bind, exec_bind, exec_removeBlock_of_tied hl h b]
    rw [hrelisted.node n] at he
    exact he journal

/-- Under the lock that it is tied to, a node loses its blocks one after the other, in the order in which its
volumes list them at first. -/
theorem exec_removeAllBlocks_of_tied : ∃ count, ∀ journal, (removeAllBlocks g n).exec ⟨l, journal⟩ =
    (.ok count, ⟨l.dropBlocks (l.node n).uuid (l.blocksOn n), journal⟩) := by
  obtain ⟨count, hfold⟩ := exec_removeBlocks_of_tied hl h (l.blocksOn n) 0
  refine ⟨count, fun journal => ?_⟩
  have hwalk : (walkBlocks g n).exec ⟨l, journal⟩ = (.ok (.through (l.node n).storages.values), ⟨l, journal⟩) := by
    unfold walkBlocks
    rw [exec_bind_ok (exec_check_of_tied h)]
    rfl
  have hcollect : (collect (.through (l.node n).storages.values)).exec ⟨l, journal⟩ =
      (.ok (l.blocksOn n), ⟨l, journal⟩) := by
    unfold collect
    rw [exec_look, hl.collect_eq]
    rfl
  unfold removeAllBlocks
  rw [exec_bind_ok hwalk]
  rw [exec_bind_ok hcollect]
  exact hfold journal

end tied
end Request
end DatanodeLedger
