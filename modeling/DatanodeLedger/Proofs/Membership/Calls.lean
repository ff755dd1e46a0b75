import DatanodeLedger.Proofs.Membership.Counts

/-! Each call about membership does to lists and back-references what it does to the placement that they
picture, and is answered accordingly. -/
namespace DatanodeLedger
open Ledger (Pictures SameNames Tied)

/-- A call has been answered, and has changed lists and back-references, as it would have the placement. -/
structure Follows (l : Ledger) (nodes : List NodeRef) (records : List BlockRef) (p : Placement)
    (call : Call String UInt64) (answer : Except Fault Reply) (l' : Ledger) : Prop where
  answer : answer = .ok (p.perform call).1
  coherent : l'.Coherent
  names : l.SameNames l'
  pictures : l'.Pictures nodes records (p.perform call).2

theorem follows_of_perform {l l' : Ledger} {nodes : List NodeRef} {records : List BlockRef} {p p' : Placement}
    {call : Call String UInt64} {reply : Reply} (h : p.perform call = (reply, p')) (coherent : l'.Coherent)
    (names : l.SameNames l') (pictures : l'.Pictures nodes records p') :
    Follows l nodes records p call (.ok reply) l' := by
  refine ⟨?_, coherent, names, ?_⟩
  · rw [h]
  · rw [h]
    exact pictures

theorem Follows.of_alike {l l' : Ledger} {nodes : List NodeRef} {records : List BlockRef} {p : Placement}
    {call : Call String UInt64} {reply : Reply} (h : p.perform call = (reply, p)) (hl : l.Coherent)
    (hp : l.Pictures nodes records p) (halike : l.Alike l') : Follows l nodes records p call (.ok reply) l' :=
  follows_of_perform h (halike.quiet.coherent hl) halike.sameNames (hp.alike halike)

/-- A block that has a place is removed. -/
theorem Follows.removed {l l' : Ledger} {nodes : List NodeRef} {records : List BlockRef} {p : Placement}
    {uuid id : String} {block : UInt64} {answer : Except Fault Bool}
    (h : Follows l nodes records p (.remove uuid block) (answer.map .changed) l')
    (hplace : p.place? uuid block = some id) : answer = .ok true := by
  have hanswer := h.answer
  rw [Placement.perform_remove, hplace] at hanswer
  cases answer with
  | error e => cases hanswer
  | ok removed =>
    cases hanswer
    rfl

namespace Request
variable {s : Service} {nodes : List NodeRef} {records : List BlockRef} {p : Placement} {n : NodeRef} {id : String}
  {b : BlockRef} {g : Guard}

theorem removeBlock_follows (h : s.ledger.Pictures nodes records p) (hl : s.ledger.Coherent) (hn : n ∈ nodes)
    (hb : b ∈ records) (hg : s.ledger.Admits n g) :
    Follows s.ledger nodes records p (.remove (s.ledger.node n).uuid (s.ledger.block b).block.id)
      (((removeBlock g n b).exec s).1.map .changed) ((removeBlock g n b).exec s).2.ledger := by
  obtain ⟨removed, hok⟩ := exec_removeBlock_of_admits hl hg b
  have hremoval := exec_removeBlock hl g n b
  rw [hok] at hremoval ⊢
  cases hremoval with
  | missing hmissing halike =>
    have hnone : p.place? (s.ledger.node n).uuid (s.ledger.block b).block.id = none := by
      rw [← h.holderOn?_eq_none_iff hl hn hb]
      cases hfound : s.ledger.holderOn? b (s.ledger.node n).uuid with
      | none => rfl
      | some v => exact (hmissing v hfound (hl.of_holderOn? hfound).1).elim
    have hperform := p.perform_remove (s.ledger.node n).uuid (s.ledger.block b).block.id
    rw [hnone] at hperform
    refine follows_of_perform hperform (halike.quiet.coherent hl) halike.sameNames ?_
    exact (h.alike halike).congr (Table.keys_nodup_erase h.keys _) rfl fun _ _ => Table.find?_erase_of_none hnone _
  | @taken v _ hv hbv hrew =>
    obtain ⟨i, hi, hplace⟩ := h.place?_of_holderOn? hl hn hv
    have hperform := p.perform_remove (s.ledger.node n).uuid (s.ledger.block b).block.id
    rw [hplace] at hperform
    exact follows_of_perform hperform hrew.coherent hrew.sameNames (h.detached hl hn hi hbv hrew)

theorem removeBlockFrom_follows (h : s.ledger.Pictures nodes records p) (hl : s.ledger.Coherent)
    (ho : s.ledger.Orderly) (hn : n ∈ nodes) (hb : b ∈ records) (hg : s.ledger.Admits n g) :
    Follows s.ledger nodes records p (.removeFrom (s.ledger.node n).uuid id (s.ledger.block b).block.id)
      (((removeBlockFrom g n id b).exec s).1.map .changed) ((removeBlockFrom g n id b).exec s).2.ledger := by
  obtain ⟨removed, hok⟩ := exec_removeBlockFrom_of_admits hl hg id b
  have hremoval := exec_removeBlockFrom hl g n id b
  rw [hok] at hremoval ⊢
  cases hremoval with
  | missing hmissing halike =>
    have hne : p.place? (s.ledger.node n).uuid (s.ledger.block b).block.id ≠ some id := by
      intro hplace
      obtain ⟨v, hid, hbv⟩ := h.listed_of_place? hl hn hb hplace
      exact hmissing v hid hbv
    exact .of_alike (if_neg hne) hl h halike
  | @taken v _ hid hbv hrew =>
    obtain ⟨-, hlive, howner⟩ := hl.of_storageOf? (h.held n hn) hid
    obtain ⟨i, hi, hplace⟩ := h.place?_of_mem hl hn hlive howner hbv
    obtain rfl := ho.id_unique hid hi
    exact follows_of_perform (if_pos hplace) hrew.coherent hrew.sameNames (h.detached hl hn hid hbv hrew)

theorem addBlock_follows (h : s.ledger.Pictures nodes records p) (hl : s.ledger.Coherent) (ho : s.ledger.Orderly)
    (hn : n ∈ nodes) (hb : b ∈ records) (hg : s.ledger.Admits n g) :
    Follows s.ledger nodes records p (.add (s.ledger.node n).uuid id (s.ledger.block b).block.id)
      (((addBlock g n id b).exec s).1.map .changed) ((addBlock g n id b).exec s).2.ledger := by
  obtain ⟨added, hok⟩ := exec_addBlock_of_admits hl (h.held n hn) (h.made b hb) hg id
  have haddition := exec_addBlock hl (h.held n hn) (h.made b hb) g id
  rw [hok] at haddition ⊢
  have hknown : ∀ {v}, s.ledger.storageOf? n id = some v → ((s.ledger.node n).uuid, id) ∈ p.known := fun hid =>
    (h.known n hn id).1 (by rw [hid]; rfl)
  cases haddition with
  | unknown ht halike =>
    refine .of_alike (if_neg fun hc => ?_) hl h halike
    have hsome := (h.known n hn id).2 hc.1
    rw [ht] at hsome
    cases hsome
  | @present t _ ht hs halike =>
    obtain ⟨i, hi, hplaced⟩ := h.place?_of_holderOn? hl hn hs
    obtain rfl := ho.id_unique ht hi
    exact .of_alike (if_neg fun hc => hc.2 hplaced) hl h halike
  | @refused t _ ht hs hoccupied halike =>
    obtain ⟨-, hlive, howner⟩ := hl.of_storageOf? (h.held n hn) ht
    exact (hl.of_holderOn?_eq_none hs hlive howner (h.mem_listed_of_occupied hb hlive hoccupied)).elim
  | @placed t _ ht hs _ hrew =>
    have hnone := (h.holderOn?_eq_none_iff hl hn hb).1 hs
    exact follows_of_perform (if_pos ⟨hknown ht, fun hc => nomatch hnone.symm.trans hc⟩) hrew.coherent
      hrew.sameNames (h.attached hn hb ht hnone hrew)
  | @lost v t _ ht hs hne hoccupied _ =>
    obtain ⟨-, hlive, howner⟩ := hl.of_storageOf? (h.held n hn) ht
    obtain ⟨i, hi, hplaced⟩ := h.place?_of_holderOn? hl hn hs
    obtain ⟨j, hj, hplaced'⟩ := h.place?_of_mem hl hn hlive howner (h.mem_listed_of_occupied hb hlive hoccupied)
    obtain rfl := Option.some.inj (hplaced.symm.trans hplaced')
    exact (hne (Option.some.inj (hi.symm.trans hj))).elim
  | @moved v t l₁ _ ht hs hne _ hrew hrew' =>
    obtain ⟨i, hi, hplaced⟩ := h.place?_of_holderOn? hl hn hs
    have hid : i ≠ id := by
      rintro rfl
      exact hne (Option.some.inj (hi.symm.trans ht))
    refine follows_of_perform (if_pos ⟨hknown ht, fun hc => hid (Option.some.inj (hplaced.symm.trans hc))⟩)
      hrew'.coherent (hrew.sameNames.trans hrew'.sameNames) ?_
    exact h.moved hl hn hb hi (hl.of_holderOn? hs).1 ht hrew hrew'

/-- A volume that is announced is known from then on, and that is all. -/
private theorem follows_announce {l l' : Ledger} {a : Announcement} (h : l.Pictures nodes records p) (hl : l.Coherent)
    (hn : n ∈ nodes) (hquiet : l.Quiet l') (hnames : l.SameNames l') (held : l'.heldNodes = l.heldNodes)
    (hknown : ∃ v, l'.storageOf? n a.id = some v ∧ ∀ w, l.storageOf? n a.id = some w → w = v)
    (hothers : ∀ m id, ¬ (m = n ∧ id = a.id) → l'.storageOf? m id = l.storageOf? m id) :
    Follows l nodes records p (.announce (l.node n).uuid a) (.ok .announced) l' := by
  obtain ⟨v, hv, hold⟩ := hknown
  refine follows_of_perform rfl (hquiet.coherent hl) hnames
    (h.unmoved hnames hquiet.toGrows held hquiet.listed (fun m id w hw => ?_) (fun m hm id => ?_) rfl)
  · by_cases hm : m = n ∧ id = a.id
    · obtain ⟨rfl, rfl⟩ := hm
      rw [hold w hw]
      exact hv
    · exact (hothers m id hm).trans hw
  · rw [hnames.uuid, List.mem_cons]
    by_cases hmn : m = n ∧ id = a.id
    · obtain ⟨rfl, rfl⟩ := hmn
      rw [hv]
      exact ⟨fun _ => .inl rfl, fun _ => rfl⟩
    · rw [hothers m id hmn, h.known m hm id]
      refine ⟨.inr, fun hc => hc.resolve_left fun hkey => hmn ?_⟩
      exact ⟨h.uuids m hm n hn (Prod.mk.inj hkey).1, (Prod.mk.inj hkey).2⟩

theorem updateStorage_follows (h : s.ledger.Pictures nodes records p) (hl : s.ledger.Coherent) (ho : s.ledger.Orderly)
    (hn : n ∈ nodes) (a : Announcement) :
    Follows s.ledger nodes records p (.announce (s.ledger.node n).uuid a)
      (((updateStorage n a).exec s).1.map fun _ => .announced) ((updateStorage n a).exec s).2.ledger := by
  have hquiet : s.ledger.Quiet ((updateStorage n a).exec s).2.ledger := idle_updateStorage n a s
  unfold updateStorage at hquiet ⊢
  rw [exec_bind, exec_ledger] at hquiet ⊢
  simp only at hquiet ⊢
  cases hid : s.ledger.storageOf? n a.id with
  | some v =>
    rw [hid] at hquiet
    exact follows_announce h hl hn hquiet ⟨fun _ => rfl, fun _ => rfl⟩ rfl
      ⟨v, hid, fun w hw => Option.some.inj (hw.symm.trans hid)⟩ fun _ _ _ => rfl
  | none =>
    rw [hid] at hquiet
    have hnode : (s.ledger.announce n a).node n = { s.ledger.node n with
        storages := (s.ledger.node n).storages.insert a.id ⟨s.ledger.storages.size⟩ } :=
      Ledger.node_announce_self (ho.held n (h.held n hn))
    have huuid : ∀ m, ((s.ledger.announce n a).node m).uuid = (s.ledger.node m).uuid := fun m =>
      Ledger.node_modifyNode_congr (l := (s.ledger.addStorage (.announced (s.ledger.node n).uuid a)).2) Node.uuid rfl m
    refine follows_announce h hl hn hquiet ⟨huuid, fun _ => rfl⟩ rfl
      ⟨⟨s.ledger.storages.size⟩, ?_, fun w hw => nomatch hid.symm.trans hw⟩ fun m id hm => ?_
    · exact (congrArg (fun node => node.storages.find? a.id) hnode).trans (Table.find?_insert_self _ _ _)
    · by_cases hmn : m = n
      · subst hmn
        refine (congrArg (fun node => node.storages.find? id) hnode).trans ?_
        exact Table.find?_insert_of_ne _ (fun hc => hm ⟨rfl, hc⟩) _
      · exact congrArg (fun node => node.storages.find? id) (Ledger.node_announce_of_ne hmn)

/-- Blocks that are placed on the node are taken off one by one, and all of them are counted. -/
private theorem exec_removeBlocks (bs : List BlockRef) (h : s.ledger.Pictures nodes records p)
    (hl : s.ledger.Coherent) (hn : n ∈ nodes) (hlock : (s.ledger.node n).lock = some g.lock) (hnd : bs.Nodup)
    (hplaced : ∀ b ∈ bs, b ∈ records ∧ ∃ id, p.place? (s.ledger.node n).uuid (s.ledger.block b).block.id = some id)
    (count : Nat) :
    ∃ s', (bs.foldlM (fun (count : Nat) b => do
        pure (if ← removeBlock g n b then count + 1 else count)) count).exec s = (.ok (count + bs.length), s') ∧
      s'.ledger.Coherent ∧ s.ledger.SameNames s'.ledger ∧ s'.ledger.Pictures nodes records
        { p with places := (bs.map (s.ledger.key n)).foldl Table.erase p.places } := by
  induction bs generalizing s p count with
  | nil => exact ⟨s, rfl, hl, ⟨fun _ => rfl, fun _ => rfl⟩, h⟩
  | cons b bs ih =>
    obtain ⟨hrecord, id, hplace⟩ := hplaced b List.mem_cons_self
    have hadmits : s.ledger.Admits n g := fun r hr => Option.some.inj (hr.symm.trans hlock)
    have hfollows := removeBlock_follows h hl hn hrecord hadmits
    have hlock' := respects_removeBlock (R := Tied n g.lock) (rel_detach Ledger.tied_rewrite) g n b s hlock
    have hanswer := hfollows.removed hplace
    have hnames := hfollows.names
    obtain ⟨hb, hnd⟩ := List.nodup_cons.1 hnd
    -- the other blocks are still placed, as they go by other ids
    have hplaced' : ∀ c ∈ bs, c ∈ records ∧ ∃ id, (p.perform (.remove (s.ledger.node n).uuid
        (s.ledger.block b).block.id)).2.place? (((removeBlock g n b).exec s).2.ledger.node n).uuid
          (((removeBlock g n b).exec s).2.ledger.block c).block.id = some id := by
      intro c hc
      obtain ⟨hcrecord, i, hi⟩ := hplaced c (List.mem_cons_of_mem b hc)
      refine ⟨hcrecord, i, ?_⟩
      rw [hnames.uuid, hnames.block]
      refine (Table.find?_erase_of_ne _ fun hkey => hb ?_).trans hi
      exact h.ids c hcrecord b hrecord (Prod.mk.inj hkey).2 ▸ hc
    obtain ⟨s', he, hl', hnames', h'⟩ :=
      ih hfollows.pictures hfollows.coherent hlock' hnd hplaced' (count + 1)
    refine ⟨s', ?_, hl', hnames.trans hnames', ?_⟩
    · have hstep : (removeBlock g n b).exec s = (.ok true, ((removeBlock g n b).exec s).2) := by
        rw [← hanswer]
      rw [List.foldlM_cons, exec_bind, exec_bind, hstep]
      refine he.trans ?_
      rw [List.length_cons, Nat.add_assoc, Nat.add_comm 1]
    · rw [hnames.key] at h'
      exact h'

theorem removeAllBlocks_follows (h : s.ledger.Pictures nodes records p) (hl : s.ledger.Coherent)
    (ho : s.ledger.Orderly) (hn : n ∈ nodes) (hg : s.ledger.Admits n g) :
    Follows s.ledger nodes records p (.removeAll (s.ledger.node n).uuid)
      (((removeAllBlocks g n).exec s).1.map .removed) ((removeAllBlocks g n).exec s).2.ledger := by
  obtain ⟨hforeign, -⟩ | ⟨l, -, halike, hlock, hfold⟩ := exec_removeAllBlocks hl g n
  · exact (hforeign hg).elim
  · have hl' := halike.quiet.coherent hl
    have hperm := h.blocksOf_perm hl hn ho
    have hplaced : ∀ b ∈ s.ledger.blocksOn n, b ∈ records ∧
        ∃ id, p.place? (l.node n).uuid (l.block b).block.id = some id := by
      intro b hb
      rw [halike.uuid, halike.block]
      exact h.place?_of_blocksOn hl hn hb
    obtain ⟨s', he, hcoherent, hnames, hpictures⟩ := exec_removeBlocks (s := { s with ledger := l })
      (s.ledger.blocksOn n) (h.alike halike) hl' hn (hlock (ho.held n (h.held n hn)))
      (h.blocksOn_nodup hl hn ho) hplaced 0
    have hexec : (removeAllBlocks g n).exec s = (.ok (s.ledger.blocksOn n).length, s') :=
      hfold.trans (he.trans (by rw [Nat.zero_add]))
    rw [hexec]
    have hcount : (s.ledger.blocksOn n).length = (p.blocksOf (s.ledger.node n).uuid).length := by
      rw [← hperm.length_eq, List.length_map]
    rw [hcount]
    refine follows_of_perform rfl hcoherent (halike.sameNames.trans hnames) ?_
    rw [halike.sameNames.key] at hpictures
    refine hpictures.congr (Table.keys_nodup_foldl_erase h.keys _) rfl fun uuid block => ?_
    refine Option.ext fun id => Table.find?_foldl_erase.trans (Iff.trans ?_ Table.find?_foldl_erase.symm)
    rw [hperm.mem_iff]

end Request
end DatanodeLedger
