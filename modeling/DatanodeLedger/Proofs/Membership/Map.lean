import DatanodeLedger.Proofs.Membership.Calls
import DatanodeLedger.Proofs.Membership.Mirror

/-! Membership is a map. Calls under guards that the nodes accept are answered as on a placement, whatever calls
have gone before, and what can be looked up or counted afterwards is what the placement says. -/
namespace DatanodeLedger

namespace Call
variable {nodes : List NodeRef} {records : List BlockRef} {l : Ledger} {g : Guard}

/-- The step that a call under a guard is. An announcement needs no guard. -/
def step (g : Guard) : Call NodeRef BlockRef → Step
  | announce n a => .updateStorage n a
  | add n id b => .addBlock g n id b
  | remove n b => .removeBlock g n b
  | removeFrom n id b => .removeBlockFrom g n id b
  | removeAll n => .removeAllBlocks g n

def answer (g : Guard) (s : Service) : Call NodeRef BlockRef → Except Fault Reply
  | announce n a => ((Request.updateStorage n a).exec s).1.map fun _ => .announced
  | add n id b => ((Request.addBlock g n id b).exec s).1.map .changed
  | remove n b => ((Request.removeBlock g n b).exec s).1.map .changed
  | removeFrom n id b => ((Request.removeBlockFrom g n id b).exec s).1.map .changed
  | removeAll n => ((Request.removeAllBlocks g n).exec s).1.map .removed

/-- The call is about these nodes and records only. -/
def Within (nodes : List NodeRef) (records : List BlockRef) : Call NodeRef BlockRef → Prop
  | announce n _ | removeAll n => n ∈ nodes
  | add n _ b | remove n b | removeFrom n _ b => n ∈ nodes ∧ b ∈ records

instance (call : Call NodeRef BlockRef) : Decidable (call.Within nodes records) := by
  cases call <;> unfold Within <;> infer_instance

/-- The node that is called upon accepts the guard. -/
def Admitted (l : Ledger) (g : Guard) : Call NodeRef BlockRef → Prop
  | announce .. => True
  | add n _ _ | remove n _ | removeFrom n _ _ | removeAll n => l.Admits n g

instance (call : Call NodeRef BlockRef) : Decidable (call.Admitted l g) := by
  cases call <;> unfold Admitted <;> infer_instance

end Call

namespace Ledger
variable {l l' : Ledger} {nodes : List NodeRef} {records : List BlockRef} {p : Placement}

/-- The call by the names of its node and its block. -/
def named (l : Ledger) (call : Call NodeRef BlockRef) : Call String UInt64 :=
  call.map (fun n => (l.node n).uuid) fun b => (l.block b).block.id

theorem SameNames.named (h : l.SameNames l') : l'.named = l.named := by
  unfold Ledger.named
  simp only [h.uuid, h.block]

/-- The placement of no blocks on the volumes that the nodes know. -/
def unplaced (l : Ledger) (nodes : List NodeRef) : Placement where
  known := nodes.flatMap fun n => (l.node n).storages.keys.map fun id => ((l.node n).uuid, id)

theorem pictures_unplaced (h : l.Distinct nodes records) (hempty : ∀ v, l.isLive v = true → l.listed v = []) :
    l.Pictures nodes records (l.unplaced nodes) where
  toDistinct := h
  keys := List.nodup_nil
  known n hn id := by
    unfold storageOf? unplaced
    rw [Table.isSome_find?, Table.contains_iff, List.mem_flatMap]
    constructor
    · exact fun hid => ⟨n, hn, List.mem_map_of_mem hid⟩
    · rintro ⟨m, hm, hmap⟩
      obtain ⟨i, hi, he⟩ := List.mem_map.1 hmap
      obtain ⟨huuid, rfl⟩ := Prod.mk.inj he
      obtain rfl := h.uuids m hm n hn huuid
      exact hi
  placed v hv b hb := by
    rw [hempty v hv] at hb
    exact (List.not_mem_nil hb).elim
  listed _ _ _ hp := nomatch hp

/-- All that can be looked up or counted is as the placement says: the volumes that a node knows, its blocks,
those on one of its volumes, the nodes that have a block, and the volume of a node that has it. -/
structure Tallies (l : Ledger) (nodes : List NodeRef) (records : List BlockRef) (p : Placement) : Prop where
  known : ∀ n ∈ nodes, ∀ id, (l.storageOf? n id).isSome = true ↔ ((l.node n).uuid, id) ∈ p.known
  node : ∀ n ∈ nodes, l.numBlocks n = .ok (p.blocksOf (l.node n).uuid).length
  volume : ∀ n ∈ nodes, ∀ id v, l.storageOf? n id = some v →
    (l.storage v).numBlocks = .ok (p.countOn (l.node n).uuid id)
  block : ∀ b ∈ records, (l.holders b).length = p.countNodes (l.block b).block.id
  found : ∀ n ∈ nodes, ∀ b ∈ records, ∀ id, p.place? (l.node n).uuid (l.block b).block.id = some id ↔
    ∃ v, l.holderOn? b (l.node n).uuid = some v ∧ l.storageOf? n id = some v
  missed : ∀ n ∈ nodes, ∀ b ∈ records,
    l.holderOn? b (l.node n).uuid = none ↔ p.place? (l.node n).uuid (l.block b).block.id = none

theorem Pictures.tallies (h : l.Pictures nodes records p) (hl : l.Coherent) (ho : l.Orderly) :
    l.Tallies nodes records p where
  known := h.known
  node n hn := by
    rw [hl.numBlocks_eq, ← (h.blocksOf_perm hl hn ho).length_eq, List.length_map]
  volume n hn id v hid := by
    rw [hl.numBlocks_storage, h.countOn_eq hl hn ho hid]
  block b hb := h.length_holders hl hb
  found n hn b hb id := by
    rw [h.holderOn?_eq hl hn hb]
    constructor
    · intro hplace
      obtain ⟨v, hid, -⟩ := h.listed_of_place? hl hn hb hplace
      exact ⟨v, by rw [hplace]; exact hid, hid⟩
    · rintro ⟨v, hv, hid⟩
      obtain ⟨i, hplace, hi⟩ := Option.bind_eq_some_iff.1 hv
      rw [hplace, ho.id_unique hi hid]
  missed n hn b hb := h.holderOn?_eq_none_iff hl hn hb

end Ledger

variable {s : Service} {nodes : List NodeRef} {records : List BlockRef} {p : Placement} {g : Guard}

theorem Call.follows {call : Call NodeRef BlockRef} (hs : Reachable s) (h : s.ledger.Pictures nodes records p)
    (hwithin : call.Within nodes records) (hg : call.Admitted s.ledger g) :
    Follows s.ledger nodes records p (s.ledger.named call) (call.answer g s) ((call.step g).after s).ledger := by
  have hl := hs.coherent
  have ho := hs.orderly
  cases call with
  | announce n a => exact Request.updateStorage_follows h hl ho hwithin a
  | add n id b => exact Request.addBlock_follows h hl ho hwithin.1 hwithin.2 hg
  | remove n b => exact Request.removeBlock_follows h hl hwithin.1 hwithin.2 hg
  | removeFrom n id b => exact Request.removeBlockFrom_follows h hl ho hwithin.1 hwithin.2 hg
  | removeAll n => exact Request.removeAllBlocks_follows h hl ho hwithin hg

theorem Call.enabled {call : Call NodeRef BlockRef} (h : s.ledger.Distinct nodes records)
    (hwithin : call.Within nodes records) : (call.step g).Enabled s.ledger := by
  cases call with
  | announce n a => exact h.held n hwithin
  | add n id b => exact ⟨h.held n hwithin.1, h.made b hwithin.2⟩
  | remove n b => exact ⟨h.held n hwithin.1, h.made b hwithin.2⟩
  | removeFrom n id b => exact ⟨h.held n hwithin.1, h.made b hwithin.2⟩
  | removeAll n => exact h.held n hwithin

namespace Service

/-- The answers to some calls, each under its guard, and the service after them. -/
def call (s : Service) : List (Guard × Call NodeRef BlockRef) → List (Except Fault Reply) × Service
  | [] => ([], s)
  | (g, call) :: calls =>
    let rest := ((call.step g).after s).call calls
    (call.answer g s :: rest.1, rest.2)

/-- Every guard is accepted where it is used. -/
def Admits (s : Service) : List (Guard × Call NodeRef BlockRef) → Prop
  | [] => True
  | (g, call) :: calls => call.Admitted s.ledger g ∧ ((call.step g).after s).Admits calls

instance decidableAdmits (s : Service) : (calls : List (Guard × Call NodeRef BlockRef)) → Decidable (s.Admits calls)
  | [] => isTrue trivial
  | (g, call) :: calls =>
    have := decidableAdmits ((call.step g).after s) calls
    inferInstanceAs (Decidable (_ ∧ _))

/-- The replies to some calls on a placement, which goes by the names that nodes and blocks have on a service. -/
def callOn (s : Service) (p : Placement) (calls : List (Guard × Call NodeRef BlockRef)) : List Reply × Placement :=
  p.run (calls.map fun call => s.ledger.named call.2)

/-- A placement that is pictured goes on to be pictured, and the answers are its replies. -/
theorem call_follows {calls : List (Guard × Call NodeRef BlockRef)} (hs : Reachable s)
    (h : s.ledger.Pictures nodes records p) (hwithin : ∀ call ∈ calls, call.2.Within nodes records)
    (hg : s.Admits calls) :
    (s.call calls).1 = (s.callOn p calls).1.map .ok ∧ Reachable (s.call calls).2 ∧
      (s.call calls).2.ledger.Pictures nodes records (s.callOn p calls).2 := by
  induction calls generalizing s p with
  | nil => exact ⟨rfl, hs, h⟩
  | cons head calls ih =>
    obtain ⟨g, call⟩ := head
    have hfollows := call.follows hs h (hwithin _ List.mem_cons_self) hg.1
    have henabled : (call.step g).Enabled s.ledger := Call.enabled h.toDistinct (hwithin _ List.mem_cons_self)
    obtain ⟨hanswers, hs', h'⟩ := ih (hs.step henabled) hfollows.pictures
      (fun call hc => hwithin call (List.mem_cons_of_mem _ hc)) hg.2
    unfold callOn at hanswers h'
    rw [hfollows.names.named] at hanswers h'
    refine ⟨?_, hs', h'⟩
    exact congrArg₂ List.cons hfollows.answer hanswers

end Service

/-- From when no block is on any list, membership is a map from nodes and blocks to volumes: additions, removals
and announcements are answered as by the map, without a fault, and all counts and look-ups agree with it. This
takes nodes with different uuids, one record for each block id, and guards that are accepted. -/
theorem membership_is_map {calls : List (Guard × Call NodeRef BlockRef)} (hs : Reachable s)
    (hdistinct : s.ledger.Distinct nodes records) (hempty : ∀ v, s.ledger.isLive v = true → s.ledger.listed v = [])
    (hwithin : ∀ call ∈ calls, call.2.Within nodes records) (hg : s.Admits calls) :
    (s.call calls).1 = (s.callOn (s.ledger.unplaced nodes) calls).1.map .ok ∧
      (s.call calls).2.ledger.Tallies nodes records (s.callOn (s.ledger.unplaced nodes) calls).2 := by
  obtain ⟨hanswers, hs', hpictures⟩ :=
    Service.call_follows hs (Ledger.pictures_unplaced hdistinct hempty) hwithin hg
  exact ⟨hanswers, hpictures.tallies hs'.coherent hs'.orderly⟩

/-- Two blocks, and two nodes that know no volumes yet. -/
def twoNodeSteps : List Step :=
  [.makeBlock ⟨1, 10, 1⟩ 3, .makeBlock ⟨2, 20, 1⟩ 3,
    .makeNode (.ofAddress "m" "10.0.0.1" 9866) "/default-rack",
    .makeNode (.ofAddress "n" "10.0.0.2" 9866) "/default-rack"]

/-- A block moves within the first node and comes to the second as well; then the first is emptied. -/
def twoNodeCalls : List (Guard × Call NodeRef BlockRef) :=
  [.announce ⟨0⟩ { id := "A" }, .announce ⟨0⟩ { id := "B" }, .announce ⟨1⟩ { id := "A" }, .add ⟨0⟩ "A" ⟨0⟩,
    .add ⟨0⟩ "B" ⟨0⟩, .add ⟨0⟩ "B" ⟨0⟩, .add ⟨1⟩ "A" ⟨0⟩, .add ⟨0⟩ "C" ⟨1⟩, .add ⟨0⟩ "A" ⟨1⟩, .removeFrom ⟨0⟩ "A" ⟨0⟩,
    .removeAll ⟨0⟩, .remove ⟨1⟩ ⟨1⟩].map fun call => (⟨⟨0⟩⟩, call)

theorem membership_is_map_two_nodes :
    ((({} : Service).run twoNodeSteps).call twoNodeCalls).1 =
      [.announced, .announced, .announced, .changed true, .changed true, .changed false, .changed true,
        .changed false, .changed true, .changed false, .removed 2, .changed false].map .ok ∧
    ((({} : Service).run twoNodeSteps).call twoNodeCalls).2.ledger.Tallies [⟨0⟩, ⟨1⟩] [⟨0⟩, ⟨1⟩]
      ((({} : Service).run twoNodeSteps).callOn ((({} : Service).run twoNodeSteps).ledger.unplaced [⟨0⟩, ⟨1⟩])
        twoNodeCalls).2 := by
  have hs : Reachable (({} : Service).run twoNodeSteps) := (Reachable.start 0).run (by decide +kernel)
  have hdistinct : (({} : Service).run twoNodeSteps).ledger.Distinct [⟨0⟩, ⟨1⟩] [⟨0⟩, ⟨1⟩] :=
    ⟨by decide +kernel, by decide +kernel, by decide +kernel, by decide +kernel⟩
  have hempty : ∀ v, (({} : Service).run twoNodeSteps).ledger.isLive v = true →
      (({} : Service).run twoNodeSteps).ledger.listed v = [] := by
    refine fun v _ => List.eq_nil_iff_forall_not_mem.2 fun b hb => ?_
    have hsize : (({} : Service).run twoNodeSteps).ledger.storages.size = 0 := by decide +kernel
    exact Nat.not_lt_zero _ (hsize ▸ Ledger.lt_size_of_mem_listed hb)
  have hwithin : ∀ call ∈ twoNodeCalls, call.2.Within [⟨0⟩, ⟨1⟩] [⟨0⟩, ⟨1⟩] := by decide +kernel
  have hg : (({} : Service).run twoNodeSteps).Admits twoNodeCalls := by decide +kernel
  obtain ⟨hanswers, htallies⟩ := membership_is_map hs hdistinct hempty hwithin hg
  refine ⟨hanswers.trans (congrArg (List.map Except.ok) ?_), htallies⟩
  decide +kernel

end DatanodeLedger
