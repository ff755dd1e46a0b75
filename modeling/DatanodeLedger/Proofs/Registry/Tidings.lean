import DatanodeLedger.Proofs.Heartbeat.Figures
import DatanodeLedger.Proofs.Registry.Announcing
import DatanodeLedger.Proofs.Registry.Standing
import DatanodeLedger.Proofs.Registry.Renaming
import Mathlib.Data.List.Infix

/-! The volumes of a node over whole runs. All that is kept of them besides their blocks and counts is decided by what
has been announced and reported about them, and the history of that tells it. -/
namespace DatanodeLedger

/-- What a node hears about one of its volumes. -/
inductive Tiding where
  | announced (a : Announcement)
  | reported (r : StorageReport) (now : UInt64)
  deriving DecidableEq, Repr

namespace Tiding

def id : Tiding → String
  | announced a => a.id
  | reported r _ => r.storage.id

def state : Tiding → StorageState
  | announced a => a.state
  | reported r _ => if r.failed then .failed else r.storage.state

def usage? : Tiding → Option Usage
  | announced _ => none
  | reported r now => some ⟨r.capacity, r.dfsUsed, r.remaining, r.blockPoolUsed, now⟩

def Announces (id : String) : Tiding → Prop
  | announced a => a.id = id
  | reported .. => False

instance (id : String) (t : Tiding) : Decidable (t.Announces id) := by
  cases t <;> unfold Announces <;> infer_instance

/-- The state that a volume is in after a tiding about it. -/
def stateOf? (id : String) (t : Tiding) : Option StorageState := if t.id = id then some t.state else none

def usageOf? (id : String) (t : Tiding) : Option Usage := if t.id = id then t.usage? else none

/-- What a tiding makes of the record of its volume. -/
def write : Tiding → Storage → Storage
  | announced a, storage => { storage with state := a.state }
  | reported r now, storage => storage.receiveHeartbeat r now

theorem id_write (t : Tiding) (storage : Storage) : (t.write storage).id = storage.id := by
  cases t <;> rfl

end Tiding

/-- What is kept of what has been said about a volume. -/
structure Account where
  medium : Medium
  state : StorageState
  usage : Usage := {}
  deriving DecidableEq, Repr

def Storage.account (storage : Storage) : Account := ⟨storage.medium, storage.state, storage.usage⟩

theorem Tiding.account_write (t : Tiding) (storage : Storage) : (t.write storage).account =
    { storage.account with state := t.state, usage := t.usage?.getD storage.account.usage } := by
  cases t <;> rfl

namespace Account
variable {id : String} {x : Account} {history : List Tiding}

/-- A volume is of the medium that was announced first, in the state of the last tiding about it since then, and has
the figures of the last report since then. -/
def ToldBy (x : Account) (id : String) (history : List Tiding) : Prop :=
  ∃ before a after, history = before ++ .announced a :: after ∧ a.id = id ∧ (∀ t ∈ before, ¬ t.Announces id) ∧
    x.medium = a.medium ∧ x.state = latest (Tiding.stateOf? id) a.state after ∧
    x.usage = latest (Tiding.usageOf? id) {} after

/-- What a tiding makes of what is kept under an id. -/
def hear (id : String) (kept : Option Account) (t : Tiding) : Option Account :=
  if t.id = id then
    match kept, t with
    | some x, t => some { x with state := t.state, usage := t.usage?.getD x.usage }
    | none, .announced a => some ⟨a.medium, a.state, {}⟩
    | none, .reported .. => none
  else kept

theorem hear_of_ne {t : Tiding} (h : t.id ≠ id) (kept : Option Account) : hear id kept t = kept := if_neg h

theorem hear_of_eq {t : Tiding} (h : t.id = id) (x : Account) :
    hear id (some x) t = some { x with state := t.state, usage := t.usage?.getD x.usage } := if_pos h

theorem hear_announced {a : Announcement} (h : a.id = id) :
    hear id none (.announced a) = some ⟨a.medium, a.state, {}⟩ := if_pos h

theorem hear_some (id : String) (x : Account) (t : Tiding) : hear id (some x) t =
    some ⟨x.medium, (t.stateOf? id).getD x.state, (t.usageOf? id).getD x.usage⟩ := by
  unfold hear Tiding.stateOf? Tiding.usageOf?
  split
  · rfl
  · rfl

theorem foldl_hear_some (id : String) (x : Account) (history : List Tiding) : history.foldl (hear id) (some x) =
    some ⟨x.medium, latest (Tiding.stateOf? id) x.state history, latest (Tiding.usageOf? id) x.usage history⟩ := by
  induction history generalizing x with
  | nil => rfl
  | cons t history ih => rw [List.foldl_cons, hear_some, ih, latest_cons, latest_cons]

/-- Only an announcement enters an id. -/
theorem hear_none {t : Tiding} (h : ¬ t.Announces id) : hear id none t = none := by
  unfold hear
  split
  · cases t with
    | announced a => exact absurd ‹a.id = id› h
    | reported r now => rfl
  · rfl

theorem toldBy_of_foldl (h : history.foldl (hear id) none = some x) : x.ToldBy id history := by
  induction history with
  | nil => cases h
  | cons t history ih =>
    by_cases ht : t.Announces id
    · cases t with
      | announced a =>
        rw [List.foldl_cons, hear_announced ht, foldl_hear_some] at h
        cases h
        exact ⟨[], a, history, rfl, ht, fun _ ht => (List.not_mem_nil ht).elim, rfl, rfl, rfl⟩
      | reported r now => exact ht.elim
    · rw [List.foldl_cons, hear_none ht] at h
      obtain ⟨before, a, after, rfl, hid, hbefore, hx⟩ := ih h
      exact ⟨t :: before, a, after, rfl, hid, List.forall_mem_cons.2 ⟨ht, hbefore⟩, hx⟩

theorem isSome_foldl_hear (id : String) (history : List Tiding) :
    (history.foldl (hear id) none).isSome = true ↔ ∃ t ∈ history, t.Announces id := by
  induction history with
  | nil => exact iff_of_false Bool.false_ne_true fun ⟨_, ht, _⟩ => List.not_mem_nil ht
  | cons t history ih =>
    simp only [List.foldl_cons, List.mem_cons, exists_eq_or_imp]
    by_cases ht : t.Announces id
    · cases t with
      | announced a =>
        rw [hear_announced ht, foldl_hear_some]
        exact iff_of_true rfl (.inl ht)
      | reported r now => exact ht.elim
    · rw [hear_none ht, ih, or_iff_right ht]

end Account

namespace Ledger
variable {l l' : Ledger} {m n : NodeRef} {v : StorageRef}

def account? (l : Ledger) (n : NodeRef) (id : String) : Option Account :=
  (l.storageOf? n id).map fun v => (l.storage v).account

/-- A node keeps its volumes, and nothing has been said about them. -/
structure KeepsAccounts (n : NodeRef) (l l' : Ledger) : Prop where
  storages : (l'.node n).storages = (l.node n).storages
  account : ∀ v ∈ (l.node n).storages.values, (l'.storage v).account = (l.storage v).account

namespace KeepsAccounts

theorem of_storages (storages : (l'.node n).storages = (l.node n).storages)
    (same : l'.storages = l.storages) : KeepsAccounts n l l' :=
  ⟨storages, fun v _ => by unfold storage; rw [same]⟩

theorem of_eq (nodes : l'.nodes = l.nodes) (storages : l'.storages = l.storages) : KeepsAccounts n l l' :=
  .of_storages (by unfold node; rw [nodes]) storages

theorem modifyNode {f : Node → Node} (h : (f (l.node m)).storages = (l.node m).storages) :
    KeepsAccounts n l (l.modifyNode m f) :=
  .of_storages (node_modifyNode_congr Node.storages h n) rfl

theorem modifyStorage {f : Storage → Storage} (h : (f (l.storage v)).account = (l.storage v).account) :
    KeepsAccounts n l (l.modifyStorage v f) :=
  ⟨rfl, fun w _ => storage_modifyStorage_congr Storage.account h w⟩

/-- What becomes of volumes of other nodes is no matter. -/
theorem modifyStorage_of_not_mem (h : v ∉ (l.node n).storages.values) (f : Storage → Storage) :
    KeepsAccounts n l (l.modifyStorage v f) := by
  refine ⟨rfl, fun w hw => congrArg Storage.account (storage_modifyStorage_of_ne ?_ f)⟩
  rintro rfl
  exact h hw

theorem rewrite (l : Ledger) (v : StorageRef) (b : BlockRef) (blocks : Slab UInt64 BlockRef)
    (holders : List StorageRef) : KeepsAccounts n l (l.rewrite v b blocks holders) :=
  ⟨rfl, fun w _ => storage_modifyStorage_congr (f := fun storage => { storage with blocks }) Storage.account rfl w⟩

theorem account?_eq (h : KeepsAccounts n l l') (id : String) : l'.account? n id = l.account? n id := by
  have hfind : l'.storageOf? n id = l.storageOf? n id := by
    unfold storageOf?
    rw [h.storages]
  unfold account?
  rw [hfind]
  cases hv : l.storageOf? n id with
  | none => rfl
  | some v => exact congrArg some (h.account v (Table.mem_values_of_find? hv))

end KeepsAccounts

instance : IsPreorder Ledger (KeepsAccounts n) where
  refl _ := ⟨rfl, fun _ _ => rfl⟩
  trans _ _ _ h h' := ⟨h'.storages.trans h.storages, fun v hv =>
    (h'.account v (h.storages ▸ hv)).trans (h.account v hv)⟩

instance : Request.Composed (KeepsAccounts n) where
  node h := .modifyNode h.storages
  volume h := .modifyStorage (by unfold Storage.account; rw [h.medium, h.state, h.usage])
  guarded h _ := Request.guarded_of_modifyLock (fun _ _ _ => .of_eq rfl rfl) h

instance : Request.Counting (KeepsAccounts n) where
  counter _ _ _ _ := .of_eq rfl rfl

/-- What a tiding for a node makes of a ledger. -/
def tell (m : NodeRef) (l : Ledger) : Tiding → Ledger
  | .announced a => l.updateStorage m a
  | .reported r now => takeReport m now l r

theorem updateStorages_eq_foldl (l : Ledger) (m : NodeRef) (storages : List Announcement) :
    l.updateStorages m storages = (storages.map .announced).foldl (tell m) l :=
  (List.foldl_map (f := Tiding.announced) (g := tell m)).symm

theorem takeReports_eq_foldl (l : Ledger) (m : NodeRef) (now : UInt64) (reports : List StorageReport) :
    l.takeReports m now reports = (reports.map (.reported · now)).foldl (tell m) l :=
  (List.foldl_map (f := (Tiding.reported · now)) (g := tell m)).symm

section tell

/-- A tiding is written into the record of its volume, or enters the volume, or finds nothing. -/
theorem tell_cases (l : Ledger) (m : NodeRef) (t : Tiding) :
    (∃ v, l.storageOf? m t.id = some v ∧ l.tell m t = l.modifyStorage v t.write) ∨
    (∃ a, t = .announced a ∧ l.storageOf? m a.id = none ∧ l.tell m t = l.announce m a) ∨
    (l.storageOf? m t.id = none ∧ ¬ t.Announces t.id ∧ l.tell m t = l) := by
  cases t with
  | announced a =>
    have htell : l.tell m (.announced a) = l.updateStorage m a := rfl
    rw [htell, updateStorage]
    cases hv : l.storageOf? m a.id with
    | some v => exact .inl ⟨v, hv, rfl⟩
    | none => exact .inr (.inl ⟨a, rfl, hv, rfl⟩)
  | reported r now =>
    have htell : l.tell m (.reported r now) = takeReport m now l r := rfl
    rw [htell]
    cases hv : l.storageOf? m r.storage.id with
    | some v => exact .inl ⟨v, hv, takeReport_of_some hv⟩
    | none => exact .inr (.inr ⟨hv, fun h => h, takeReport_of_none hv⟩)

theorem Orderly.tell (ho : l.Orderly) (m : NodeRef) (t : Tiding) : (l.tell m t).Orderly := by
  obtain ⟨v, -, h⟩ | ⟨a, -, ha, h⟩ | ⟨-, -, h⟩ := l.tell_cases m t
  · rw [h]
    exact ho.modifyStorage (t.id_write _)
  · rw [h]
    exact ho.announce ha
  · rwa [h]

theorem size_nodes_tell (l : Ledger) (m : NodeRef) (t : Tiding) : (l.tell m t).nodes.size = l.nodes.size := by
  obtain ⟨v, -, h⟩ | ⟨a, -, -, h⟩ | ⟨-, -, h⟩ := l.tell_cases m t
  · rw [h]
    rfl
  · rw [h]
    exact Array.size_modify
  · rw [h]

/-- A change of a volume that is entered under an id changes what is kept under that id alone. -/
private theorem account?_modifyStorage (ho : l.Orderly) {i : String} (hv : l.storageOf? m i = some v)
    (f : Storage → Storage) (id : String) : (l.modifyStorage v f).account? m id =
      if i = id then some (f (l.storage v)).account else l.account? m id := by
  have hsame : (l.modifyStorage v f).storageOf? m id = l.storageOf? m id := rfl
  unfold account?
  rw [hsame]
  split
  case isTrue hid =>
    rw [← hid, hv, Option.map_some, storage_modifyStorage (ho.lt_size_of_storageOf? hv)]
  case isFalse hid =>
    cases hw : l.storageOf? m id with
    | none => rfl
    | some w =>
      have hne : w ≠ v := by
        rintro rfl
        exact hid (ho.storageOf?_inj hv hw)
      rw [Option.map_some, Option.map_some, storage_modifyStorage_of_ne hne]

private theorem account?_announce (ho : l.Orderly) (hm : m.index < l.nodes.size) (a : Announcement)
    (id : String) : (l.announce m a).account? m id =
      if a.id = id then some ⟨a.medium, a.state, {}⟩ else l.account? m id := by
  unfold account? storageOf?
  rw [node_announce_self hm]
  split
  case isTrue hid =>
    rw [← hid, Table.find?_insert_self, Option.map_some, storage_announce_self]
    rfl
  case isFalse hid =>
    rw [Table.find?_insert_of_ne _ (Ne.symm hid)]
    cases hv : l.storageOf? m id with
    | none =>
      unfold storageOf? at hv
      rw [hv]
      rfl
    | some v =>
      have hmade : v.index < l.storages.size := ho.lt_size_of_storageOf? hv
      unfold storageOf? at hv
      rw [hv, Option.map_some, Option.map_some, storage_announce hmade]

/-- A node takes in what it is told, -/
theorem account?_tell_self (ho : l.Orderly) (hm : m.index < l.nodes.size) (t : Tiding) (id : String) :
    (l.tell m t).account? m id = Account.hear id (l.account? m id) t := by
  obtain ⟨v, hv, h⟩ | ⟨a, rfl, ha, h⟩ | ⟨hv, ht, h⟩ := l.tell_cases m t
  · rw [h, account?_modifyStorage ho hv]
    split
    case isTrue hid =>
      have hkept : l.account? m id = some (l.storage v).account := by
        rw [account?, ← hid, hv, Option.map_some]
      rw [hkept, t.account_write, Account.hear_of_eq hid]
    case isFalse hid => rw [Account.hear_of_ne hid]
  · rw [h, account?_announce ho hm]
    split
    case isTrue hid =>
      have hkept : l.account? m id = none := by
        rw [account?, ← hid, ha, Option.map_none]
      rw [hkept, Account.hear_announced hid]
    case isFalse hid => exact (Account.hear_of_ne (t := .announced a) hid _).symm
  · rw [h]
    by_cases hid : t.id = id
    · have hkept : l.account? m id = none := by
        rw [account?, ← hid, hv, Option.map_none]
      rw [hkept, Account.hear_none (hid ▸ ht)]
    · rw [Account.hear_of_ne hid]

/-- and what others are told is nothing to it. -/
theorem keepsAccounts_tell (ho : l.Orderly) (hmn : n ≠ m) (t : Tiding) : KeepsAccounts n l (l.tell m t) := by
  obtain ⟨v, hv, h⟩ | ⟨a, -, -, h⟩ | ⟨-, -, h⟩ := l.tell_cases m t
  · rw [h]
    refine .modifyStorage_of_not_mem (fun hmem => hmn ?_) _
    exact ho.apart n m v hmem (Table.mem_values_of_find? hv)
  · rw [h]
    refine ⟨congrArg Node.storages (node_announce_of_ne hmn), fun v hv => ?_⟩
    rw [storage_announce (ho.made n v hv)]
  · rw [h]
    exact refl_of (KeepsAccounts n) l

theorem account?_foldl_tell (ho : l.Orderly) (hm : m.index < l.nodes.size) (history : List Tiding) (id : String) :
    (history.foldl (tell m) l).account? n id =
      if m = n then history.foldl (Account.hear id) (l.account? n id) else l.account? n id := by
  induction history generalizing l with
  | nil => rw [List.foldl_nil, List.foldl_nil, ite_self]
  | cons t history ih =>
    rw [List.foldl_cons, List.foldl_cons, ih (ho.tell m t) (Nat.lt_of_lt_of_eq hm (l.size_nodes_tell m t).symm)]
    split
    case isTrue hmn =>
      subst hmn
      rw [account?_tell_self ho hm]
    case isFalse hmn => exact (keepsAccounts_tell ho (Ne.symm hmn) t).account?_eq id

end tell

/-- A node that is entered has no volumes, like one that has not been made. -/
theorem keepsAccounts_addNode (l : Ledger) (r : Registration) (location : String) :
    KeepsAccounts n l (l.addNode { Node.ofRegistration r with location }).2 := by
  refine .of_storages ?_ rfl
  rcases node_addNode_cases l { Node.ofRegistration r with location } n with h | ⟨hnew, h⟩
  · rw [h]
  · rw [h, node_of_le (Nat.le_of_eq hnew.symm)]
    rfl

theorem keepsAccounts_enroll (l : Ledger) (c : CoordinatorRef) (r : Registration) :
    KeepsAccounts n l (l.enroll c r) := by
  have hnew : KeepsAccounts n l (l.addNode (Node.ofRegistration r)).2 := keepsAccounts_addNode l r _
  have hbound : KeepsAccounts n (l.addNode (Node.ofRegistration r)).2 (l.enroll c r) :=
    .of_storages (node_modifyNode_congr Node.storages rfl n) rfl
  exact trans_of (KeepsAccounts n) hnew hbound

theorem keepsAccounts_settle (l : Ledger) (c : CoordinatorRef) (m : NodeRef) (storages : List Announcement) :
    KeepsAccounts n (l.updateStorages m storages) (l.settle c m storages) := by
  have hheard : KeepsAccounts n (l.updateStorages m storages) (l.hear m storages) := .modifyNode rfl
  refine trans_of (KeepsAccounts n) hheard ?_
  unfold settle revive
  split
  · exact refl_of (KeepsAccounts n) _
  · exact .of_storages (node_modifyNode_congr Node.storages rfl n) rfl

theorem account?_settle (ho : l.Orderly) (hm : m.index < l.nodes.size) (c : CoordinatorRef)
    (storages : List Announcement) (id : String) : (l.settle c m storages).account? n id =
      (if m = n then storages.map Tiding.announced else []).foldl (Account.hear id) (l.account? n id) := by
  rw [(keepsAccounts_settle l c m storages).account?_eq, updateStorages_eq_foldl, account?_foldl_tell ho hm]
  split <;> rfl

theorem account?_takeReports (ho : l.Orderly) (hm : m.index < l.nodes.size) (now : UInt64)
    (reports : List StorageReport) (id : String) : (l.takeReports m now reports).account? n id =
      (if m = n then reports.map (Tiding.reported · now) else []).foldl (Account.hear id) (l.account? n id) := by
  rw [takeReports_eq_foldl, account?_foldl_tell ho hm]
  split <;> rfl

theorem keepsAccounts_count (l : Ledger) (c : CoordinatorRef) (counts : List (Counter × UInt64)) :
    KeepsAccounts n l (l.count c counts) := by
  rw [count_eq]
  exact .of_eq rfl rfl

/-- A heartbeat that has been taken in and answered has said what its reports say. -/
theorem keepsAccounts_beat (l : Ledger) (c : CoordinatorRef) (m : NodeRef) (h : Heartbeat) :
    KeepsAccounts n (l.takeReports m l.now h.reports) (l.beat c m h) := by
  have hserved : KeepsAccounts n (l.takeReports m l.now h.reports) ((l.takeReports m l.now h.reports).setNode m
      (((l.node m).receive l.now h).serve (l.coordinator c).limits).2.2) := by
    refine .modifyNode ?_
    rw [Node.storages_serve, node_takeReports]
    rfl
  exact trans_of (KeepsAccounts n) hserved (keepsAccounts_count _ c _)

end Ledger

namespace Step
variable {s : Service} {n : NodeRef}
open Ledger (KeepsAccounts)

/-- What a step tells a node about its volumes. A heartbeat that is refused, or answered by the request to register
again, tells it nothing. -/
def tidings (n : NodeRef) (s : Service) : Step → List Tiding
  | updateStorage m a => if m = n then [.announced a] else []
  | updateHeartbeat m h => if m = n then h.reports.map (.reported · s.ledger.now) else []
  | register c r storages =>
    if ((s.ledger.coordinator c).nodes.find? r.uuid).getD ⟨s.ledger.nodes.size⟩ = n then storages.map .announced
    else []
  | heartbeat c uuid h =>
    if (s.ledger.coordinator c).nodes.find? uuid = some n ∧ (s.ledger.node n).disallowed = false ∧
      (s.ledger.node n).alive = true then h.reports.map (.reported · s.ledger.now) else []
  | _ => []

/-- The steps that change the state or the figures of a volume of a node behind its back. -/
def Overrides (n : NodeRef) (s : Service) : Step → Prop
  | changeStorage v (.state _) | changeStorage v (.heartbeat ..) => v ∈ (s.ledger.node n).storages.values
  | _ => False

instance (n : NodeRef) (s : Service) (step : Step) : Decidable (step.Overrides n s) := by
  rcases step
  case changeStorage v change => rcases change <;> unfold Overrides <;> infer_instance
  all_goals unfold Overrides; infer_instance

/-- The steps that can tell a node something. -/
def Tells : Step → Prop
  | updateStorage .. | updateHeartbeat .. | register .. | heartbeat .. => True
  | _ => False

private theorem keepsAccounts_after {step : Step} (hstep : step.Enabled s.ledger) (htells : ¬ step.Tells)
    (hdirect : ¬ step.Overrides n s) : KeepsAccounts n s.ledger (step.after s).ledger := by
  have hdetach : ∀ (l : Ledger) v b removed l', l.detach v b = .ok (removed, l') → KeepsAccounts n l l' :=
    Request.rel_detach KeepsAccounts.rewrite
  have hattach : ∀ (l : Ledger) v b added l', l.attach v b = .ok (added, l') → KeepsAccounts n l l' :=
    Request.rel_attach KeepsAccounts.rewrite
  have hwork : ∀ m, Request.AllowsCalmWork (KeepsAccounts n) m := fun _ _ _ h _ _ => .modifyNode h.storages
  have hlife : ∀ c m, Request.AllowsLife (KeepsAccounts n) c m := fun _ _ =>
    ⟨fun h => .modifyNode h.storages, fun _ _ _ => .of_eq rfl rfl⟩
  cases step with
  | makeNode r location =>
    have hpinned : KeepsAccounts n (s.ledger.addNode { Node.ofRegistration r with location }).2
        ((makeNode r location).after s).ledger := .of_eq rfl rfl
    exact trans_of (KeepsAccounts n) (Ledger.keepsAccounts_addNode s.ledger r location) hpinned
  | advance r => exact Request.respects_advance (fun _ _ => .of_eq rfl rfl) r s
  | changeNode m change => exact .modifyNode (change.settles (l := s.ledger)).storages
  | changeStorage v change =>
    cases change with
    | state value => exact .modifyStorage_of_not_mem hdirect _
    | heartbeat report now => exact .modifyStorage_of_not_mem hdirect _
    | _ => exact .modifyStorage rfl
  | bind | updateRegistration | receiveBlockReport | cache | addBlock | removeBlock | removeBlockFrom | replaceBlock
  | removeAllBlocks | addReportedBlock => exact respects_of_isReserved trivial hdetach fun _ => hattach
  | addTransfer | addRecovery | addInvalidations | resetBlocks | clearQueues | setBandwidth | requestKeyUpdate =>
    exact respects_of_isComposed trivial (fun m _ => hwork m) hstep
  | removeNode c uuid =>
    exact Request.respects_removeNode hdetach c uuid (fun m _ => hwork m) (fun _ _ => .of_eq rfl rfl)
      (fun _ _ => .of_eq rfl rfl) (hlife c)
  | checkHeartbeats c now => exact Request.respects_checkHeartbeats (hlife c) now s
  | addRecoveryOn c uuid b => exact Request.respects_addRecoveryOn c uuid b fun m _ => hwork m
  | updateStorage | updateHeartbeat | register | heartbeat => exact (htells trivial).elim
  | _ => exact .of_eq rfl rfl

private theorem tidings_of_not_tells {step : Step} (h : ¬ step.Tells) : step.tidings n s = [] := by
  cases step with
  | updateStorage | updateHeartbeat | register | heartbeat => exact (h trivial).elim
  | _ => rfl

private theorem account?_register (hs : Reachable s) (c : CoordinatorRef) (r : Registration)
    (storages : List Announcement) (id : String) : ((register c r storages).after s).ledger.account? n id =
      ((register c r storages).tidings n s).foldl (Account.hear id) (s.ledger.account? n id) := by
  rw [tidings]
  cases hfind : (s.ledger.coordinator c).nodes.find? r.uuid with
  | none =>
    have hafter := ledger_register_of_none hfind storages
    have hsize : s.ledger.nodes.size < (s.ledger.enroll c r).nodes.size :=
      Nat.lt_of_lt_of_eq (Nat.lt_succ_self _) (s.ledger.size_bound c r).symm
    have hordered : s.ledger.KeepsOrder (s.ledger.enroll c r) := by
      have hrel : Ledger.KeepsOrder s.ledger ((Request.enroll c r).exec s).2.ledger := Request.idle_enroll c r s
      rwa [Request.exec_enroll] at hrel
    rw [hafter, Ledger.account?_settle (m := ⟨s.ledger.nodes.size⟩) (hordered hs.orderly) hsize,
      (Ledger.keepsAccounts_enroll s.ledger c r).account?_eq]
    rfl
  | some m =>
    have hafter := ledger_register_of_some hs.enrolled hfind storages
    have hwelcome : s.ledger.KeepsRegistries (s.ledger.welcome c m r) := Ledger.rel_welcome hs.enrolled hfind
    have hmade : m.index < (s.ledger.welcome c m r).nodes.size :=
      Nat.lt_of_lt_of_le (hs.enrolled.made c r.uuid m hfind) hwelcome.size
    have hordered : s.ledger.KeepsOrder (s.ledger.welcome c m r) := Ledger.rel_welcome hs.enrolled hfind
    have hkept : KeepsAccounts n s.ledger (s.ledger.welcome c m r) := Ledger.rel_welcome hs.enrolled hfind
    rw [hafter, Ledger.account?_settle (hordered hs.orderly) hmade, hkept.account?_eq]
    rfl

private theorem account?_heartbeat (hs : Reachable s) (c : CoordinatorRef) (uuid : String) (h : Heartbeat)
    (id : String) : ((heartbeat c uuid h).after s).ledger.account? n id =
      ((heartbeat c uuid h).tidings n s).foldl (Account.hear id) (s.ledger.account? n id) := by
  have hafter := ledger_heartbeat (c := c) hs.enrolled uuid h
  have hcounted : ∀ counts, (s.ledger.count c counts).account? n id = s.ledger.account? n id := fun counts =>
    (Ledger.keepsAccounts_count s.ledger c counts).account?_eq id
  rw [hafter, Ledger.heartbeat, tidings]
  cases hfind : (s.ledger.coordinator c).nodes.find? uuid with
  | none =>
    rw [if_neg fun h => nomatch h.1]
    exact hcounted _
  | some m =>
    have hmade := hs.enrolled.made c uuid m hfind
    simp only [Option.some.injEq]
    cases hallowed : (s.ledger.node m).disallowed with
    | true =>
      have hnone : ¬ (m = n ∧ (s.ledger.node n).disallowed = false ∧ (s.ledger.node n).alive = true) := by
        rintro ⟨rfl, hn, -⟩
        rw [hallowed] at hn
        cases hn
      rw [if_neg hnone, if_pos rfl]
      exact hcounted _
    | false =>
      cases halive : (s.ledger.node m).alive with
      | false =>
        have hnone : ¬ (m = n ∧ (s.ledger.node n).disallowed = false ∧ (s.ledger.node n).alive = true) := by
          rintro ⟨rfl, -, hn⟩
          rw [halive] at hn
          cases hn
        rw [if_neg hnone]
        exact hcounted _
      | true =>
        have hheard : (m = n ∧ (s.ledger.node n).disallowed = false ∧ (s.ledger.node n).alive = true) ↔ m = n := by
          refine and_iff_left_of_imp ?_
          rintro rfl
          exact ⟨hallowed, halive⟩
        simp only [if_true, Bool.false_eq_true, if_false]
        rw [(Ledger.keepsAccounts_beat s.ledger c m h).account?_eq, Ledger.account?_takeReports hs.orderly hmade]
        exact congrArg (List.foldl (Account.hear id) _) (if_congr hheard.symm rfl rfl)

/-- What is kept of a volume after a step is what the step tells about it. -/
theorem account?_after (hs : Reachable s) {step : Step} (hstep : step.Enabled s.ledger)
    (hdirect : ¬ step.Overrides n s) (id : String) : (step.after s).ledger.account? n id =
      (step.tidings n s).foldl (Account.hear id) (s.ledger.account? n id) := by
  by_cases htells : step.Tells
  · cases step with
    | updateStorage m a =>
      obtain ⟨v, journal, he⟩ := Request.exec_updateStorage m a s
      have hafter : ((updateStorage m a).after s).ledger = s.ledger.tell m (.announced a) :=
        congrArg (fun x => x.2.ledger) he
      have htold := Ledger.account?_foldl_tell (n := n) hs.orderly (hs.orderly.held m hstep) [.announced a] id
      rw [List.foldl_cons, List.foldl_nil] at htold
      rw [hafter, htold, tidings]
      split <;> rfl
    | updateHeartbeat m h =>
      have hmade := hs.orderly.held m hstep
      have hafter := ledger_updateHeartbeat hmade h
      have hreceived : KeepsAccounts n (s.ledger.takeReports m s.ledger.now h.reports)
          ((s.ledger.takeReports m s.ledger.now h.reports).setNode m
            ((s.ledger.node m).receive s.ledger.now h)) := by
        refine .modifyNode ?_
        rw [Ledger.node_takeReports]
        rfl
      rw [hafter, hreceived.account?_eq, Ledger.account?_takeReports hs.orderly hmade]
      rfl
    | register c r storages => exact account?_register hs c r storages id
    | heartbeat c uuid h => exact account?_heartbeat hs c uuid h id
    | _ => exact htells.elim
  · rw [(keepsAccounts_after hstep htells hdirect).account?_eq, tidings_of_not_tells htells]
    rfl

end Step

namespace Ledger
variable {l l' : Ledger}

/-- The volumes of a node keep their places, and new ones come last. -/
def KeepsEntries (l l' : Ledger) : Prop :=
  ∀ n, (l.node n).storages.entries <+: (l'.node n).storages.entries

theorem keepsEntries_of_eq (h : ∀ n, (l'.node n).storages = (l.node n).storages) : l.KeepsEntries l' :=
  fun n => h n ▸ List.prefix_rfl

instance : IsPreorder Ledger KeepsEntries where
  refl _ _ := List.prefix_rfl
  trans _ _ _ h h' n := (h n).trans (h' n)

instance : Request.WorkFrame KeepsEntries where
  node h := keepsEntries_of_eq (node_modifyNode_congr Node.storages h.storages)
  storage _ := keepsEntries_of_eq fun _ => rfl
  hands nodes _ _ _ _ _ := keepsEntries_of_eq fun n => by unfold node; rw [nodes]
  block _ _ _ := keepsEntries_of_eq fun _ => rfl
  newNode l r location := keepsEntries_of_eq fun _ => (keepsAccounts_addNode l r location).storages
  announce {l n a} ha m := by
    rcases entries_announce_cases ha m with hm | ⟨-, hm⟩
    · rw [hm]
    · rw [hm]
      exact List.prefix_append _ _
  cursors _ := keepsEntries_of_eq fun _ => rfl
  work _ _ _ h := keepsEntries_of_eq (node_modifyNode_congr Node.storages h.storages)

private theorem keepsEntries_rewrite (l : Ledger) (v : StorageRef) (b : BlockRef) (blocks : Slab UInt64 BlockRef)
    (holders : List StorageRef) : l.KeepsEntries (l.rewrite v b blocks holders) :=
  keepsEntries_of_eq fun _ => rfl

end Ledger

theorem Step.keepsEntries_after {s : Service} {step : Step} (hstep : step.Enabled s.ledger) :
    s.ledger.KeepsEntries (step.after s).ledger :=
  step.respects_after (Request.rel_detach Ledger.keepsEntries_rewrite)
    (fun _ => Request.rel_attach Ledger.keepsEntries_rewrite) (fun n _ => Request.WorkFrame.work n) hstep

namespace Service
variable {s : Service} {steps : List Step}

theorem keepsEntries_run (hsteps : s.Legal steps) : s.ledger.KeepsEntries (s.run steps).ledger := by
  induction steps generalizing s with
  | nil => exact refl_of Ledger.KeepsEntries s.ledger
  | cons step steps ih => exact trans_of Ledger.KeepsEntries (Step.keepsEntries_after hsteps.1) (ih hsteps.2)

/-- What a run tells a node about its volumes. -/
def tidings (n : NodeRef) (s : Service) (steps : List Step) : List Tiding :=
  s.along (fun s step => step.tidings n s) steps

/-- What is kept of a volume after a run is what the run has told about it. -/
theorem account?_run (hs : Reachable s) {n : NodeRef} (hsteps : s.Legal steps)
    (hdirect : s.Never (fun s step => step.Overrides n s) steps) (id : String) :
    (s.run steps).ledger.account? n id =
      (s.tidings n steps).foldl (Account.hear id) (s.ledger.account? n id) := by
  induction steps generalizing s with
  | nil => rfl
  | cons step steps ih =>
    have hrun := ih (hs.step hsteps.1) hsteps.2 hdirect.2
    rw [Step.account?_after hs hsteps.1 hdirect.1] at hrun
    rw [tidings, along, List.foldl_append]
    exact hrun

end Service

/-- Over the whole life of a service, as long as nobody changes the state or the figures of its volumes directly, a
node has a volume for each id that has ever been announced to it and for no other, one record each, which is never
taken away or replaced. Each is what the history of announcements and reports tells of it since its first
announcement; reports that came before that are as if they had not come. -/
theorem registry_tells_history (clock : Int) (n : NodeRef) {steps : List Step}
    (hsteps : ({ ledger := { clock } } : Service).Legal steps)
    (hdirect : ({ ledger := { clock } } : Service).Never (fun s step => step.Overrides n s) steps) :
    let start : Service := { ledger := { clock } }
    let history := start.tidings n steps
    let l := (start.run steps).ledger
    let volumes := (l.node n).storages
    (volumes.keys.Nodup ∧ volumes.values.Nodup ∧ ∀ id, id ∈ volumes.keys ↔ ∃ t ∈ history, t.Announces id) ∧
    (∀ id v, (id, v) ∈ volumes.entries → (l.storage v).id = id ∧ (l.storage v).account.ToldBy id history) ∧
    ∀ earlier later, steps = earlier ++ later →
      ((start.run earlier).ledger.node n).storages.entries <+: volumes.entries := by
  intro start history l volumes
  have ho : l.Orderly := ((Reachable.start clock).run hsteps).orderly
  have htold : ∀ id, l.account? n id = history.foldl (Account.hear id) none :=
    Service.account?_run (.start clock) hsteps hdirect
  refine ⟨⟨ho.keys n, ho.values_nodup n, fun id => ?_⟩, fun id v hentry => ?_, ?_⟩
  · rw [← Account.isSome_foldl_hear, ← htold, Ledger.account?, Option.isSome_map, ← Table.contains_iff,
      ← Table.isSome_find?]
    rfl
  · have hfind : l.storageOf? n id = some v := (Table.find?_eq_some_iff (ho.keys n)).2 hentry
    have hkept : l.account? n id = some (l.storage v).account := by
      rw [Ledger.account?, hfind, Option.map_some]
    exact ⟨ho.named n id v hentry, Account.toldBy_of_foldl ((htold id).symm.trans hkept)⟩
  · rintro earlier later rfl
    have hlater := Service.keepsEntries_run (Service.legal_append.1 hsteps).2 n
    rwa [← Service.run_append] at hlater

/-- A volume is reported before it is announced, announced, reported twice in one heartbeat, the second time as failed,
and announced again with another one when its node comes back. -/
def announcedLate : List Step :=
  let a : Announcement := { id := "A", medium := .ssd }
  let report : StorageReport :=
    { storage := a, capacity := 10, dfsUsed := 4, remaining := 6, blockPoolUsed := 4 }
  let r := Registration.ofAddress "a" "10.0.0.1" 9866
  [.makeCoordinator {}, .register ⟨0⟩ r [], .updateHeartbeat ⟨0⟩ { reports := [report] }, .setClock 5,
    .updateStorage ⟨0⟩ a, .heartbeat ⟨0⟩ "a" { reports := [report, { report with capacity := 20, failed := true }] },
    .resetBlocks ⟨⟨0⟩⟩ ⟨0⟩,
    .register ⟨0⟩ r [{ id := "A", state := .readOnly }, { id := "B" }, { id := "B", state := .failed }]]

theorem registry_tells_history_announced_late :
    let start : Service := { ledger := { clock := 0 } }
    let history := start.tidings ⟨0⟩ announcedLate
    let l := (start.run announcedLate).ledger
    (l.node ⟨0⟩).storages.entries = [("A", ⟨0⟩), ("B", ⟨1⟩)] ∧ (∃ t ∈ history, t.Announces "B") ∧
      (l.storage ⟨0⟩).account.ToldBy "A" history ∧
      (l.storage ⟨0⟩).account = ⟨.ssd, .readOnly, ⟨20, 4, 6, 4, 5⟩⟩ ∧
      (l.storage ⟨1⟩).account = ⟨.disk, .failed, {}⟩ := by
  intro start history l
  obtain ⟨⟨-, -, hkeys⟩, htold, -⟩ :=
    @registry_tells_history 0 ⟨0⟩ announcedLate (by decide +kernel) (by decide +kernel)
  exact ⟨by decide +kernel, (hkeys "B").1 (by decide +kernel), (htold "A" ⟨0⟩ (by decide +kernel)).2,
    by decide +kernel, by decide +kernel⟩

end DatanodeLedger
