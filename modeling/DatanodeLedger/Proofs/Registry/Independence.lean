import DatanodeLedger.Proofs.Registry.Lockstep

/-! What an operation does in the name of one node does not depend on what has been done in the name of another. -/
namespace DatanodeLedger
open Ledger (Within Lockstep)

namespace Service
variable {s s' : Service} {l' : Ledger} {c : CoordinatorRef} {uuid other : String} {n : NodeRef} {v : StorageRef}

/-- What is done in the name of one node leaves another one alone, -/
theorem Kept.not_owns (hs : s.Kept c) (hne : uuid ≠ other) (hn : (s.ledger.coordinator c).nodes.find? uuid = some n) :
    ¬ s.ledger.Owns c other n := by
  have he := hs.reachable.enrolled
  rintro (hother | hle)
  · exact hne ((he.uuid c uuid n hn).symm.trans (he.uuid c other n hother))
  · exact Nat.not_lt.2 hle (he.made c uuid n hn)

/-- and its volumes. -/
theorem Kept.not_has (hs : s.Kept c) (hne : uuid ≠ other) (hn : (s.ledger.coordinator c).nodes.find? uuid = some n)
    (hv : v ∈ (s.ledger.node n).storages.values) : ¬ s.ledger.Has c other v := by
  rintro (⟨m, hm, hvm⟩ | hle)
  · obtain rfl := hs.reachable.orderly.apart m n v hvm hv
    exact hs.not_owns hne hn (.inl hm)
  · exact Nat.not_lt.2 hle (hs.reachable.orderly.made n v hv)

/-- A node that is registered has been made, and its name stays. -/
theorem Kept.moveNode (hs : s.Kept c) (hn : (s.ledger.coordinator c).nodes.find? uuid = some n) (l' : Ledger) :
    s.ledger.moveNode l' n = n :=
  Ledger.moveNode_of_lt (hs.reachable.enrolled.made c uuid n hn) l'

/-- So do those of the volumes that are there. -/
theorem Kept.rename_moveVolume (hs : s.Kept c) (n : NodeRef) (l' : Ledger) :
    (s.ledger.node n).rename (s.ledger.moveVolume l') = s.ledger.node n :=
  Node.rename_eq_self fun v hv => Ledger.moveVolume_of_lt (hs.reachable.orderly.made n v hv) l'

/-- Two runs in the name of one node can set out from ledgers between which all has been done in the name of
another. -/
theorem Kept.lockstep (hs : s.Kept c) (h : Within c other s.ledger l') (hne : uuid ≠ other) :
    Lockstep c uuid s.ledger l' id s.ledger l' where
  within := .refl c uuid _
  laterNodes := h.nodes
  laterStorages := h.storages
  nodes := Nat.add_comm _ _
  storages := Nat.add_comm _ _
  made := hs.made
  made' := h.coordinators ▸ hs.made
  node n hn := by
    rw [hs.rename_moveVolume]
    rcases hn with hn | hle
    · rw [hs.moveNode hn, h.node n (hs.not_owns hne hn)]
    · have hle' : l'.nodes.size ≤ (s.ledger.moveNode l' n).index := by
        show _ ≤ renumber _ _ _
        rw [renumber_of_le hle]
        omega
      rw [Ledger.node_of_le hle, Ledger.node_of_le hle']
  storage v hv := by
    rcases hv with ⟨n, hn, hv⟩ | hle
    · rw [Ledger.moveVolume_of_lt (hs.reachable.orderly.made n v hv), h.storage v (hs.not_has hne hn hv)]
    · have hle' : l'.storages.size ≤ (s.ledger.moveVolume l' v).index := by
        show _ ≤ renumber _ _ _
        rw [renumber_of_le hle]
        omega
      rw [Ledger.storage_of_le hle, Ledger.storage_of_le hle']
  block b := by rw [h.block b]
  closed n hn v hv := by
    rcases hn with hn | hle
    · exact .inl ⟨n, hn, hv⟩
    · rw [Ledger.node_of_le hle] at hv
      exact (List.not_mem_nil hv).elim
  owner n hn := .inl hn
  entry := by
    rw [h.registry uuid hne]
    cases hn : (s.ledger.coordinator c).nodes.find? uuid with
    | none => rfl
    | some n => rw [Option.map_some, hs.moveNode hn]
  limits := h.limits
  lock := h.lock
  counter _ := UInt64.add_comm _ _
  locks := by rw [Ledger.modify_id]
  locks' := by rw [Ledger.modify_id]
  rest := ⟨h.rest.1, h.rest.2.1⟩

/-- The volumes of a registered node are the only ones with its uuid that list anything. -/
theorem Kept.sole (hs : s.Kept c) (hn : (s.ledger.coordinator c).nodes.find? uuid = some n) :
    s.ledger.Sole uuid (s.ledger.node n).storages.values := by
  have huuid := hs.reachable.enrolled.uuid c uuid n hn
  have hhouses := hs.reachable.coherent.houses hs.reachable.orderly (Ledger.mem_heldNodes_of_find? hn)
    fun v _ howner hlisted =>
      hs.housed.mem_values hs.reachable.coherent hs.reachable.enrolled hn (howner.trans huuid) hlisted
  exact ⟨hs.reachable.coherent, huuid ▸ hhouses, hs.onePerNode⟩

/-- The volumes of the node keep their names. -/
private theorem Kept.volumes (hs : s.Kept c) (hn : (s.ledger.coordinator c).nodes.find? uuid = some n) (l' : Ledger) :
    ∀ v ∈ (s.ledger.node n).storages.values, s.ledger.Has c uuid v ∧ s.ledger.moveVolume l' v = v := fun v hv =>
  ⟨.inl ⟨n, hn, hv⟩, Ledger.moveVolume_of_lt (hs.reachable.orderly.made n v hv) l'⟩

private theorem sole_take {l : Ledger} {us : List StorageRef} (h : l.Sole uuid us) (r : LockRef) :
    (l.take r).Sole uuid us :=
  ⟨(Ledger.alike_modifyLock r _).quiet.coherent h.coherent,
    ⟨h.houses.nodup, h.houses.live, h.houses.owner, h.houses.only⟩, h.onePerNode⟩

section outset
variable (hs : s.Kept c) (h : Lockstep c uuid s.ledger s'.ledger id s.ledger s'.ledger)
  (hn : (s.ledger.coordinator c).nodes.find? uuid = some n)
include hs h hn

/-- From the outset the node is registered in both ledgers, with the same volumes. -/
private theorem outset : (s'.ledger.coordinator c).nodes.find? uuid = some n ∧
    s'.ledger.node n = s.ledger.node n := by
  have hfixed := hs.moveNode hn s'.ledger
  have hentry := h.entry
  have hnode := h.node n (.inl hn)
  rw [hn, Option.map_some, hfixed] at hentry
  rw [hfixed, hs.rename_moveVolume] at hnode
  exact ⟨hentry, hnode⟩

private theorem lockstep_strip (hs' : s'.Kept c) : Lockstep c uuid s.ledger s'.ledger ({ · with held := false })
    (s.ledger.strip c n) (s'.ledger.strip c n) := by
  obtain ⟨hentry, hnode⟩ := outset hs h hn
  have hfixed := hs.moveNode hn s'.ledger
  have huuid := hs.reachable.enrolled.uuid c uuid n hn
  have hus := hs.volumes hn s'.ledger
  have hsole' := hs'.sole hentry
  rw [hnode] at hsole'
  have hlisted : s'.ledger.blocksOn n = s.ledger.blocksOn n := by
    unfold Ledger.blocksOn
    rw [hnode]
    refine List.flatMap_congr fun v hv => ?_
    have hstorage := h.storage v (hus v hv).1
    rw [(hus v hv).2] at hstorage
    exact Ledger.listed_congr (congrArg Storage.blocks hstorage)
  have hdropped := h.take.dropBlocks hus (sole_take (hs.sole hn) _) (sole_take hsole' _) (s.ledger.blocksOn n)
  have hidle := hdropped.changeNode (.inl hn) Node.dropWork (fun _ => rfl) (fun _ _ => rfl) fun _ => List.nil_subset _
  have hdone := (hidle.clearCache (.inl hn)).release
  rw [hfixed] at hdone
  unfold Ledger.strip
  rw [h.lock, hlisted, hnode, huuid]
  exact hdone

end outset
end Service

/-- What is left of a lock after an operation: it has been given back, if it has been taken at all. -/
def Returned (f : NamespaceLock → NamespaceLock) : Prop := f = id ∨ f = ({ · with held := false })

theorem Returned.comm {f g : NamespaceLock → NamespaceLock} (hf : Returned f) (hg : Returned g) : f ∘ g = g ∘ f := by
  rcases hf with rfl | rfl <;> rcases hg with rfl | rfl <;> rfl

namespace Operation

/-- Two runs of one operation answer the same and come to the same, up to the names of what has been made. -/
def InStep (op : Operation) (c : CoordinatorRef) (l l' : Ledger) : Prop :=
  (op.outcome c l').1 = (op.outcome c l).1.rename (l.moveNode l') ∧
    ∃ f, Returned f ∧ Lockstep c op.uuid l l' f (op.outcome c l).2 (op.outcome c l').2

section lockstep
variable {s s' : Service} {c : CoordinatorRef} {uuid : String}

private theorem inStep_register {r : Registration}
    (h : Lockstep c r.uuid s.ledger s'.ledger id s.ledger s'.ledger) (storages : List Announcement) :
    (register r storages).InStep c s.ledger s'.ledger := by
  simp only [InStep, Operation.uuid, outcome, Ledger.register]
  rw [h.entry]
  cases hn : (s.ledger.coordinator c).nodes.find? r.uuid with
  | none =>
    simp only [Option.map_none, ← h.moveNode_size]
    exact ⟨rfl, id, .inl rfl, (h.enroll rfl).settle (.inr (Nat.le_refl _)) storages⟩
  | some n => exact ⟨rfl, _, .inr rfl, (h.welcome (.inl hn) r).settle (.inl hn) storages⟩

variable (h : Lockstep c uuid s.ledger s'.ledger id s.ledger s'.ledger)
include h

private theorem inStep_remove (hs : s.Kept c) (hs' : s'.Kept c) : (remove uuid).InStep c s.ledger s'.ledger := by
  simp only [InStep, Operation.uuid, outcome, Ledger.remove]
  rw [h.entry]
  cases hn : (s.ledger.coordinator c).nodes.find? uuid with
  | none => exact ⟨rfl, id, .inl rfl, h⟩
  | some n =>
    have hdismissed := (Service.lockstep_strip hs h hn hs').dismiss (.inl hn)
    simp only [Option.map_some, hs.moveNode hn] at hdismissed ⊢
    exact ⟨congrArg (fun n => Answer.removed (some n)) (hs.moveNode hn _).symm, _, .inr rfl, hdismissed⟩

private theorem inStep_heartbeat (beat : Heartbeat) : (heartbeat uuid beat).InStep c s.ledger s'.ledger := by
  simp only [InStep, Operation.uuid, outcome, Ledger.heartbeat]
  rw [h.entry]
  cases hn : (s.ledger.coordinator c).nodes.find? uuid with
  | none => exact ⟨rfl, id, .inl rfl, h.count _⟩
  | some n =>
    have hnode := h.node n (.inl hn)
    have hdisallowed := congrArg Node.disallowed hnode
    have halive := h.alive (.inl hn)
    simp only [Node.rename] at hdisallowed
    simp only [Option.map_some, hdisallowed, halive]
    cases (s.ledger.node n).disallowed with
    | true => exact ⟨rfl, id, .inl rfl, h.count _⟩
    | false =>
      cases (s.ledger.node n).alive with
      | false => exact ⟨rfl, id, .inl rfl, h.count _⟩
      | true =>
        simp only [hnode, Node.receive_rename, Node.serve_rename, h.now, h.limits]
        exact ⟨rfl, id, .inl rfl, h.beat (.inl hn) beat⟩

private theorem inStep_report (hs : s.Kept c) (hs' : s'.Kept c) (volume : String) (b : BlockRef) :
    (report uuid volume b).InStep c s.ledger s'.ledger := by
  simp only [InStep, Operation.uuid, outcome, Ledger.report]
  rw [h.entry]
  cases hn : (s.ledger.coordinator c).nodes.find? uuid with
  | none => exact ⟨rfl, id, .inl rfl, h⟩
  | some n =>
    simp only [Option.map_some, h.storageOf? (.inl hn) volume]
    cases hv : s.ledger.storageOf? n volume with
    | none => exact ⟨rfl, id, .inl rfl, h⟩
    | some v =>
      obtain ⟨hentry, hnode⟩ := Service.outset hs h hn
      have hus := hs.volumes hn s'.ledger
      have hmem := Table.mem_values_of_find? hv
      have hsole' := hs'.sole hentry
      rw [hnode] at hsole'
      obtain ⟨hanswer, hplaced⟩ := h.take.place hus (Service.sole_take (hs.sole hn) _)
        (Service.sole_take hsole' _) hmem b
      simp only [Option.map_some, h.lock, (hus v hmem).2, hanswer]
      exact ⟨rfl, _, .inr rfl, hplaced.release⟩

private theorem inStep_recover (b : OpenRef) : (recover uuid b).InStep c s.ledger s'.ledger := by
  simp only [InStep, Operation.uuid, outcome, Ledger.recover]
  rw [h.entry]
  cases hn : (s.ledger.coordinator c).nodes.find? uuid with
  | none => exact ⟨rfl, id, .inl rfl, h⟩
  | some n =>
    obtain ⟨hoffer, hqueued⟩ := h.queue (.inl hn) b
    simp only [Option.map_some, hoffer]
    exact ⟨rfl, id, .inl rfl, hqueued⟩

end lockstep

/-- Two runs of one operation set out from ledgers between which all has been done in the name of another node. -/
theorem lockstep {s s' : Service} {c : CoordinatorRef} {other : String} (hs : s.Kept c) (hs' : s'.Kept c)
    (h : Within c other s.ledger s'.ledger) (op : Operation) (hne : op.uuid ≠ other) :
    op.InStep c s.ledger s'.ledger := by
  have hstart := hs.lockstep h hne
  cases op with
  | register r storages => exact inStep_register hstart storages
  | remove uuid => exact inStep_remove hstart hs hs'
  | heartbeat uuid beat => exact inStep_heartbeat hstart beat
  | report uuid volume b => exact inStep_report hstart hs hs' volume b
  | recover uuid b => exact inStep_recover hstart b

end Operation
end DatanodeLedger
