import DatanodeLedger.Proofs.Membership.Isolation
import DatanodeLedger.Proofs.Registry.Removal

/-! Where blocks only come onto volumes through one coordinator, all lists and all back-references are those of the
volumes in its registry. -/
namespace DatanodeLedger

namespace Ledger
variable {l l' : Ledger} {c k : CoordinatorRef} {uuid : String} {n : NodeRef} {v : StorageRef} {b : BlockRef}

/-- A node of the registry has the volume. -/
def AtHome (l : Ledger) (c : CoordinatorRef) (v : StorageRef) : Prop :=
  ∃ uuid n, (l.coordinator c).nodes.find? uuid = some n ∧ v ∈ (l.node n).storages.values

/-- Every block refers back only to volumes that list it, be they there or not. -/
def Exact (l : Ledger) : Prop := ∀ b, ∀ v ∈ (l.block b).holders, b ∈ l.listed v

/-- The volumes that list anything are those of the registry, and blocks refer back to no others. -/
structure Housed (l : Ledger) (c : CoordinatorRef) : Prop where
  home : ∀ v, ∀ b ∈ l.listed v, l.AtHome c v
  exact : l.Exact

/-- Nodes keep their volumes. -/
def KeepsVolumes (l l' : Ledger) : Prop :=
  ∀ n, ∀ v ∈ (l.node n).storages.values, v ∈ (l'.node n).storages.values

/-- Lists and back-references go on to agree, also for volumes that are gone. -/
def KeepsExact (l l' : Ledger) : Prop := l.Coherent → l'.Coherent ∧ (l.Exact → l'.Exact)

instance : IsPreorder Ledger KeepsVolumes where
  refl _ _ _ hv := hv
  trans _ _ _ h h' n v hv := h' n v (h n v hv)

instance : IsPreorder Ledger KeepsExact where
  refl _ hl := ⟨hl, fun he => he⟩
  trans l l' l'' h h' hl := by
    obtain ⟨hl', hexact⟩ := h hl
    obtain ⟨hl'', hexact'⟩ := h' hl'
    exact ⟨hl'', fun he => hexact' (hexact he)⟩

theorem keepsVolumes_of_eq (h : ∀ n, (l'.node n).storages = (l.node n).storages) : l.KeepsVolumes l' :=
  fun n _ hv => h n ▸ hv

theorem Quiet.keepsExact (h : l.Quiet l') : l.KeepsExact l' := by
  refine fun hl => ⟨h.coherent hl, fun he b v hv => ?_⟩
  rw [h.holders b] at hv
  rw [h.listed v]
  exact he b v hv

instance : Request.WorkFrame KeepsVolumes where
  node h := keepsVolumes_of_eq (node_modifyNode_congr Node.storages h.storages)
  storage _ := keepsVolumes_of_eq fun _ => rfl
  hands nodes _ _ _ _ _ := keepsVolumes_of_eq fun n => by unfold node; rw [nodes]
  block _ _ _ := keepsVolumes_of_eq fun _ => rfl
  newNode l r location n v hv := by
    rcases node_addNode_cases l { Node.ofRegistration r with location } n with h | ⟨hnew, -⟩
    · rw [h]
      exact hv
    · rw [node_of_le (Nat.le_of_eq hnew.symm)] at hv
      exact (List.not_mem_nil hv).elim
  announce {l n a} ha m v hv := by
    unfold Table.values at hv ⊢
    rcases entries_announce_cases ha m with hm | ⟨-, hm⟩
    · rw [hm]
      exact hv
    · rw [hm, List.map_append]
      exact List.mem_append_left _ hv
  cursors _ := keepsVolumes_of_eq fun _ => rfl
  work _ _ _ h := keepsVolumes_of_eq (node_modifyNode_congr Node.storages h.storages)

instance : Request.WorkFrame KeepsExact where
  node h := (Request.Frame.node h : Quiet _ _).keepsExact
  storage h := (Request.Frame.storage h : Quiet _ _).keepsExact
  hands nodes storages blocks cursors terms held :=
    (Request.Frame.hands nodes storages blocks cursors terms held : Quiet _ _).keepsExact
  block l block replication := (Request.Frame.block l block replication : Quiet _ _).keepsExact
  newNode l r location := (Request.Frame.newNode l r location : Quiet _ _).keepsExact
  announce h := (Request.Frame.announce h : Quiet _ _).keepsExact
  cursors h := (Request.Frame.cursors h : Quiet _ _).keepsExact
  work n _ _ h := (Request.WorkFrame.work n h : Quiet _ _).keepsExact

theorem keepsVolumes_rewrite (l : Ledger) (v : StorageRef) (b : BlockRef) (blocks : Slab UInt64 BlockRef)
    (holders : List StorageRef) : l.KeepsVolumes (l.rewrite v b blocks holders) :=
  keepsVolumes_of_eq fun _ => rfl

/-- A block that comes off a list loses its back-reference. -/
theorem Rewritten.exact_of_detached (h : l.Detached v b l') (hl : l.Coherent) (he : l.Exact) : l'.Exact := by
  intro d w hw
  have hlisted := Detached.mem_listed h hl (u := w) (c := d)
  by_cases hd : d = b
  · subst hd
    rw [h.holders_self, mem_swapRemove (hl.once d)] at hw
    exact hlisted.2 ⟨he d w hw.2, fun hwv => hw.1 hwv.1⟩
  · rw [h.holders_of_ne d hd] at hw
    exact hlisted.2 ⟨he d w hw, fun hwv => hd hwv.2⟩

/-- A block that comes onto a list keeps the back-references that it still has. -/
theorem Rewritten.exact_of_attached (h : l.Attached v b l') (he : l.Exact) : l'.Exact := by
  intro d w hw
  have hlisted := Attached.mem_listed h (u := w) (c := d)
  by_cases hd : d = b
  · subst hd
    rw [h.holders_self] at hw
    rcases List.mem_append.1 hw with hw | hw
    · exact hlisted.2 (.inr (he d w (List.mem_of_mem_filter hw)))
    · exact hlisted.2 (.inl ⟨List.mem_singleton.1 hw, rfl⟩)
  · rw [h.holders_of_ne d hd] at hw
    exact hlisted.2 (.inr (he d w hw))

theorem keepsExact_detach (l : Ledger) (v : StorageRef) (b : BlockRef) (removed : Bool) (l' : Ledger)
    (h : l.detach v b = .ok (removed, l')) : l.KeepsExact l' := by
  intro hl
  by_cases hb : b ∈ l.listed v
  · obtain ⟨l₁, he, hdet⟩ := hl.detach hb
    rw [h] at he
    cases he
    exact ⟨hdet.coherent, Rewritten.exact_of_detached hdet hl⟩
  · rw [hl.detach_refused hb] at h
    cases h
    exact ⟨hl, fun he => he⟩

theorem Addition.exact {id : String} {answer : Except Fault Bool} (h : l.Addition n id b answer l') (hl : l.Coherent)
    (he : l.Exact) : l'.Exact := by
  cases h with
  | foreign e h => exact (h.quiet.keepsExact hl).2 he
  | unknown ht h => exact (h.quiet.keepsExact hl).2 he
  | present ht hs h => exact (h.quiet.keepsExact hl).2 he
  | refused ht hs ho h => exact (h.quiet.keepsExact hl).2 he
  | placed ht hs ho h => exact Rewritten.exact_of_attached h he
  | lost ht hs hne ho h => exact Rewritten.exact_of_detached h hl he
  | moved ht hs hne ho h h' => exact Rewritten.exact_of_attached h' (Rewritten.exact_of_detached h hl he)

/-- What an addition lists anew is on a volume of the node. -/
theorem Addition.mem_values_of_listed {id : String} {answer : Except Fault Bool} (h : l.Addition n id b answer l')
    {d : BlockRef} (hd : d ∈ l'.listed v) :
    d ∈ l.listed v ∨ v ∈ (l.node n).storages.values := by
  by_cases hv : v ∈ (l.node n).storages.values
  · exact .inr hv
  · rw [h.listed_eq hv] at hd
    split at hd
    · exact .inl (List.mem_of_mem_erase hd)
    · exact .inl hd

/-- A volume that lists anything carries the uuid under which its node is registered. -/
theorem Housed.found_of_listed (h : l.Housed c) (hl : l.Coherent) (henrolled : l.Enrolled) (hb : b ∈ l.listed v) :
    ∃ n, (l.coordinator c).nodes.find? (l.storage v).owner = some n ∧ v ∈ (l.node n).storages.values := by
  obtain ⟨uuid, n, hn, hv⟩ := h.home v b hb
  rw [(hl.owned n v hv).2, henrolled.uuid c uuid n hn]
  exact ⟨n, hn, hv⟩

/-- The volumes with a registered uuid that list anything are those of the node. -/
theorem Housed.mem_values (h : l.Housed c) (hl : l.Coherent) (henrolled : l.Enrolled)
    (hn : (l.coordinator c).nodes.find? uuid = some n) (howner : (l.storage v).owner = uuid)
    (hlisted : l.listed v ≠ []) : v ∈ (l.node n).storages.values := by
  obtain ⟨b, hb⟩ := List.exists_mem_of_ne_nil _ hlisted
  obtain ⟨m, hm, hv⟩ := h.found_of_listed hl henrolled hb
  rw [howner, hn] at hm
  cases hm
  exact hv

/-- As long as the registry only grows and nodes keep their volumes, what is listed stays at home. -/
theorem Housed.of_keeps (h : l.Housed c) (hfound : ∀ uuid n, (l.coordinator c).nodes.find? uuid = some n →
    (l'.coordinator c).nodes.find? uuid = some n) (hvolumes : l.KeepsVolumes l')
    (hlisted : ∀ v b, b ∈ l'.listed v → b ∈ l.listed v ∨ l.AtHome c v) (hexact : l'.Exact) : l'.Housed c where
  home v b hb := by
    obtain ⟨uuid, n, hn, hv⟩ := (hlisted v b hb).elim (h.home v b) id
    exact ⟨uuid, n, hfound uuid n hn, hvolumes n v hv⟩
  exact := hexact

/-- Of a node that is removed no volume lists anything any more. -/
theorem Housed.removed (h : l.Housed c) (hl' : l'.Coherent)
    (hn : (l.coordinator c).nodes.find? uuid = some n) (hremoved : l.Removed c uuid n l') (hexact : l'.Exact)
    (hfound : ∀ id, id ≠ uuid → (l'.coordinator c).nodes.find? id = (l.coordinator c).nodes.find? id) :
    l'.Housed c where
  home v b hb := by
    have hv : v ∉ (l.node n).storages.values := by
      intro hv
      have hself : (l'.node n).storages = (l.node n).storages := by
        rw [hremoved.node]
        rfl
      have hnone := hremoved.bare.lists v (hself ▸ hv)
      rw [hl'.blockRefs_eq] at hnone
      rw [Except.ok.inj hnone] at hb
      exact List.not_mem_nil hb
    have hold : b ∈ l.listed v := by
      rwa [listed_congr (congrArg Storage.blocks (hremoved.volumes v hv))] at hb
    obtain ⟨id, m, hm, hvm⟩ := h.home v b hold
    have hne : m ≠ n := by
      rintro rfl
      exact hv hvm
    have hid : id ≠ uuid := by
      rintro rfl
      exact hne (Option.some.inj (hm.symm.trans hn))
    refine ⟨id, m, (hfound id hid).trans hm, ?_⟩
    rw [hremoved.nodes m hne]
    exact hvm
  exact := hexact

theorem housed_made (clock : Int) (limits : Limits) : (addCoordinator { clock } limits).2.Housed ⟨0⟩ where
  home _ _ hb := (List.not_mem_nil hb).elim
  exact _ _ hv := (List.not_mem_nil hv).elim

end Ledger

namespace Step
variable {s : Service} {c : CoordinatorRef}

/-- The steps that leave it to the coordinator which nodes are registered, which of them are alive and which blocks
come onto their volumes. -/
def Managed (c : CoordinatorRef) : Step → Prop
  | changeNode _ (.alive _) | makeCoordinator _ | dropCoordinator _ | addBlock .. | replaceBlock .. => False
  | addReportedBlock k _ _ _ => k = c
  | _ => True

instance (step : Step) : Decidable (step.Managed c) := by
  rcases step
  case changeNode _ change => rcases change <;> unfold Managed <;> infer_instance
  all_goals unfold Managed; infer_instance

/-- The steps that can change a registry. -/
def Enlists : Step → Prop
  | makeCoordinator _ | dropCoordinator _ | register .. | removeNode .. => True
  | _ => False

theorem keepsRegistries_after {step : Step} (hstep : step.Enabled s.ledger) (hnot : ¬ step.Enlists) :
    s.ledger.KeepsRegistries (step.after s).ledger := by
  have hlife := Ledger.allowsLife_keepsRegistries
  by_cases hstirs : step.Stirs
  · cases step with
    | changeNode n change =>
      have hsettles : s.ledger.Settles (s.ledger.node n) (change.apply (s.ledger.node n)) := change.settles
      exact Ledger.keepsRegistries_modifyNode hsettles.uuid fun r hr => hsettles.lock.trans hr
    | changeLock r lock => exact Ledger.keepsRegistries_of_eq rfl rfl
    | updateHeartbeat n beat => exact Request.respects_updateHeartbeat (hlife ⟨0⟩ n).hearing beat s
    | heartbeat k id beat =>
      exact Request.respects_heartbeat k id beat (fun n _ => Request.Slim.calmWork n)
        fun n _ => (hlife k n).hearing
    | checkHeartbeats k now => exact Request.respects_checkHeartbeats (hlife k) now s
    | makeCoordinator limits => exact (hnot trivial).elim
    | dropCoordinator k => exact (hnot trivial).elim
    | register k r storages => exact (hnot trivial).elim
    | removeNode k id => exact (hnot trivial).elim
    | _ => exact hstirs.elim
  · exact step.narrow_after hstirs hstep

/-- Whoever is registered stays so, unless it is removed or its coordinator is given up. -/
theorem find?_after (hs : Reachable s) {step : Step} (hstep : step.Enabled s.ledger) {uuid : String} {n : NodeRef}
    (hremove : step ≠ removeNode c uuid) (hdrop : step ≠ dropCoordinator c)
    (hn : (s.ledger.coordinator c).nodes.find? uuid = some n) :
    ((step.after s).ledger.coordinator c).nodes.find? uuid = some n := by
  by_cases hlists : step.Enlists
  · cases step with
    | makeCoordinator limits =>
      have hsame : ((makeCoordinator limits).after s).ledger.coordinator c = s.ledger.coordinator c :=
        Ledger.coordinator_addCoordinator_of_lt (Ledger.lt_size_of_find? hn) limits
      rw [hsame]
      exact hn
    | dropCoordinator k =>
      have hsame : ((dropCoordinator k).after s).ledger.coordinator c = s.ledger.coordinator c :=
        Ledger.coordinator_modifyCoordinator_of_ne (fun hc => hdrop (congrArg dropCoordinator hc.symm)) _
      rw [hsame]
      exact hn
    | register k r storages =>
      cases hfind : (s.ledger.coordinator k).nodes.find? r.uuid with
      | none =>
        have hafter := ledger_register_of_none hfind storages
        have hne : ¬ (k = c ∧ r.uuid = uuid) := by
          rintro ⟨rfl, rfl⟩
          exact nomatch hfind.symm.trans hn
        rw [hafter, (Ledger.keepsRegistries_settle _ k _ storages).registry, Ledger.find?_enroll_of_ne hne]
        exact hn
      | some m =>
        have hafter := ledger_register_of_some hs.enrolled hfind storages
        have hwelcome : s.ledger.KeepsRegistries (s.ledger.welcome k m r) := Ledger.rel_welcome hs.enrolled hfind
        rw [hafter, (Ledger.keepsRegistries_settle _ k _ storages).registry, hwelcome.registry]
        exact hn
    | removeNode k id =>
      cases hfind : (s.ledger.coordinator k).nodes.find? id with
      | none =>
        have hafter := after_removeNode_of_none hfind
        rw [hafter]
        exact hn
      | some m =>
        have hafter := ledger_removeNode_of_some hs.coherent hs.enrolled hfind
        have hstrip : s.ledger.KeepsRegistries (s.ledger.strip k m) :=
          Ledger.rel_strip hs.coherent hs.enrolled hfind
        have hne : ¬ (k = c ∧ id = uuid) := by
          rintro ⟨rfl, rfl⟩
          exact hremove rfl
        rw [hafter, Ledger.find?_dismiss_of_ne hne, hstrip.registry]
        exact hn
    | _ => exact hlists.elim
  · rw [(step.keepsRegistries_after hstep hlists).registry]
    exact hn

theorem keepsVolumes_after {step : Step} (hstep : step.Enabled s.ledger) :
    s.ledger.KeepsVolumes (step.after s).ledger :=
  step.respects_after (Request.rel_detach Ledger.keepsVolumes_rewrite)
    (fun _ => Request.rel_attach Ledger.keepsVolumes_rewrite) (fun n _ => Request.WorkFrame.work n) hstep

/-- A step that puts no block on a list leaves all lists and back-references at home, unless it takes a node away
from them. -/
private theorem housed_of_not_places (hs : Reachable s) (h : s.ledger.Housed c) {step : Step}
    (hmanaged : step.Managed c) (hstep : step.Enabled s.ledger) (hplaces : ¬ step.Places)
    (hremove : ∀ uuid n, step = removeNode c uuid → (s.ledger.coordinator c).nodes.find? uuid ≠ some n) :
    (step.after s).ledger.Housed c := by
  have hexact : s.ledger.KeepsExact (step.after s).ledger :=
    step.respects_after Ledger.keepsExact_detach (fun hp => (hplaces hp).elim)
      (fun n _ => Request.WorkFrame.work n) hstep
  refine h.of_keeps (fun uuid n hn => ?_) (step.keepsVolumes_after hstep) (fun v b hb => .inl ?_)
    ((hexact hs.coherent).2 h.exact)
  · refine find?_after hs hstep (fun hr => hremove uuid n hr hn) (fun hdrop => ?_) hn
    subst hdrop
    exact hmanaged
  · exact (step.thins_after hstep hplaces hs.coherent).2.2 v b hb

private theorem housed_removeNode (hs : Reachable s) (h : s.ledger.Housed c) {uuid : String} {n : NodeRef}
    (hn : (s.ledger.coordinator c).nodes.find? uuid = some n) :
    ((removeNode c uuid).after s).ledger.Housed c := by
  have henabled : (removeNode c uuid).Enabled s.ledger := trivial
  have hexact : s.ledger.KeepsExact ((removeNode c uuid).after s).ledger :=
    Step.respects_after Ledger.keepsExact_detach _ (fun hp => hp.elim) (fun n _ => Request.WorkFrame.work n) henabled
  obtain ⟨hl', hexact⟩ := hexact hs.coherent
  have hafter := ledger_removeNode_of_some hs.coherent hs.enrolled hn
  have hstrip : s.ledger.KeepsRegistries (s.ledger.strip c n) := Ledger.rel_strip hs.coherent hs.enrolled hn
  have hremoved := Ledger.removed_dismiss hs.coherent hs.orderly hs.enrolled hn fun v _ howner hlisted =>
    h.mem_values hs.coherent hs.enrolled hn howner hlisted
  rw [← hafter] at hremoved
  refine h.removed hl' hn hremoved (hexact h.exact) fun id hid => ?_
  rw [hafter, Ledger.find?_dismiss_of_ne fun hne => hid hne.2.symm, hstrip.registry]

private theorem housed_addReportedBlock (hs : Reachable s) (h : s.ledger.Housed c) {b : BlockRef}
    (hb : b.index < s.ledger.blocks.size) (uuid id : String) :
    ((addReportedBlock c uuid id b).after s).ledger.Housed c := by
  have henabled : (addReportedBlock c uuid id b).Enabled s.ledger := hb
  have hadd := Request.exec_addReportedBlock hs.coherent hb c uuid id
  have hregistries : s.ledger.KeepsRegistries ((addReportedBlock c uuid id b).after s).ledger :=
    keepsRegistries_after henabled fun h => h
  have hvolumes : s.ledger.KeepsVolumes ((addReportedBlock c uuid id b).after s).ledger :=
    keepsVolumes_after henabled
  have hfound : ∀ uuid' n, (s.ledger.coordinator c).nodes.find? uuid' = some n →
      (((addReportedBlock c uuid id b).after s).ledger.coordinator c).nodes.find? uuid' = some n :=
    fun uuid' n hn => (hregistries.registry c).symm ▸ hn
  unfold after at hvolumes hfound ⊢
  generalize ((Request.addReportedBlock c uuid id b).exec s).2.ledger = l' at hadd hvolumes hfound ⊢
  generalize ((Request.addReportedBlock c uuid id b).exec s).1 = answer at hadd
  cases hadd with
  | unregistered hn => exact h
  | unknown hn ht => exact h
  | added hn hadd =>
    refine h.of_keeps hfound hvolumes (fun v d hd => ?_) (hadd.exact hs.coherent h.exact)
    exact (hadd.mem_values_of_listed hd).imp_right fun hv => ⟨uuid, _, hn, hv⟩

/-- What a managed step keeps: lists and back-references stay at home. -/
theorem housed_after (hs : Reachable s) (h : s.ledger.Housed c) {step : Step} (hmanaged : step.Managed c)
    (hstep : step.Enabled s.ledger) : (step.after s).ledger.Housed c := by
  by_cases hplaces : step.Places
  · cases step with
    | addReportedBlock k uuid id b =>
      obtain rfl : k = c := hmanaged
      exact housed_addReportedBlock hs h hstep uuid id
    | addBlock g n id b => exact hmanaged.elim
    | replaceBlock g n old new => exact hmanaged.elim
    | _ => exact hplaces.elim
  · by_cases hremove : ∃ uuid n, step = removeNode c uuid ∧ (s.ledger.coordinator c).nodes.find? uuid = some n
    · obtain ⟨uuid, n, rfl, hn⟩ := hremove
      exact housed_removeNode hs h hn
    · exact housed_of_not_places hs h hmanaged hstep hplaces fun uuid n hr hn => hremove ⟨uuid, n, hr, hn⟩

end Step
end DatanodeLedger
