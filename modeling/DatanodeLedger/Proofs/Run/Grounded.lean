import DatanodeLedger.Proofs.Run.Orderly

/-! On every service that steps lead to, the transfers that are queued and the cursors that are open refer to volumes
that have been made. -/
namespace DatanodeLedger

namespace Ledger
variable {l l' : Ledger}

structure Grounded (l : Ledger) : Prop where
  targets : ∀ n, ∀ t ∈ (l.node n).transfers.items, ∀ v ∈ t.targets, v.index < l.storages.size
  cursors : ∀ k, some k ∈ l.cursors.toList → k.storage.index < l.storages.size

namespace Grounded

/-- Whatever is live has been made. -/
theorem lt_size_of_isLive (h : l.Grounded) (ho : l.Orderly) {v : StorageRef} (hv : l.isLive v = true) :
    v.index < l.storages.size := by
  rcases isLive_iff.1 hv with ⟨n, -, hkeeps⟩ | ⟨k, hk, hkv⟩
  · rcases keeps_iff.1 hkeeps with hmem | ⟨t, ht, hvt⟩
    · exact ho.made n v hmem
    · exact h.targets n t ht v hvt
  · obtain ⟨cursor, rfl, hcursor⟩ := (Option.any_eq_true _ _).1 hkv
    rw [← eq_of_beq hcursor]
    exact h.cursors cursor hk

/-- As long as no volume is unmade, only transfers and cursors that are new are in question. -/
theorem of_new (h : l.Grounded) (size : l.storages.size ≤ l'.storages.size)
    (targets : ∀ n, ∀ t ∈ (l'.node n).transfers.items,
      t ∈ (l.node n).transfers.items ∨ ∀ v ∈ t.targets, v.index < l.storages.size)
    (cursors : ∀ k, some k ∈ l'.cursors.toList → some k ∈ l.cursors.toList ∨ k.storage.index < l.storages.size) :
    l'.Grounded where
  targets n t ht v hv := by
    refine Nat.lt_of_lt_of_le ?_ size
    rcases targets n t ht with hold | hnew
    · exact h.targets n t hold v hv
    · exact hnew v hv
  cursors k hk := Nat.lt_of_lt_of_le ((cursors k hk).elim (h.cursors k) fun hnew => hnew) size

theorem of_transfers (h : l.Grounded) (size : l.storages.size ≤ l'.storages.size)
    (transfers : ∀ n, (l'.node n).transfers = (l.node n).transfers) (cursors : l'.cursors = l.cursors) : l'.Grounded :=
  h.of_new size (fun n _ ht => .inl (transfers n ▸ ht)) fun _ hk => .inl (cursors ▸ hk)

end Grounded

/-- Whatever is referred to has been made afterwards if it had been before. -/
def KeepsGround (l l' : Ledger) : Prop := l.Orderly ∧ l.Grounded → l'.Orderly ∧ l'.Grounded

instance : IsPreorder Ledger KeepsGround where
  refl _ h := h
  trans _ _ _ h h' hl := h' (h hl)

instance : Request.WorkFrame KeepsGround where
  node hf h := ⟨h.1.modifyNode hf.storages,
    h.2.of_transfers (Nat.le_refl _) (node_modifyNode_congr Node.transfers hf.transfers) rfl⟩
  storage hf h := ⟨h.1.modifyStorage hf.id,
    h.2.of_transfers (Nat.le_of_eq Array.size_modify.symm) (fun _ => rfl) rfl⟩
  hands nodes storages _ cursors _ held h := by
    refine ⟨h.1.of_hands nodes storages fun n hn => (held n hn).imp_right And.left, ?_⟩
    exact h.2.of_transfers (Nat.le_of_eq (congrArg Array.size storages.symm))
      (fun n => by unfold node; rw [nodes]) cursors
  block _ _ _ h := ⟨h.1.of_eq rfl rfl fun _ hn => hn, h.2.of_transfers (Nat.le_refl _) (fun _ => rfl) rfl⟩
  newNode l r location h := by
    refine ⟨h.1.addNode rfl, h.2.of_new (Nat.le_refl _) (fun n t ht => .inl ?_) fun _ hk => .inl hk⟩
    rcases node_addNode_cases l { Node.ofRegistration r with location } n with hsame | ⟨-, hself⟩
    · exact hsame ▸ ht
    · rw [hself] at ht
      exact (List.not_mem_nil ht).elim
  announce {l n a} ha h := by
    refine ⟨h.1.announce ha, h.2.of_transfers (size_announce ▸ Nat.le_succ _) (fun m => ?_) rfl⟩
    exact node_modifyNode_congr (l := (l.addStorage (.announced (l.node n).uuid a)).2) Node.transfers rfl m
  cursors hk h := ⟨h.1.of_eq rfl rfl fun _ hn => hn, h.2.of_new (Nat.le_refl _) (fun _ _ ht => .inl ht) fun k hm =>
    (hk k hm).imp_right (h.2.lt_size_of_isLive h.1)⟩
  work n l f hf h := by
    refine ⟨h.1.modifyNode hf.storages, h.2.of_new (Nat.le_refl _) (fun m t ht => ?_) fun _ hk => .inl hk⟩
    rcases node_modifyNode_cases l n m f with hsame | ⟨rfl, hchanged⟩
    · exact .inl (hsame ▸ ht)
    · rw [hchanged] at ht
      exact (hf.transfers t ht).imp_right fun hnew v hv => h.2.lt_size_of_isLive h.1 (hnew.2 v hv)

private theorem keepsGround_rewrite (l : Ledger) (v : StorageRef) (b : BlockRef) (blocks : Slab UInt64 BlockRef)
    (holders : List StorageRef) : KeepsGround l (l.rewrite v b blocks holders) :=
  fun h => ⟨h.1.rewrite v b blocks holders,
    h.2.of_transfers (Nat.le_of_eq Array.size_modify.symm) (fun _ => rfl) rfl⟩

end Ledger

theorem Step.keepsGround_after {s : Service} (step : Step) (h : step.Enabled s.ledger) :
    s.ledger.KeepsGround (step.after s).ledger :=
  step.respects_after (Request.rel_detach Ledger.keepsGround_rewrite)
    (fun _ => Request.rel_attach Ledger.keepsGround_rewrite) (fun n _ => Request.WorkFrame.work n) h

theorem Reachable.grounded {s : Service} (h : Reachable s) : s.ledger.Grounded := by
  have hstart : ∀ clock : Int, Ledger.Grounded { clock } := fun clock =>
    ⟨fun _ _ ht => (List.not_mem_nil ht).elim, fun _ hk => (List.not_mem_nil hk).elim⟩
  have hboth : s.ledger.Orderly ∧ s.ledger.Grounded :=
    h.induct (P := fun l => l.Orderly ∧ l.Grounded) (fun clock => ⟨Ledger.orderly_start clock, hstart clock⟩)
      fun _ step hl hstep => step.keepsGround_after hstep hl
  exact hboth.2

end DatanodeLedger
