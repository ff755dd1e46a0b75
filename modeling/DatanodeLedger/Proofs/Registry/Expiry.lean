import DatanodeLedger.Proofs.Registry.Standing

/-! The expiry interval is worked out in words, and only when a check comes to a live node. Limits that are valid can
have one that is too long for a word. -/
namespace DatanodeLedger

namespace Limits
variable {limits : Limits}

/-- The expiry interval as a number. -/
def span (limits : Limits) : Nat := 2 * limits.recheckInterval.toNat + 10 * limits.heartbeatInterval.toNat

/-- The operation that overflows when the expiry interval is too long for a word. -/
def overflowing (limits : Limits) : Arithmetic :=
  if 2 * limits.recheckInterval.toNat < UInt64.size ∧ 10 * limits.heartbeatInterval.toNat < UInt64.size then .addition
  else .multiplication

theorem expiry_of_span_lt (h : limits.span < UInt64.size) : limits.expiry = .ok (UInt64.ofNat limits.span) := by
  obtain ⟨expiry, he, hnat⟩ := expiry_of_lt h
  have hword : expiry = UInt64.ofNat limits.span := UInt64.toNat_inj.1 (hnat.trans (UInt64.toNat_ofNat_of_lt' h).symm)
  rw [he, hword]

theorem expiry_of_le_span (h : UInt64.size ≤ limits.span) : limits.expiry = .error (.overflow limits.overflowing) := by
  have htwo : (2 : UInt64).toNat = 2 := rfl
  have hten : (10 : UInt64).toNat = 10 := rfl
  unfold expiry overflowing
  by_cases hrechecks : 2 * limits.recheckInterval.toNat < UInt64.size
  · have hmul : Word.mul64 2 limits.recheckInterval = .ok (2 * limits.recheckInterval) := if_pos hrechecks
    rw [hmul]
    by_cases hheartbeats : 10 * limits.heartbeatInterval.toNat < UInt64.size
    · have hmul' : Word.mul64 10 limits.heartbeatInterval = .ok (10 * limits.heartbeatInterval) := if_pos hheartbeats
      have hsum : ¬ (2 * limits.recheckInterval).toNat + (10 * limits.heartbeatInterval).toNat < UInt64.size := by
        rw [UInt64.toNat_mul, UInt64.toNat_mul, htwo, hten, Nat.mod_eq_of_lt hrechecks, Nat.mod_eq_of_lt hheartbeats]
        exact Nat.not_lt.2 h
      rw [hmul', if_pos ⟨hrechecks, hheartbeats⟩]
      exact if_neg hsum
    · have hmul' : Word.mul64 10 limits.heartbeatInterval = .error (.overflow .multiplication) := if_neg hheartbeats
      rw [hmul', if_neg fun hboth => hheartbeats hboth.2]
      rfl
  · have hmul : Word.mul64 2 limits.recheckInterval = .error (.overflow .multiplication) := if_neg hrechecks
    rw [hmul, if_neg fun hboth => hrechecks hboth.1]
    rfl

theorem toNat_of_expiry {expiry : UInt64} (h : limits.expiry = .ok expiry) : expiry.toNat = limits.span := by
  by_cases hspan : limits.span < UInt64.size
  · rw [expiry_of_span_lt hspan] at h
    cases h
    exact UInt64.toNat_ofNat_of_lt' hspan
  · rw [expiry_of_le_span (Nat.not_lt.1 hspan)] at h
    cases h

end Limits

namespace Service

/-- Whoever registers under a uuid that is free is in the registry then, and alive. -/
theorem alive_of_register {s : Service} {c : CoordinatorRef} {r : Registration} (hs : Reachable s)
    (hc : c.index < s.ledger.coordinators.size) (hnone : (s.ledger.coordinator c).nodes.find? r.uuid = none)
    (storages : List Announcement) :
    (((Step.register c r storages).after s).ledger.coordinator c).nodes.find? r.uuid = some ⟨s.ledger.nodes.size⟩ ∧
      (((Step.register c r storages).after s).ledger.node ⟨s.ledger.nodes.size⟩).alive = true := by
  constructor
  · have hafter := Step.ledger_register_of_none hnone storages
    rw [hafter, (Ledger.keepsRegistries_settle _ c _ storages).registry]
    exact Ledger.find?_enroll_self hc r
  · have hturn : ((Step.register c r storages).turn s.ledger ⟨s.ledger.nodes.size⟩).alive = true := by
      simp only [Step.turn, hnone, if_true]
    rw [← hturn]
    exact congrArg Node.Standing.alive ((Step.register c r storages).standing_after hs trivial _)

/-- A node registers with a coordinator that has some limits. -/
def enlisted (limits : Limits) : Service :=
  ({} : Service).run [.makeCoordinator limits, .register ⟨0⟩ (.ofAddress "a" "10.0.0.1" 9866) []]

theorem reachable_enlisted (limits : Limits) : Reachable (enlisted limits) :=
  (Reachable.start 0).run ⟨trivial, trivial, trivial⟩

theorem limits_enlisted (limits : Limits) : ((enlisted limits).ledger.coordinator ⟨0⟩).limits = limits := by
  have hkept := (Step.register ⟨0⟩ (.ofAddress "a" "10.0.0.1" 9866) []).keepsTerms_after
    (s := (Step.makeCoordinator limits).after {}) trivial
  exact hkept.limits ⟨0⟩ Nat.zero_lt_one

theorem alive_enlisted (limits : Limits) : (((enlisted limits).ledger.coordinator ⟨0⟩).nodes.values.any fun n =>
    ((enlisted limits).ledger.node n).alive) = true := by
  have hmade : Reachable ((Step.makeCoordinator limits).after {}) := (Reachable.start 0).step trivial
  obtain ⟨hfind, halive⟩ := alive_of_register (c := ⟨0⟩) (r := .ofAddress "a" "10.0.0.1" 9866) hmade Nat.zero_lt_one rfl []
  exact List.any_eq_true.2 ⟨_, Table.mem_values_of_find? hfind, halive⟩

end Service

/-- Whatever the limits of a coordinator are, none of its checks ends in a fault in any service that is reached,
exactly if twice the recheck interval and ten heartbeat intervals are a word.

As long as they are, that word is the expiry interval, and a check does what it is for. Otherwise the expiry interval
overflows; a check that comes to a live node fails with that overflow, one that does not names nobody, and neither
changes anything. -/
theorem checks_complete_iff (limits : Limits) :
    ((∀ s c, Reachable s → (s.ledger.coordinator c).limits = limits → ∀ now, ∃ dead,
        ((Request.checkHeartbeats c now).exec s).1 = .ok dead) ↔ limits.span < UInt64.size) ∧
    ∀ s c, Reachable s → (s.ledger.coordinator c).limits = limits → ∀ now,
      (limits.span < UInt64.size → limits.expiry = .ok (UInt64.ofNat limits.span) ∧ ∃ dead checked,
        (Request.checkHeartbeats c now).exec s = (.ok dead, checked) ∧
          s.ledger.Checked c now dead checked.ledger) ∧
      (UInt64.size ≤ limits.span → limits.expiry = .error (.overflow limits.overflowing) ∧
        (Request.checkHeartbeats c now).exec s =
          (if (s.ledger.coordinator c).nodes.values.any fun n => (s.ledger.node n).alive
            then .error (.overflow limits.overflowing) else .ok [], s)) := by
  have hshort : limits.span < UInt64.size → ∀ s c, Reachable s → (s.ledger.coordinator c).limits = limits →
      ∀ now, ∃ dead checked, (Request.checkHeartbeats c now).exec s = (.ok dead, checked) ∧
        s.ledger.Checked c now dead checked.ledger := by
    rintro hspan s c hs rfl now
    exact Service.exec_check hs hspan now
  have hlong : UInt64.size ≤ limits.span → ∀ s c, (s.ledger.coordinator c).limits = limits → ∀ now,
      (Request.checkHeartbeats c now).exec s =
        (if (s.ledger.coordinator c).nodes.values.any fun n => (s.ledger.node n).alive
          then .error (.overflow limits.overflowing) else .ok [], s) := by
    rintro hspan s c rfl now
    exact Request.exec_checkHeartbeats_of_error (Limits.expiry_of_le_span hspan) now
  refine ⟨⟨fun hall => ?_, fun hspan s c hs hc now => ?_⟩, fun s c hs hc now => ⟨fun hspan => ?_, fun hspan => ?_⟩⟩
  · by_contra hspan
    have hfault := hlong (Nat.not_lt.1 hspan) (Service.enlisted limits) ⟨0⟩ (Service.limits_enlisted limits) 0
    obtain ⟨dead, hdead⟩ := hall (Service.enlisted limits) ⟨0⟩ (Service.reachable_enlisted limits)
      (Service.limits_enlisted limits) 0
    rw [hfault, Service.alive_enlisted limits] at hdead
    cases hdead
  · obtain ⟨dead, checked, he, -⟩ := hshort hspan s c hs hc now
    exact ⟨dead, congrArg Prod.fst he⟩
  · exact ⟨Limits.expiry_of_span_lt hspan, hshort hspan s c hs hc now⟩
  · exact ⟨Limits.expiry_of_le_span hspan, hlong hspan s c hc now⟩

/-- Limits that are valid have the check of a coordinator with one live node overflow. -/
theorem valid_limits_overflow :
    let limits : Limits := { recheckInterval := 9223372036854775807 }
    limits.validate = .ok () ∧ Reachable (Service.enlisted limits) ∧
      ((Service.enlisted limits).ledger.coordinator ⟨0⟩).limits = limits ∧
      limits.expiry = .error (.overflow .addition) ∧
      (Request.checkHeartbeats ⟨0⟩ 1).exec (Service.enlisted limits) =
        (.error (.overflow .addition), Service.enlisted limits) := by
  intro limits
  have hvalid : limits.validate = .ok () := by decide
  have hspan : UInt64.size ≤ limits.span := by decide
  have hexpiry : limits.expiry = .error (.overflow .addition) := Limits.expiry_of_le_span hspan
  refine ⟨hvalid, Service.reachable_enlisted limits, Service.limits_enlisted limits, hexpiry, ?_⟩
  have hcheck := Request.exec_checkHeartbeats_of_error (s := Service.enlisted limits) (c := ⟨0⟩) hexpiry 1
  rwa [Service.alive_enlisted limits, if_pos rfl] at hcheck

end DatanodeLedger
