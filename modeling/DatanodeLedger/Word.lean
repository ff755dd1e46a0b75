import DatanodeLedger.Error

/-! Arithmetic on machine words whose overflow is a fault. -/
namespace DatanodeLedger.Word

def add64 (a b : UInt64) : Except Fault UInt64 :=
  if a.toNat + b.toNat < UInt64.size then .ok (a + b) else .error (.overflow .addition)

def mul64 (a b : UInt64) : Except Fault UInt64 :=
  if a.toNat * b.toNat < UInt64.size then .ok (a * b) else .error (.overflow .multiplication)

def add32 (a b : UInt32) : Except Fault UInt32 :=
  if a.toNat + b.toNat < UInt32.size then .ok (a + b) else .error (.overflow .addition)

/-- Addition that stops at the greatest word. -/
def saturatingAdd (a b : UInt64) : UInt64 :=
  if a.toNat + b.toNat < UInt64.size then a + b else UInt64.ofNat (UInt64.size - 1)

/-- Subtraction that stops at zero. -/
def saturatingSub (a b : UInt64) : UInt64 := if b ≤ a then a - b else 0

theorem add64_eq_ok_iff {a b c : UInt64} : add64 a b = .ok c ↔ c.toNat = a.toNat + b.toNat := by
  unfold add64
  have := c.toNat_lt
  split
  · simp only [Except.ok.injEq, ← UInt64.toNat_inj, UInt64.toNat_add]
    simp only [UInt64.size] at *
    omega
  · simp only [UInt64.size, reduceCtorEq, false_iff] at *
    omega

theorem mul64_eq_ok_iff {a b c : UInt64} : mul64 a b = .ok c ↔ c.toNat = a.toNat * b.toNat := by
  unfold mul64
  have := c.toNat_lt
  split
  · simp only [Except.ok.injEq, ← UInt64.toNat_inj, UInt64.toNat_mul]
    simp only [UInt64.size] at *
    rw [Nat.mod_eq_of_lt (by assumption)]
    exact eq_comm
  · simp only [UInt64.size, reduceCtorEq, false_iff] at *
    omega

theorem toNat_saturatingAdd (a b : UInt64) :
    (saturatingAdd a b).toNat = min (a.toNat + b.toNat) (UInt64.size - 1) := by
  unfold saturatingAdd
  split
  · rw [UInt64.toNat_add]
    simp only [UInt64.size] at *
    omega
  · simp only [UInt64.size, Nat.add_one_sub_one, UInt64.reduceOfNat, UInt64.reduceToNat] at *
    omega

theorem toNat_saturatingSub (a b : UInt64) : (saturatingSub a b).toNat = a.toNat - b.toNat := by
  unfold saturatingSub
  split <;> rename_i h
  · exact UInt64.toNat_sub_of_le _ _ h
  · rw [UInt64.not_le, UInt64.lt_iff_toNat_lt] at h
    exact (Nat.sub_eq_zero_of_le (Nat.le_of_lt h)).symm

end DatanodeLedger.Word
