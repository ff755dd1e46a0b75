import DatanodeLedger.Text.Blank
import DatanodeLedger.Text.Digits
import Mathlib.Data.List.TakeWhile

/-! What the readers of numbers accept, told without them: numerals in decimal digits with the number that they
write, and texts without the blanks at their ends. -/
namespace DatanodeLedger.Text

/-- At least one decimal digit, and nothing else. -/
structure Numeral (cs : List Char) (n : Nat) : Prop where
  nonempty : cs ≠ []
  digits : ∀ c ∈ cs, c.isDigit = true
  value : Nat.ofDigitChars 10 cs 0 = n

/-- A numeral that may have a plus sign in front. -/
def Signed (cs : List Char) (n : Nat) : Prop :=
  ∃ sign digits, cs = sign ++ digits ∧ (sign = [] ∨ sign = ['+']) ∧ Numeral digits n

/-- The characters with the Unicode property White_Space, by their code points. -/
def White (c : Char) : Prop :=
  c.toNat ∈ [0x9, 0xa, 0xb, 0xc, 0xd, 0x20, 0x85, 0xa0, 0x1680, 0x2000, 0x2001, 0x2002, 0x2003, 0x2004, 0x2005, 0x2006,
    0x2007, 0x2008, 0x2009, 0x200a, 0x2028, 0x2029, 0x202f, 0x205f, 0x3000]

instance : DecidablePred White := fun _ => inferInstanceAs (Decidable (_ ∈ _))

/-- A text with white space before and after it, and none at its own ends. -/
def Trims (cs t : List Char) : Prop :=
  ∃ before after, cs = before ++ t ++ after ∧ (∀ c ∈ before, White c) ∧ (∀ c ∈ after, White c) ∧
    (∀ c ∈ t.head?, ¬ White c) ∧ ∀ c ∈ t.getLast?, ¬ White c

section numeral
variable {cs : List Char} {n : Nat}

theorem digit?_eq (c : Char) : digit? c = if c.isDigit then some (c.toNat - '0'.toNat) else none := by
  have hdigit : ('0' ≤ c ∧ c ≤ '9') ↔ c.isDigit = true := by
    rw [Char.isDigit, Bool.and_eq_true, decide_eq_true_iff, decide_eq_true_iff]
    rfl
  rw [digit?]
  exact if_congr hdigit rfl rfl

theorem mapM_digit? (cs : List Char) :
    cs.mapM digit? = if cs.all Char.isDigit then some (cs.map fun c => c.toNat - '0'.toNat) else none := by
  induction cs with
  | nil => rfl
  | cons c cs ih =>
    rw [List.mapM_cons, ih, digit?_eq, List.all_cons]
    cases c.isDigit with
    | false => rfl
    | true =>
      cases cs.all Char.isDigit with
      | false => rfl
      | true => rfl

theorem natural?_eq_some_iff : natural? cs = some n ↔ Numeral cs n := by
  have hvalue : ofDigits (cs.map fun c => c.toNat - '0'.toNat) = Nat.ofDigitChars 10 cs 0 := by
    rw [ofDigits, List.foldl_map, Nat.ofDigitChars_eq_foldl]
  rw [natural?, mapM_digit?]
  constructor
  · intro h
    split at h
    · cases h
    · rename_i hne
      split at h
      · rename_i hdigits
        refine ⟨fun hnil => hne (hnil ▸ rfl), List.all_eq_true.1 hdigits, ?_⟩
        rw [← hvalue]
        exact Option.some.inj h
      · cases h
  · intro h
    have hne : ¬ cs.isEmpty = true := fun hnil => h.nonempty (List.isEmpty_iff.1 hnil)
    rw [if_neg hne, if_pos (List.all_eq_true.2 h.digits), Option.map_some, hvalue, h.value]

theorem Numeral.not_plus (h : Numeral cs n) (rest : List Char) : cs ≠ '+' :: rest := by
  rintro rfl
  have hplus : '+'.isDigit = true := h.digits '+' List.mem_cons_self
  exact absurd hplus (by decide)

theorem signed_cons (rest : List Char) : Signed ('+' :: rest) n ↔ Numeral rest n := by
  constructor
  · rintro ⟨sign, digits, hcs, rfl | rfl, h⟩
    · exact absurd hcs.symm (h.not_plus rest)
    · cases hcs
      exact h
  · exact fun h => ⟨['+'], rest, rfl, .inr rfl, h⟩

theorem signed_of_ne (hcs : ∀ rest, cs ≠ '+' :: rest) : Signed cs n ↔ Numeral cs n := by
  constructor
  · rintro ⟨sign, digits, rfl, rfl | rfl, h⟩
    · exact h
    · exact absurd rfl (hcs digits)
  · exact fun h => ⟨[], cs, rfl, .inl rfl, h⟩

/-- A number as a word, if it fits one. -/
def fit? (n : Nat) : Option UInt64 := if n < UInt64.size then some (UInt64.ofNat n) else none

theorem fit?_eq_some_iff {w : UInt64} : fit? n = some w ↔ n = w.toNat := by
  unfold fit?
  constructor
  · intro h
    split at h
    · rename_i hlt
      rw [← Option.some.inj h]
      exact (UInt64.toNat_ofNat_of_lt' hlt).symm
    · cases h
  · rintro rfl
    rw [if_pos w.toNat_lt_size, UInt64.ofNat_toNat]

/-- A signed numeral is what is behind its sign, and so is what is read of it. -/
theorem exists_digits (cs : List Char) :
    ∃ digits, (∀ n, Signed cs n ↔ Numeral digits n) ∧ word? cs = (natural? digits).bind fit? := by
  by_cases hcs : ∃ rest, cs = '+' :: rest
  · obtain ⟨rest, rfl⟩ := hcs
    refine ⟨rest, fun _ => signed_cons rest, ?_⟩
    rw [word?]
    cases natural? rest <;> rfl
  · have hplain : ∀ rest, cs ≠ '+' :: rest := fun rest heq => hcs ⟨rest, heq⟩
    refine ⟨cs, fun _ => signed_of_ne hplain, ?_⟩
    unfold word?
    split
    · exact absurd rfl (hplain _)
    · dsimp only
      cases natural? cs <;> rfl

theorem Signed.unique {m : Nat} (h : Signed cs n) (h' : Signed cs m) : n = m := by
  obtain ⟨digits, hsigned, -⟩ := exists_digits cs
  exact ((hsigned n).1 h).value.symm.trans ((hsigned m).1 h').value

/-- A signed numeral ends in a digit. -/
theorem Signed.exists_last (h : Signed cs n) : ∃ front c, cs = front ++ [c] ∧ c.isDigit = true := by
  obtain ⟨sign, digits, rfl, -, hdigits⟩ := h
  refine ⟨sign ++ digits.dropLast, digits.getLast hdigits.nonempty, ?_, hdigits.digits _ (List.getLast_mem _)⟩
  rw [List.append_assoc, List.dropLast_concat_getLast]

theorem Signed.ne_nil (h : Signed cs n) : cs ≠ [] := by
  obtain ⟨front, c, rfl, -⟩ := h.exists_last
  exact List.append_ne_nil_of_right_ne_nil front (List.cons_ne_nil c [])

/-- What is read as a word is a numeral that fits a word. -/
theorem word?_eq_some_iff {w : UInt64} : word? cs = some w ↔ Signed cs w.toNat := by
  obtain ⟨digits, hsigned, hword⟩ := exists_digits cs
  rw [hword, hsigned, Option.bind_eq_some_iff]
  constructor
  · rintro ⟨n, hn, hfit⟩
    rw [← fit?_eq_some_iff.1 hfit]
    exact natural?_eq_some_iff.1 hn
  · exact fun h => ⟨w.toNat, natural?_eq_some_iff.2 h, fit?_eq_some_iff.2 rfl⟩

theorem word?_eq_none_iff : word? cs = none ↔ ∀ n, Signed cs n → UInt64.size ≤ n := by
  constructor
  · intro h n hn
    by_contra hlt
    have hword : word? cs = some (UInt64.ofNat n) := by
      rw [word?_eq_some_iff, UInt64.toNat_ofNat_of_lt' (Nat.lt_of_not_le hlt)]
      exact hn
    rw [h] at hword
    cases hword
  · intro h
    cases hw : word? cs with
    | none => rfl
    | some w => exact absurd w.toNat_lt_size (Nat.not_lt_of_le (h _ (word?_eq_some_iff.1 hw)))

/-- What a number is written as is a numeral of it. -/
theorem numeral_toString (n : Nat) : Numeral (toString n).toList n := by
  rw [Nat.toString_eq_ofList_toDigits, String.toList_ofList]
  exact ⟨Nat.toDigits_ne_nil, fun c hc => Nat.isDigit_of_mem_toDigits (by decide) (by decide) hc,
    Nat.ofDigitChars_ten_toDigits⟩

end numeral

section trim
variable {cs t : List Char}

/-- What is trimmed off is white space, and nothing else is. -/
theorem isBlank_iff {c : Char} : isBlank c = true ↔ White c := by
  simp only [isBlank, blankRanges, White, List.any_cons, List.any_nil, Bool.or_false, Bool.or_eq_true, Bool.and_eq_true,
    decide_eq_true_eq, List.mem_cons, List.not_mem_nil, or_false]
  omega

theorem isBlank_eq_false_iff {c : Char} : isBlank c = false ↔ ¬ White c := by
  rw [← isBlank_iff, Bool.not_eq_true]

theorem trims_trim (cs : List Char) : Trims cs (trim cs) := by
  let rest := cs.dropWhile isBlank
  have hrest : rest = trim cs ++ (rest.reverse.takeWhile isBlank).reverse := by
    rw [trim, ← List.reverse_append, List.takeWhile_append_dropWhile, List.reverse_reverse]
  refine ⟨cs.takeWhile isBlank, (rest.reverse.takeWhile isBlank).reverse, ?_, ?_, ?_, ?_, ?_⟩
  · rw [List.append_assoc, ← hrest, List.takeWhile_append_dropWhile]
  · exact fun c hc => isBlank_iff.1 (List.mem_takeWhile_imp hc)
  · exact fun c hc => isBlank_iff.1 (List.mem_takeWhile_imp (List.mem_reverse.1 hc))
  · intro c hc
    have hhead : rest.head? = some c := by
      rw [hrest, List.head?_append, Option.mem_def.1 hc]
      rfl
    have hnot := List.head?_dropWhile_not isBlank cs
    rw [hhead] at hnot
    exact isBlank_eq_false_iff.1 (by simpa using hnot)
  · intro c hc
    rw [trim, List.getLast?_reverse] at hc
    have hnot := List.head?_dropWhile_not isBlank rest.reverse
    rw [Option.mem_def.1 hc] at hnot
    exact isBlank_eq_false_iff.1 (by simpa using hnot)

private theorem dropWhile_of_head (h : ∀ c ∈ t.head?, isBlank c = false) : t.dropWhile isBlank = t := by
  cases t with
  | nil => rfl
  | cons c t => exact List.dropWhile_cons_of_neg (Bool.eq_false_iff.1 (h c rfl))

private theorem dropWhile_append (h : ∀ c ∈ cs, isBlank c = true) (t : List Char) :
    (cs ++ t).dropWhile isBlank = t.dropWhile isBlank :=
  List.dropWhile_append_of_pos h

/-- There is only one way to trim a text. -/
theorem Trims.trim_eq (h : Trims cs t) : trim cs = t := by
  obtain ⟨before, after, rfl, hbefore, hafter, hhead, hlast⟩ := h
  simp only [← isBlank_iff, Bool.not_eq_true] at hbefore hafter hhead hlast
  have hfront : (before ++ t ++ after).dropWhile isBlank = (t ++ after).dropWhile isBlank := by
    rw [List.append_assoc, dropWhile_append hbefore]
  have hrear : ∀ c ∈ after.reverse, isBlank c = true := fun c hc => hafter c (List.mem_reverse.1 hc)
  rw [trim, hfront]
  cases t with
  | nil =>
    have hnone : after.dropWhile isBlank = [] := List.dropWhile_eq_nil_iff.2 hafter
    rw [List.nil_append, hnone]
    rfl
  | cons c t =>
    have hstop : (c :: t ++ after).dropWhile isBlank = c :: t ++ after :=
      List.dropWhile_cons_of_neg (Bool.eq_false_iff.1 (hhead c rfl))
    have hend : ∀ d ∈ (c :: t).reverse.head?, isBlank d = false := by
      rw [List.head?_reverse]
      exact hlast
    rw [hstop, List.reverse_append, dropWhile_append hrear, dropWhile_of_head hend, List.reverse_reverse]

theorem not_white_of_isDigit {c : Char} (h : c.isDigit = true) : ¬ White c := by
  rw [Char.isDigit, Bool.and_eq_true, decide_eq_true_iff, decide_eq_true_iff, ge_iff_le, UInt32.le_iff_toNat_le,
    UInt32.le_iff_toNat_le] at h
  have hrange : 48 ≤ c.toNat ∧ c.toNat ≤ 57 := h
  simp only [White, List.mem_cons, List.not_mem_nil, or_false]
  omega

theorem Signed.head_not_white {n : Nat} (h : Signed cs n) : ∀ c ∈ cs.head?, ¬ White c := by
  obtain ⟨sign, digits, rfl, rfl | rfl, hdigits⟩ := h
  · exact fun c hc => not_white_of_isDigit (hdigits.digits c (List.mem_of_mem_head? hc))
  · intro c hc
    cases hc
    decide

end trim
end DatanodeLedger.Text
