import DatanodeLedger.Duration
import DatanodeLedger.Proofs.Text.Numeral
import Mathlib.Data.List.Basic

/-! The grammar of durations, and what reading makes of every text: the product of number and unit, a complaint, or a
fault where the product does not fit a word. -/
namespace DatanodeLedger.Duration
open Text (Numeral Signed Trims White)

/-- The units, as they are written, with what they are worth in milliseconds. -/
def worth : List (String × Nat) :=
  [("ms", 1), ("s", 1000), ("m", 60000), ("h", 3600000), ("d", 86400000)]

/-- A number, and right behind it a unit that is worth `u` milliseconds. -/
def Written (cs : List Char) (n u : Nat) : Prop :=
  ∃ numeral unit, cs = numeral ++ unit.toList ∧ Signed numeral n ∧ (unit, u) ∈ worth

/-- What is said of a text that is not read. -/
def complaint (cs : List Char) : String :=
  if cs.isEmpty then "empty duration"
  else if worth.any fun entry => entry.1.toList.isSuffixOf cs then "invalid duration: " ++ String.ofList cs
  else "unknown duration unit: " ++ String.ofList cs

section grammar
variable {cs numeral : List Char} {n u : Nat} {unit : Unit}

/-- The units that are tried are these, and count as much. -/
theorem worth_eq : worth = units.map fun unit => (String.ofList unit.suffix, unit.millis.toNat) := by
  decide

theorem mem_units (unit : Unit) : unit ∈ units := by
  cases unit <;> decide

theorem mem_worth (unit : Unit) : (String.ofList unit.suffix, unit.millis.toNat) ∈ worth := by
  rw [worth_eq]
  exact List.mem_map_of_mem (mem_units unit)

theorem exists_unit {name : String} (h : (name, u) ∈ worth) :
    ∃ unit : Unit, name.toList = unit.suffix ∧ unit.millis.toNat = u := by
  rw [worth_eq] at h
  obtain ⟨unit, -, heq⟩ := List.mem_map.1 h
  cases heq
  exact ⟨unit, String.toList_ofList, rfl⟩

theorem any_worth (cs : List Char) :
    (worth.any fun entry => entry.1.toList.isSuffixOf cs) = units.any (·.suffix.isSuffixOf cs) := by
  rw [worth_eq, List.any_map]
  simp only [Function.comp_def, String.toList_ofList]

theorem split_eq (h : split cs = some (numeral, unit)) : cs = numeral ++ unit.suffix := by
  obtain ⟨tried, -, hfit⟩ := List.exists_of_findSome?_eq_some h
  split at hfit
  · rename_i hsuffix
    obtain ⟨front, rfl⟩ := List.isSuffixOf_iff_suffix.1 hsuffix
    cases hfit
    rw [List.length_append, Nat.add_sub_cancel_right, List.take_left]
  · cases hfit

theorem split_eq_none_iff : split cs = none ↔ units.any (·.suffix.isSuffixOf cs) = false := by
  rw [split, List.findSome?_eq_none_iff, List.any_eq_false]
  simp only [ite_eq_right_iff, reduceCtorEq, imp_false]

/-- A digit in front of a unit is what tells seconds from milliseconds. -/
theorem split_digit {front : List Char} {c : Char} (hc : c.isDigit = true) (unit : Unit) :
    split (front ++ [c] ++ unit.suffix) = some (front ++ [c], unit) := by
  have hm : 'm' ≠ c := by
    rintro rfl
    exact absurd hc (by decide)
  cases unit <;>
    simp [split, units, Unit.suffix, List.isSuffixOf, List.take_length_add_append, hm]

/-- A duration is divided between its number and its unit, and nothing else is divided so. -/
theorem written_iff : Written cs n u ↔
    ∃ numeral unit, split cs = some (numeral, unit) ∧ Signed numeral n ∧ unit.millis.toNat = u := by
  constructor
  · rintro ⟨numeral, name, rfl, hnumeral, hworth⟩
    obtain ⟨unit, hname, hu⟩ := exists_unit hworth
    obtain ⟨front, c, rfl, hc⟩ := hnumeral.exists_last
    exact ⟨front ++ [c], unit, by rw [hname, split_digit hc], hnumeral, hu⟩
  · rintro ⟨numeral, unit, hsplit, hnumeral, rfl⟩
    exact ⟨numeral, _, by rw [String.toList_ofList, split_eq hsplit], hnumeral, mem_worth unit⟩

/-- A text is read in one way only. -/
theorem Written.unique {m v : Nat} (h : Written cs n u) (h' : Written cs m v) : n = m ∧ u = v := by
  obtain ⟨numeral, unit, hsplit, hnumeral, rfl⟩ := written_iff.1 h
  obtain ⟨numeral', unit', hsplit', hnumeral', rfl⟩ := written_iff.1 h'
  rw [hsplit] at hsplit'
  cases hsplit'
  exact ⟨hnumeral.unique hnumeral', rfl⟩

theorem Written.ne_nil (h : Written cs n u) : cs ≠ [] := by
  obtain ⟨numeral, name, rfl, hnumeral, -⟩ := h
  exact List.append_ne_nil_of_left_ne_nil hnumeral.ne_nil _

/-- White space around a duration is trimmed off, as there is none at its own ends. -/
theorem Written.trims (h : Written cs n u) {before after : List Char} (hbefore : ∀ c ∈ before, White c)
    (hafter : ∀ c ∈ after, White c) : Trims (before ++ cs ++ after) cs := by
  refine ⟨before, after, rfl, hbefore, hafter, ?_⟩
  obtain ⟨numeral, name, rfl, hnumeral, hworth⟩ := h
  constructor
  · intro c hc
    rw [List.head?_append_of_ne_nil _ hnumeral.ne_nil] at hc
    exact hnumeral.head_not_white c hc
  · obtain ⟨unit, hname, -⟩ := exists_unit hworth
    rw [hname]
    cases unit <;> simp [Unit.suffix, White]

end grammar

section parse
variable {text : String} {n u : Nat}

theorem parse_of_written (h : Written (Text.trim text.toList) n u) (hn : n < UInt64.size) :
    ∃ millis : UInt64, millis.toNat = u ∧ parse text = (Word.mul64 (UInt64.ofNat n) millis).map .ok := by
  obtain ⟨numeral, unit, hsplit, hnumeral, hu⟩ := written_iff.1 h
  have hword : Text.word? numeral = some (UInt64.ofNat n) := by
    rw [Text.word?_eq_some_iff, UInt64.toNat_ofNat_of_lt' hn]
    exact hnumeral
  have hne : ¬ (Text.trim text.toList).isEmpty = true := fun hnil => h.ne_nil (List.isEmpty_iff.1 hnil)
  refine ⟨unit.millis, hu, ?_⟩
  simp only [parse, if_neg hne, hsplit, hword]

theorem parse_of_fits (h : Written (Text.trim text.toList) n u) (hn : n < UInt64.size) (hfits : n * u < UInt64.size) :
    ∃ ms, parse text = .ok (.ok ms) ∧ ms.toNat = n * u := by
  obtain ⟨millis, rfl, hparse⟩ := parse_of_written h hn
  have hvalue : (UInt64.ofNat (n * millis.toNat)).toNat = n * millis.toNat := UInt64.toNat_ofNat_of_lt' hfits
  have hproduct : Word.mul64 (UInt64.ofNat n) millis = .ok (UInt64.ofNat (n * millis.toNat)) := by
    rw [Word.mul64_eq_ok_iff, hvalue, UInt64.toNat_ofNat_of_lt' hn]
  exact ⟨_, by rw [hparse, hproduct]; rfl, hvalue⟩

theorem parse_of_exceeds (h : Written (Text.trim text.toList) n u) (hn : n < UInt64.size)
    (hexceeds : UInt64.size ≤ n * u) : parse text = .error (.overflow .multiplication) := by
  obtain ⟨millis, rfl, hparse⟩ := parse_of_written h hn
  have hnot : ¬ (UInt64.ofNat n).toNat * millis.toNat < UInt64.size := by
    rw [UInt64.toNat_ofNat_of_lt' hn]
    exact Nat.not_lt_of_le hexceeds
  have hproduct : Word.mul64 (UInt64.ofNat n) millis = .error (.overflow .multiplication) := if_neg hnot
  rw [hparse, hproduct]
  rfl

/-- What is not a number and a unit is complained about, and so is a number that does not fit a word. -/
theorem parse_of_unread (h : ∀ n u, Written (Text.trim text.toList) n u → UInt64.size ≤ n) :
    parse text = .ok (.error (.invalidConfig (complaint (Text.trim text.toList)))) := by
  generalize hcs : Text.trim text.toList = cs at h
  rw [parse, complaint, any_worth]
  simp only [hcs]
  cases hempty : cs.isEmpty with
  | true => rfl
  | false =>
    cases hsplit : split cs with
    | none =>
      have hunit : units.any (·.suffix.isSuffixOf cs) = false := split_eq_none_iff.1 hsplit
      rw [hunit]
      rfl
    | some found =>
      obtain ⟨numeral, unit⟩ := found
      have hword : Text.word? numeral = none :=
        Text.word?_eq_none_iff.2 fun n hn => h n _ (written_iff.2 ⟨numeral, unit, hsplit, hn, rfl⟩)
      have hunit : units.any (·.suffix.isSuffixOf cs) = true := by
        rw [← Bool.not_eq_false, ← split_eq_none_iff, hsplit]
        exact Option.some_ne_none _
      rw [hunit]
      simp only [hword, Bool.false_eq_true, if_false, if_true]

/-- A text is a duration that fits, a duration that does not, or no duration at all. -/
theorem parse_cases (text : String) :
    (∃ n u ms, Written (Text.trim text.toList) n u ∧ n < UInt64.size ∧ parse text = .ok (.ok ms) ∧
      ms.toNat = n * u) ∨
    (∃ n u, Written (Text.trim text.toList) n u ∧ n < UInt64.size ∧ UInt64.size ≤ n * u ∧
      parse text = .error (.overflow .multiplication)) ∨
    ((∀ n u, Written (Text.trim text.toList) n u → UInt64.size ≤ n) ∧
      parse text = .ok (.error (.invalidConfig (complaint (Text.trim text.toList))))) := by
  by_cases hread : ∃ n u, Written (Text.trim text.toList) n u ∧ n < UInt64.size
  · obtain ⟨n, u, h, hn⟩ := hread
    by_cases hfits : n * u < UInt64.size
    · obtain ⟨ms, hparse, hms⟩ := parse_of_fits h hn hfits
      exact .inl ⟨n, u, ms, h, hn, hparse, hms⟩
    · have hexceeds := Nat.le_of_not_lt hfits
      exact .inr (.inl ⟨n, u, h, hn, hexceeds, parse_of_exceeds h hn hexceeds⟩)
  · have hunread : ∀ n u, Written (Text.trim text.toList) n u → UInt64.size ≤ n := fun n u h =>
      Nat.le_of_not_lt fun hn => hread ⟨n, u, h, hn⟩
    exact .inr (.inr ⟨hunread, parse_of_unread hunread⟩)

theorem pos_of_mem_worth {name : String} (h : (name, u) ∈ worth) : 0 < u := by
  have hall : ∀ entry ∈ worth, 0 < entry.2 := by decide
  exact hall (name, u) h

end parse

/-- Texts are read by the grammar and by nothing else: a duration whose product fits is read as that product, whatever
is read is one, and exactly what is no duration, or has a number beyond a word, is complained about. Every duration
that fits can be written in plain digits, with any white space around it. -/
theorem parse_grammar :
    (∀ text : String, ∃ t, Trims text.toList t ∧
      (∀ n u, Written t n u → n < UInt64.size → n * u < UInt64.size →
        ∃ ms, parse text = .ok (.ok ms) ∧ ms.toNat = n * u) ∧
      (∀ ms, parse text = .ok (.ok ms) → ∃ n u, Written t n u ∧ ms.toNat = n * u) ∧
      ((∀ n u, Written t n u → UInt64.size ≤ n) ↔
        parse text = .ok (.error (.invalidConfig (complaint t))))) ∧
    ∀ n unit u before after, (unit, u) ∈ worth → n * u < UInt64.size →
      (∀ c ∈ before, White c) → (∀ c ∈ after, White c) →
      ∃ ms, parse (String.ofList (before ++ ((toString n).toList ++ unit.toList) ++ after)) = .ok (.ok ms) ∧
        ms.toNat = n * u := by
  constructor
  · intro text
    refine ⟨Text.trim text.toList, Text.trims_trim _, fun n u => parse_of_fits, ?_, parse_of_unread, ?_⟩
    · intro ms hms
      obtain ⟨n, u, ms', h, -, hparse, hvalue⟩ | ⟨-, -, -, -, -, hparse⟩ | ⟨-, hparse⟩ := parse_cases text
      · rw [hparse] at hms
        cases hms
        exact ⟨n, u, h, hvalue⟩
      all_goals
        rw [hparse] at hms
        cases hms
    · intro hcomplaint
      obtain ⟨n, u, ms', -, -, hparse, -⟩ | ⟨-, -, -, -, -, hparse⟩ | ⟨hunread, -⟩ := parse_cases text
      · rw [hparse] at hcomplaint
        cases hcomplaint
      · rw [hparse] at hcomplaint
        cases hcomplaint
      · exact hunread
  · intro n unit u before after hunit hfits hbefore hafter
    have hwritten : Written ((toString n).toList ++ unit.toList) n u :=
      ⟨(toString n).toList, unit, rfl, ⟨[], _, rfl, .inl rfl, Text.numeral_toString n⟩, hunit⟩
    have htrim : Text.trim (String.ofList (before ++ ((toString n).toList ++ unit.toList) ++ after)).toList =
        (toString n).toList ++ unit.toList := by
      rw [String.toList_ofList, (hwritten.trims hbefore hafter).trim_eq]
    have hn : n < UInt64.size := Nat.lt_of_le_of_lt (Nat.le_mul_of_pos_right n (pos_of_mem_worth hunit)) hfits
    refine parse_of_fits ?_ hn hfits
    rw [htrim]
    exact hwritten

/-- A sign, zeros in front and white space of several scripts, a week in plain digits, and white space inside. -/
theorem parse_grammar_zeros :
    (∃ ms, parse "\u3000+0500s\u2003" = .ok (.ok ms) ∧ ms.toNat = 500000) ∧
    (∃ ms, parse " 7d" = .ok (.ok ms) ∧ ms.toNat = 604800000) ∧
    parse "5 m" = .ok (.error (.invalidConfig "invalid duration: 5 m")) := by
  refine ⟨?_, ?_, by decide +kernel⟩
  · obtain ⟨t, htrims, hfits, -⟩ := parse_grammar.1 "\u3000+0500s\u2003"
    have ht : t = "+0500s".toList := htrims.trim_eq.symm.trans (by decide)
    have hwritten : Written t 500 1000 := by
      refine ⟨"+0500".toList, "s", ht, ⟨['+'], "0500".toList, by decide, .inr rfl, ?_⟩, by decide⟩
      exact ⟨by decide, List.all_eq_true.1 (by decide), by decide⟩
    exact hfits 500 1000 hwritten (by decide) (by decide)
  · exact parse_grammar.2 7 "d" 86400000 [' '] [] (by decide) (by decide)
      (List.forall_mem_singleton.2 (by decide)) (List.forall_mem_nil _)

/-- Reading completes exactly where the product of a number that fits a word fits one as well, and what it completes
with is a duration or a complaint. -/
theorem parse_completes_iff (text : String) : ∃ t, Trims text.toList t ∧
    ((∃ answer, parse text = .ok answer) ↔
      ∀ n u, Written t n u → n < UInt64.size → n * u < UInt64.size) ∧
    (∀ answer, parse text = .ok answer →
      (∃ ms, answer = .ok ms) ∨ ∃ detail, answer = .error (.invalidConfig detail)) ∧
    ((¬ ∃ answer, parse text = .ok answer) → parse text = .error (.overflow .multiplication)) := by
  refine ⟨Text.trim text.toList, Text.trims_trim _, ?_⟩
  obtain ⟨n, u, ms, h, -, hparse, hms⟩ | ⟨n, u, h, hn, hexceeds, hparse⟩ | ⟨hunread, hparse⟩ := parse_cases text
  all_goals rw [hparse]
  · refine ⟨⟨fun _ m v h' _ => ?_, fun _ => ⟨_, rfl⟩⟩, ?_, fun hfault => absurd ⟨_, rfl⟩ hfault⟩
    · obtain ⟨rfl, rfl⟩ := h.unique h'
      exact hms ▸ ms.toNat_lt_size
    · exact fun answer hanswer => .inl ⟨ms, (Except.ok.inj hanswer).symm⟩
  · refine ⟨⟨fun ⟨_, hanswer⟩ => (nomatch hanswer), fun hfits => ?_⟩, nofun, fun _ => rfl⟩
    exact absurd (hfits n u h hn) (Nat.not_lt_of_le hexceeds)
  · refine ⟨⟨fun _ n u h hn => ?_, fun _ => ⟨_, rfl⟩⟩, ?_, fun hfault => absurd ⟨_, rfl⟩ hfault⟩
    · exact absurd hn (Nat.not_lt_of_le (hunread n u h))
    · exact fun answer hanswer => .inr ⟨_, (Except.ok.inj hanswer).symm⟩

/-- The greatest word of seconds is a duration, and reading it is cut short. -/
theorem parse_greatest_word :
    Written "18446744073709551615s".toList (UInt64.size - 1) 1000 ∧
    parse "18446744073709551615s" = .error (.overflow .multiplication) := by
  refine ⟨⟨"18446744073709551615".toList, "s", by decide, ⟨[], _, rfl, .inl rfl, ?_⟩, by decide⟩, by decide +kernel⟩
  exact ⟨by decide, List.all_eq_true.1 (by decide), by decide⟩

end DatanodeLedger.Duration
