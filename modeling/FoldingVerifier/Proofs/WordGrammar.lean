import FoldingVerifier.Proofs.Documents
import FoldingVerifier.Proofs.Words

/-! What is a word, written out. A string is one if between the blanks around it there stand
digits behind the mark `0x`, or decimal digits behind an optional sign, and if the number is one
of 256 bits. Of decimal digits no more are read than the limit for reading integers, however many
of them are zeros in front; hexadecimal ones have no limit. -/
namespace FoldingVerifier

namespace Text

/-- An optional sign and decimal digits, however many. -/
inductive SignedNumeral : List Char → ℤ → Prop where
  | unsigned {cs : List Char} {n : ℕ} (h : Numeral .ten cs n) : SignedNumeral cs n
  | plus {cs : List Char} {n : ℕ} (h : Numeral .ten cs n) : SignedNumeral ('+' :: cs) n
  | minus {cs : List Char} {n : ℕ} (h : Numeral .ten cs n) : SignedNumeral ('-' :: cs) (-n)

/-- How many characters are decimal digits. -/
def digitCount (cs : List Char) : ℕ := cs.countP fun c => (decimalDigit c).isSome

theorem digitCount_cons_of_none {c : Char} (hc : decimalDigit c = none) (cs : List Char) :
    digitCount (c :: cs) = digitCount cs := by
  simp [digitCount, hc]

/-- In a numeral all characters but the underscores are digits. -/
theorem Numeral.length_filter {cs : List Char} {n : ℕ} (h : Numeral .ten cs n) :
    (cs.filter (· ≠ '_')).length = digitCount cs := by
  have hspace : decimalDigit '_' = none := by decide
  have hdigit {c : Char} {d : ℕ} (hd : Radix.ten.digit c = some d) :
      c ≠ '_' ∧ (decimalDigit c).isSome = true := by
    refine ⟨?_, Option.isSome_of_eq_some hd⟩
    rintro rfl
    cases hspace.symm.trans hd
  induction h with
  | digit hd =>
    obtain ⟨hc, hsome⟩ := hdigit hd
    simp [digitCount, hc, hsome]
  | next h hd ih =>
    obtain ⟨hc, hsome⟩ := hdigit hd
    simp_all [digitCount]
  | spaced h hd ih =>
    obtain ⟨hc, hsome⟩ := hdigit hd
    simp_all [digitCount]

theorem Numeral.withinLimit_iff {cs : List Char} {n : ℕ} (h : Numeral .ten cs n) :
    WithinLimit cs ↔ digitCount cs ≤ maxDigits := by
  rw [WithinLimit, h.length_filter]

/-- Only the limit sets the integers that are read apart. -/
theorem decimalInteger_iff {cs : List Char} {n : ℤ} :
    DecimalInteger cs n ↔ SignedNumeral cs n ∧ digitCount cs ≤ maxDigits := by
  have hplus (cs : List Char) : digitCount ('+' :: cs) = digitCount cs :=
    digitCount_cons_of_none (by decide) cs
  have hminus (cs : List Char) : digitCount ('-' :: cs) = digitCount cs :=
    digitCount_cons_of_none (by decide) cs
  constructor
  · intro h
    cases h with
    | unsigned h hlimit => exact ⟨.unsigned h, h.withinLimit_iff.mp hlimit⟩
    | plus h hlimit => exact ⟨.plus h, hplus _ ▸ h.withinLimit_iff.mp hlimit⟩
    | minus h hlimit => exact ⟨.minus h, hminus _ ▸ h.withinLimit_iff.mp hlimit⟩
  · rintro ⟨h, hlimit⟩
    cases h with
    | unsigned h => exact .unsigned h (h.withinLimit_iff.mpr hlimit)
    | plus h => exact .plus h (h.withinLimit_iff.mpr (hplus _ ▸ hlimit))
    | minus h => exact .minus h (h.withinLimit_iff.mpr (hminus _ ▸ hlimit))

/-- The digits of a number in a base are a numeral of it. -/
theorem numeral_toDigits {r : Radix} (hbase : 1 < r.base)
    (hdigit : ∀ d < r.base, r.digit d.digitChar = some d) (n : ℕ) :
    Numeral r (Nat.toDigits r.base n) n := by
  induction n using Nat.strong_induction_on with
  | _ n ih =>
    rw [Nat.toDigits_eq_if hbase]
    split_ifs with hn
    · exact .digit (hdigit n hn)
    · have hlast := hdigit (n % r.base) (Nat.mod_lt n (by omega))
      have hnext := (ih (n / r.base) (Nat.div_lt_self (by omega) hbase)).next hlast
      rwa [Nat.div_add_mod'] at hnext

/-- A number in hexadecimal, behind its mark. -/
def hexadecimalText (n : ℕ) : String := String.ofList ('0' :: 'x' :: Nat.toDigits 16 n)

theorem word?_hexadecimalText (n : ℕ) : word? (hexadecimalText n) = some (n : ℤ) := by
  have hdigit : ∀ d < 16, hexDigit (Nat.digitChar d) = some d := by decide
  have hnumeral := numeral_toDigits (r := .sixteen) (by decide) hdigit n
  rw [word?_eq_some_iff, hexadecimalText, String.toList_ofList]
  exact .hexadecimal ⟨[], [], (List.append_nil _).symm, by simp, by simp⟩
    (.marked (.inl rfl) hnumeral)

/-- More digits than are read, whatever number they are. -/
theorem word?_of_digits {cs : List Char} (hdigits : ∀ c ∈ cs, isAsciiDigit c = true)
    (hmany : maxDigits < cs.length) : word? (String.ofList cs) = none := by
  have htrim : trim isBlank (String.ofList cs).toList = cs := by
    rw [String.toList_ofList]
    exact trim_eq_self fun c hc => not_isBlank_of_isAsciiDigit (hdigits c hc)
  have hcount : digitCount cs = cs.length := by
    rw [digitCount, List.countP_eq_length]
    exact fun c hc => Option.isSome_of_eq_some (decimalDigit_of_isAsciiDigit (hdigits c hc))
  rw [Option.eq_none_iff_forall_ne_some]
  intro n hn
  rw [word?_eq_some_iff_trim, htrim] at hn
  rcases hn with h | ⟨m, h, -⟩
  · exact absurd (decimalInteger_iff.mp h).2 (by omega)
  · obtain ⟨x, ds, rfl, hx⟩ := h.exists_mark
    have hdigit := hdigits x (by simp)
    rcases hx with rfl | rfl <;> cases hdigit

theorem numeral_zeros (k : ℕ) : Numeral .ten (List.replicate (k + 1) '0') 0 := by
  have hzero : Radix.ten.digit '0' = some 0 := by decide
  induction k with
  | zero => exact .digit hzero
  | succ k ih =>
    rw [List.replicate_succ']
    exact ih.next hzero

end Text

namespace Json

/-- The value is an integer or a string. -/
def IsIntegerOrText (v : Json) : Prop := (∃ n, v = .int n) ∨ ∃ s, v = .str s

end Json

namespace Word

/-- The text of a word between its blanks. -/
inductive Body (cs : List Char) : ℤ → Prop where
  | hexadecimal {n : ℕ} (h : Text.HexadecimalInteger cs n) : Body cs n
  | decimal {n : ℤ} (h : Text.SignedNumeral cs n)
      (hlimit : Text.digitCount cs ≤ Text.maxDigits) : Body cs n

theorem wordText_iff {cs : List Char} {n : ℤ} :
    Text.WordText cs n ↔ ∃ body, Text.Padded Text.isBlank body cs ∧ Body body n := by
  constructor
  · intro h
    cases h with
    | decimal hpadded h =>
      obtain ⟨hnumeral, hlimit⟩ := Text.decimalInteger_iff.mp h
      exact ⟨_, hpadded, .decimal hnumeral hlimit⟩
    | hexadecimal hpadded h => exact ⟨_, hpadded, .hexadecimal h⟩
  · rintro ⟨body, hpadded, h⟩
    cases h with
    | decimal h hlimit => exact .decimal hpadded (Text.decimalInteger_iff.mpr ⟨h, hlimit⟩)
    | hexadecimal h => exact .hexadecimal hpadded h

variable {n : ℤ}

/-- A string is read if it is a word between blanks, and if the number is in range. -/
theorem ofJson_str_iff {s : Symbols} : ofJson (.str s) = .ok n ↔
    (∃ cs body, s = cs.map .char ∧ Text.Padded Text.isBlank body cs ∧ Body body n) ∧
      0 ≤ n ∧ n < 2 ^ 256 := by
  rw [ofJson_eq_ok_iff, Denotes]
  refine and_congr_left' ?_
  constructor
  · intro h
    cases h with
    | text h =>
      obtain ⟨body, hpadded, hbody⟩ := wordText_iff.mp h
      exact ⟨_, body, rfl, hpadded, hbody⟩
  · rintro ⟨cs, body, rfl, hpadded, hbody⟩
    exact .text (wordText_iff.mpr ⟨body, hpadded, hbody⟩)

theorem inRange_cases (shown : String) (m : ℤ) :
    (∃ n, inRange shown m = .ok n) ∨ ∃ c, inRange shown m = .error (.value c) := by
  rw [inRange]
  split_ifs
  · exact .inl ⟨m, rfl⟩
  · exact .inr ⟨_, rfl⟩

/-- Integers and strings that are not read are faults of the value, all else is of the wrong
kind. -/
theorem ofJson_cases (v : Json) :
    (v.IsIntegerOrText ∧ ((∃ n, ofJson v = .ok n) ∨ ∃ c, ofJson v = .error (.value c))) ∨
      ¬v.IsIntegerOrText ∧ ∃ c, ofJson v = .error (.kind c) := by
  cases v with
  | int m => exact .inl ⟨.inl ⟨m, rfl⟩, inRange_cases _ m⟩
  | str s =>
    refine .inl ⟨.inr ⟨s, rfl⟩, ?_⟩
    rw [ofJson]
    split
    · split
      · exact inRange_cases _ _
      · exact .inr ⟨_, rfl⟩
    · exact .inr ⟨_, rfl⟩
  | null | bool _ | real _ | arr _ | obj _ =>
    refine .inr ⟨?_, _, rfl⟩
    rintro (⟨n, h⟩ | ⟨s, h⟩) <;> cases h

/-- What is read as a word, with which number, and what kind of fault all else is; the printed
forms of a number of 256 bits are read as that number. -/
theorem ofJson_grammar :
    (∀ m n : ℤ, ofJson (.int m) = .ok n ↔ m = n ∧ 0 ≤ n ∧ n < 2 ^ 256) ∧
    (∀ (s : Symbols) (n : ℤ), ofJson (.str s) = .ok n ↔
      (∃ cs body, s = cs.map .char ∧ Text.Padded Text.isBlank body cs ∧ Body body n) ∧
        0 ≤ n ∧ n < 2 ^ 256) ∧
    (∀ v : Json, (∃ c, ofJson v = .error (.value c)) ↔
      v.IsIntegerOrText ∧ ∀ n, ofJson v ≠ .ok n) ∧
    (∀ v : Json, (∃ c, ofJson v = .error (.kind c)) ↔ ¬v.IsIntegerOrText) ∧
    ∀ n : ℕ, n < 2 ^ 256 → ofJson (.ofString (Text.decimal n)) = .ok (n : ℤ) ∧
      ofJson (.ofString (Text.hexadecimalText n)) = .ok (n : ℤ) := by
  refine ⟨fun m n => inRange_eq_ok_iff, fun s n => ofJson_str_iff, ?_, ?_, ?_⟩
  · intro v
    rcases ofJson_cases v with ⟨hv, ⟨n, hn⟩ | ⟨c, hc⟩⟩ | ⟨hv, c, hc⟩
    · simp [hn]
    · simp [hc, hv]
    · simp [hc, hv]
  · intro v
    rcases ofJson_cases v with ⟨hv, ⟨n, hn⟩ | ⟨c, hc⟩⟩ | ⟨hv, c, hc⟩
    · simp [hn, hv]
    · simp [hc, hv]
    · simp [hc, hv]
  · intro n hn
    have hrange : 0 ≤ (n : ℤ) ∧ (n : ℤ) < bound := by
      have hbound : bound = 2 ^ 256 := rfl
      rw [hbound]
      exact ⟨by omega, by exact_mod_cast hn⟩
    have hdecimal := (Text.word?_decimal n).trans (if_pos (fewDigits_of_inRange hrange))
    rw [ofJson_ofString hdecimal, ofJson_ofString (Text.word?_hexadecimalText n)]
    exact ⟨if_pos hrange, if_pos hrange⟩

example : ofJson (.ofString " \t0X_1f_F\n") = .ok 511 := by decide +kernel
example : ofJson (.ofString "-0x1") = .error (.value .integerText) := by rfl

theorem ofJson_grammar_largest :
    (2 : ℕ) ^ 256 - 1 < 2 ^ 256 ∧
    ofJson (.ofString (Text.decimal ((2 ^ 256 - 1 : ℕ) : ℤ))) = .ok ((2 ^ 256 - 1 : ℕ) : ℤ) ∧
    ofJson (.ofString (Text.hexadecimalText (2 ^ 256 - 1))) = .ok ((2 ^ 256 - 1 : ℕ) : ℤ) := by
  obtain ⟨-, -, -, -, hprinted⟩ := ofJson_grammar
  have hlt : (2 : ℕ) ^ 256 - 1 < 2 ^ 256 := by decide
  exact ⟨hlt, hprinted _ hlt⟩

/-- A zero, written with more digits than are read. -/
def zeros : List Char := List.replicate (Text.maxDigits + 1) '0'

theorem ofJson_zeros : Text.SignedNumeral zeros 0 ∧
    ofJson (.ofString (String.ofList zeros)) = .error (.value .integerText) := by
  have hdigits : ∀ c ∈ zeros, Text.isAsciiDigit c = true := by
    intro c hc
    rw [List.eq_of_mem_replicate hc]
    rfl
  have hmany : Text.maxDigits < zeros.length := by
    rw [zeros, List.length_replicate]
    exact Nat.lt_succ_self _
  have hnumeral : Text.Numeral .ten zeros 0 := Text.numeral_zeros Text.maxDigits
  exact ⟨.unsigned hnumeral, ofJson_ofString_of_none (Text.word?_of_digits hdigits hmany)⟩

end Word
end FoldingVerifier
