import FoldingVerifier.Json.Literal
import FoldingVerifier.Text.Integer
import Mathlib.Data.List.TakeWhile
import Mathlib.Data.Nat.Digits.Defs
import Mathlib.Tactic

/-! Integers written in decimal and read back. What is written has no leading zero, no
blank and no underscore, so that the reader of words and the reader of document numbers
both return the integer, as long as it has not too many digits. -/
namespace FoldingVerifier
namespace Text

/-- No more digits than are read. -/
def FewDigits (n : ℤ) : Prop := (naturalDigits n.natAbs).length ≤ maxDigits

instance (n : ℤ) : Decidable (FewDigits n) := by unfold FewDigits; infer_instance

theorem fewDigits_iff {n : ℤ} : FewDigits n ↔ n.natAbs < 10 ^ maxDigits :=
  Nat.length_toDigits_le_iff (by decide) (by decide)

theorem fewDigits_of_lt {n : ℤ} {e : ℕ} (hmax : e ≤ maxDigits) (h : n.natAbs < 10 ^ e) :
    FewDigits n :=
  fewDigits_iff.mpr (h.trans_le (Nat.pow_le_pow_right (by decide) hmax))

theorem isAsciiDigit_iff {c : Char} : isAsciiDigit c = true ↔ 0x30 ≤ c.toNat ∧ c.toNat ≤ 0x39 :=
  Char.isDigit_iff_toNat

theorem isAsciiDigit_of_mem {n : ℕ} {c : Char} (h : c ∈ naturalDigits n) :
    isAsciiDigit c = true :=
  Nat.isDigit_of_mem_toDigits (by decide) le_rfl h

theorem ne_of_isAsciiDigit {c d : Char} (h : isAsciiDigit c = true) (hd : isAsciiDigit d = false) :
    c ≠ d := by
  rintro rfl
  rw [h] at hd
  cases hd

theorem naturalDigits_ne_nil (n : ℕ) : naturalDigits n ≠ [] := Nat.toDigits_ne_nil

/-- Only zero is written with a zero in front. -/
theorem eq_zero_of_head_naturalDigits {n : ℕ} (h : (naturalDigits n).head? = some '0') :
    n = 0 := by
  induction n using Nat.strong_induction_on with
  | _ n ih =>
    rw [naturalDigits, Nat.toDigits_eq_if (by decide)] at h
    split_ifs at h with hn
    · interval_cases n
      · rfl
      all_goals cases h
    · rw [List.head?_append_of_ne_nil _ Nat.toDigits_ne_nil] at h
      have hzero := ih (n / 10) (by omega) h
      omega

theorem mem_integerDigits {n : ℤ} {c : Char} (h : c ∈ integerDigits n) :
    c = '-' ∨ isAsciiDigit c = true := by
  cases n with
  | ofNat n => exact .inr (isAsciiDigit_of_mem h)
  | negSucc n => exact (List.mem_cons.mp h).imp_right isAsciiDigit_of_mem

/-- A sign stands in front only. -/
theorem isAsciiDigit_of_mem_tail {n : ℤ} {c : Char} (h : c ∈ (integerDigits n).tail) :
    isAsciiDigit c = true := by
  cases n with
  | ofNat n => exact isAsciiDigit_of_mem (List.mem_of_mem_tail h)
  | negSucc n => exact isAsciiDigit_of_mem h

theorem decimalDigit_of_isAsciiDigit {c : Char} (h : isAsciiDigit c = true) :
    decimalDigit c = some (c.toNat - '0'.toNat) := by
  obtain ⟨hlow, hhigh⟩ := isAsciiDigit_iff.mp h
  have hruns : digitRuns = 0x30 :: digitRuns.tail := rfl
  have hrun : (decide (0x30 ≤ c.toNat) && decide (c.toNat < 0x30 + 10)) = true := by
    rw [Bool.and_eq_true, decide_eq_true_eq, decide_eq_true_eq]
    omega
  rw [decimalDigit, hruns, List.find?_cons, hrun]
  rfl

namespace Radix

theorem continued_digits {cs : List Char} (h : ∀ c ∈ cs, isAsciiDigit c = true) (acc : ℕ) :
    ten.continued acc cs = some (Nat.ofDigitChars 10 cs acc) := by
  induction cs generalizing acc with
  | nil => rfl
  | cons c cs ih =>
    rw [List.forall_mem_cons] at h
    have hc : ten.digit c = some (c.toNat - '0'.toNat) := decimalDigit_of_isAsciiDigit h.1
    have hne : c ≠ '_' := ne_of_isAsciiDigit h.1 (by decide)
    rw [continued, hc, Nat.ofDigitChars_cons, mul_comm, ← ih h.2]
    · rfl
    · intro d ds hd
      exact absurd hd hne

theorem natural_naturalDigits (n : ℕ) : ten.natural (naturalDigits n) = some n := by
  have hvalue : Nat.ofDigitChars 10 (naturalDigits n) 0 = n := Nat.ofDigitChars_ten_toDigits
  have hdigits : ∀ c ∈ naturalDigits n, isAsciiDigit c = true := fun _ => isAsciiDigit_of_mem
  cases hn : naturalDigits n with
  | nil => exact absurd hn (naturalDigits_ne_nil n)
  | cons c cs =>
    rw [hn, List.forall_mem_cons] at hdigits
    have hc : ten.digit c = some (c.toNat - '0'.toNat) := decimalDigit_of_isAsciiDigit hdigits.1
    rw [natural, hc, Option.bind_some, continued_digits hdigits.2]
    rw [hn, Nat.ofDigitChars_cons, mul_zero, zero_add] at hvalue
    rw [hvalue]

end Radix

theorem unsignedDecimal_naturalDigits (n : ℕ) : unsignedDecimal (naturalDigits n) =
    if FewDigits n then some n else none := by
  have hfilter : (naturalDigits n).filter (· ≠ '_') = naturalDigits n := by
    rw [List.filter_eq_self]
    intro c hc
    exact decide_eq_true (ne_of_isAsciiDigit (isAsciiDigit_of_mem hc) (by decide))
  rw [unsignedDecimal, hfilter, Radix.natural_naturalDigits]
  rfl

theorem signedDecimal_integerDigits (n : ℤ) : signedDecimal (integerDigits n) =
    if FewDigits n then some n else none := by
  cases n with
  | ofNat n =>
    have hsign : ∀ c cs, naturalDigits n = c :: cs → isAsciiDigit c = true := by
      intro c cs hn
      exact isAsciiDigit_of_mem (hn ▸ List.mem_cons_self)
    rw [integerDigits, signedDecimal, unsignedDecimal_naturalDigits]
    · change Option.map Int.ofNat (if FewDigits (Int.ofNat n) then _ else _) = _
      split_ifs <;> rfl
    · intro cs hn
      exact ne_of_isAsciiDigit (hsign _ cs hn) (by decide) rfl
    · intro cs hn
      exact ne_of_isAsciiDigit (hsign _ cs hn) (by decide) rfl
  | negSucc n =>
    have hiff : FewDigits ((n + 1 : ℕ) : ℤ) ↔ FewDigits (Int.negSucc n) := Iff.rfl
    rw [integerDigits, signedDecimal, unsignedDecimal_naturalDigits]
    simp only [hiff]
    split_ifs <;> rfl

theorem trim_eq_self {blank : Char → Bool} {cs : List Char} (h : ∀ c ∈ cs, blank c = false) :
    trim blank cs = cs := by
  have hdrop : ∀ ds : List Char, (∀ c ∈ ds, blank c = false) → ds.dropWhile blank = ds := by
    intro ds hds
    cases ds with
    | nil => rfl
    | cons d ds => exact List.dropWhile_cons_of_neg (by simp [hds d List.mem_cons_self])
  rw [trim, hdrop cs h, hdrop cs.reverse (fun c hc => h c (List.mem_reverse.mp hc)),
    List.reverse_reverse]

theorem not_isBlank_of_isAsciiDigit {c : Char} (h : isAsciiDigit c = true) :
    isBlank c = false := by
  have hrange := isAsciiDigit_iff.mp h
  simp [isBlank, isSpacing, isSeparator]
  omega

theorem not_isBlank_of_mem {n : ℤ} {c : Char} (h : c ∈ integerDigits n) : isBlank c = false := by
  rcases mem_integerDigits h with rfl | hc
  · rfl
  · exact not_isBlank_of_isAsciiDigit hc

theorem word?_decimal (n : ℤ) : word? (decimal n) = if FewDigits n then some n else none := by
  have htrim : trim isBlank (decimal n).toList = integerDigits n := by
    rw [decimal, String.toList_ofList]
    exact trim_eq_self fun _ => not_isBlank_of_mem
  have hletter : ∀ {c cs}, integerDigits n = '0' :: c :: cs → isAsciiDigit c = true := by
    intro c cs hn
    have hc : c ∈ (integerDigits n).tail := by rw [hn]; exact List.mem_cons_self
    exact isAsciiDigit_of_mem_tail hc
  rw [word?, htrim]
  split
  · next cs hn => exact absurd rfl (ne_of_isAsciiDigit (hletter hn) (by decide))
  · next cs hn => exact absurd rfl (ne_of_isAsciiDigit (hletter hn) (by decide))
  · exact signedDecimal_integerDigits n

end Text

namespace Json

open Text

theorem digits?_naturalDigits (n : ℕ) : digits? (naturalDigits n) = some (naturalDigits n, []) := by
  have htake : (naturalDigits n).takeWhile isAsciiDigit = naturalDigits n :=
    List.takeWhile_eq_self_iff.2 fun _ => isAsciiDigit_of_mem
  have hdrop : (naturalDigits n).dropWhile isAsciiDigit = [] :=
    List.dropWhile_eq_nil_iff.2 fun _ => isAsciiDigit_of_mem
  rw [digits?, htake, hdrop]
  cases hn : naturalDigits n with
  | nil => exact absurd hn (naturalDigits_ne_nil n)
  | cons c cs => rfl

theorem digitsValue_naturalDigits (n : ℕ) : digitsValue (naturalDigits n) = n := by
  have hvalue : Nat.ofDigitChars 10 (naturalDigits n) 0 = n := Nat.ofDigitChars_ten_toDigits
  simp only [Nat.ofDigitChars_eq_foldl, mul_comm 10] at hvalue
  exact hvalue

theorem unsigned_naturalDigits (negative : Bool) {n : ℕ} (h : FewDigits n) :
    unsigned negative (naturalDigits n) = .ok (.int (signed negative n)) := by
  have hzero : ¬((naturalDigits n).head? = some '0' ∧ 1 < (naturalDigits n).length) := by
    rintro ⟨hhead, hlength⟩
    rw [eq_zero_of_head_naturalDigits hhead] at hlength
    revert hlength
    decide
  have hlimit : ¬maxDigits < (naturalDigits n).length := not_lt.mpr h
  rw [unsigned, digits?_naturalDigits]
  change (if _ then _ else integerLiteral negative (naturalDigits n) []) = _
  rw [if_neg hzero, integerLiteral, if_neg hlimit, if_pos rfl, digitsValue_naturalDigits]

/-- A document number is no constant, for it has no letters. -/
theorem ofAtom_integerDigits {n : ℤ} (h : FewDigits n) :
    ofAtom (integerDigits n) = .ok (.int n) := by
  have hletters : ∀ s : String, s.toList.all (fun c => c == '-' || isAsciiDigit c) = false →
      String.ofList (integerDigits n) ≠ s := by
    rintro s hs rfl
    rw [String.toList_ofList, List.all_eq_false] at hs
    obtain ⟨c, hc, hletter⟩ := hs
    rcases mem_integerDigits hc with rfl | hdigit
    · exact hletter rfl
    · rw [hdigit, Bool.or_true] at hletter
      exact hletter rfl
  unfold ofAtom
  split
  · next hs => exact absurd hs (hletters _ rfl)
  · next hs => exact absurd hs (hletters _ rfl)
  · next hs => exact absurd hs (hletters _ rfl)
  · next hs => exact absurd hs (hletters _ rfl)
  · next hs => exact absurd hs (hletters _ rfl)
  · next hs => exact absurd hs (hletters _ rfl)
  · cases n with
    | ofNat n =>
      rw [integerDigits, number]
      · exact unsigned_naturalDigits false h
      · intro cs hn
        have hc : isAsciiDigit '-' = true := isAsciiDigit_of_mem (hn ▸ List.mem_cons_self)
        cases hc
    | negSucc n =>
      rw [integerDigits, number]
      exact unsigned_naturalDigits true h

end Json
end FoldingVerifier
