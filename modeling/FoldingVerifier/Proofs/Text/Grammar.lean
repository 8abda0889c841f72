import FoldingVerifier.Proofs.Text.Decimal

/-! The grammar of written integers, and that the readers of integers and of words accept it
and nothing else. A numeral is built digit by digit, the highest first, with at most one
underscore before each further digit; a decimal integer puts a sign in front, a hexadecimal
one its mark; blanks may stand around either. -/
namespace FoldingVerifier
namespace Text

/-- The digits of a number, with single underscores between some of them. -/
inductive Numeral (r : Radix) : List Char → ℕ → Prop where
  | digit {c : Char} {d : ℕ} (hd : r.digit c = some d) : Numeral r [c] d
  | next {cs : List Char} {n : ℕ} {c : Char} {d : ℕ} (h : Numeral r cs n)
      (hd : r.digit c = some d) : Numeral r (cs ++ [c]) (n * r.base + d)
  | spaced {cs : List Char} {n : ℕ} {c : Char} {d : ℕ} (h : Numeral r cs n)
      (hd : r.digit c = some d) : Numeral r (cs ++ ['_', c]) (n * r.base + d)

section Radix

variable {r : Radix} {c : Char} {cs ds : List Char} {d n m acc : ℕ}

theorem Radix.continued_cons (hspace : r.digit '_' = none) (hd : r.digit c = some d) :
    r.continued acc (c :: ds) = r.continued (acc * r.base + d) ds := by
  rw [continued]
  · simp [hd]
  · rintro e es rfl
    simp [hspace] at hd

theorem Radix.continued_spaced (hd : r.digit c = some d) :
    r.continued acc ('_' :: c :: ds) = r.continued (acc * r.base + d) ds := by
  simp [continued, hd]

/-- Behind a numeral the reader goes on from its number. -/
theorem Numeral.natural_append (hspace : r.digit '_' = none) (h : Numeral r cs n) :
    r.natural (cs ++ ds) = r.continued n ds := by
  induction h generalizing ds with
  | digit hd => simp [Radix.natural, hd]
  | next h hd ih =>
    rw [List.append_assoc, ih]
    exact Radix.continued_cons hspace hd
  | spaced h hd ih =>
    rw [List.append_assoc, ih]
    exact Radix.continued_spaced hd

theorem Numeral.append_of_continued (h : Numeral r cs n) (hrest : r.continued n ds = some m) :
    Numeral r (cs ++ ds) m := by
  induction n, ds using Radix.continued.induct (r := r) generalizing cs with
  | case1 n => simp_all [Radix.continued]
  | case2 n c ds d hd ih =>
    rw [Radix.continued_spaced hd] at hrest
    simpa using ih (h.spaced hd) hrest
  | case3 n c ds hd => simp [Radix.continued, hd] at hrest
  | case4 n c ds hc d hd ih =>
    rw [Radix.continued, hd] at hrest
    · simpa using ih (h.next hd) hrest
    · exact hc
  | case5 n c ds hc hd =>
    rw [Radix.continued, hd] at hrest
    · cases hrest
    · exact hc

theorem Radix.natural_eq_some_iff (hspace : r.digit '_' = none) :
    r.natural cs = some n ↔ Numeral r cs n := by
  constructor
  · intro h
    cases cs with
    | nil => cases h
    | cons c cs =>
      obtain ⟨d, hd, hrest⟩ := Option.bind_eq_some_iff.mp h
      exact (Numeral.digit hd).append_of_continued hrest
  · intro h
    have happend : r.natural (cs ++ []) = r.continued n [] := h.natural_append hspace
    rwa [List.append_nil, continued] at happend

theorem Numeral.exists_head (h : Numeral r cs n) :
    ∃ c ds d, cs = c :: ds ∧ r.digit c = some d := by
  induction h with
  | digit hd => exact ⟨_, [], _, rfl, hd⟩
  | next h hd ih =>
    obtain ⟨c, ds, d, rfl, hc⟩ := ih
    exact ⟨c, _, d, rfl, hc⟩
  | spaced h hd ih =>
    obtain ⟨c, ds, d, rfl, hc⟩ := ih
    exact ⟨c, _, d, rfl, hc⟩

theorem Numeral.exists_last (h : Numeral r cs n) :
    ∃ ds c d, cs = ds ++ [c] ∧ r.digit c = some d := by
  cases h with
  | digit hd => exact ⟨[], _, _, rfl, hd⟩
  | next h hd => exact ⟨_, _, _, rfl, hd⟩
  | @spaced ds _ c d h hd => exact ⟨ds ++ ['_'], c, d, by simp, hd⟩

end Radix

/-- A text with nothing but blanks around it. -/
def Padded (blank : Char → Bool) (body cs : List Char) : Prop :=
  ∃ front back, cs = front ++ body ++ back ∧ (∀ c ∈ front, blank c = true) ∧
    ∀ c ∈ back, blank c = true

section Blank

variable {blank : Char → Bool} {body cs : List Char}

theorem padded_trim (blank : Char → Bool) (cs : List Char) :
    Padded blank (trim blank cs) cs := by
  refine ⟨cs.takeWhile blank, ((cs.dropWhile blank).reverse.takeWhile blank).reverse, ?_, ?_, ?_⟩
  · rw [trim, List.append_assoc, ← List.reverse_append, List.takeWhile_append_dropWhile,
      List.reverse_reverse, List.takeWhile_append_dropWhile]
  · exact fun c hc => List.mem_takeWhile_imp hc
  · exact fun c hc => List.mem_takeWhile_imp (List.mem_reverse.mp hc)

/-- Of a text that begins and ends with other characters nothing is trimmed but the blanks
around it. -/
theorem trim_eq_of_padded (h : Padded blank body cs)
    (hhead : ∃ c ds, body = c :: ds ∧ blank c = false)
    (hlast : ∃ ds c, body = ds ++ [c] ∧ blank c = false) : trim blank cs = body := by
  obtain ⟨front, back, rfl, hfront, hback⟩ := h
  have hdrop : (front ++ body ++ back).dropWhile blank = body ++ back := by
    obtain ⟨c, ds, rfl, hc⟩ := hhead
    rw [List.append_assoc, List.dropWhile_append_of_pos hfront, List.cons_append,
      List.dropWhile_cons_of_neg (by simp [hc])]
  have hback' : ∀ c ∈ back.reverse, blank c = true := by simpa using hback
  rw [trim, hdrop, List.reverse_append, List.dropWhile_append_of_pos hback']
  obtain ⟨ds, c, rfl, hc⟩ := hlast
  rw [List.reverse_append, List.reverse_singleton, List.singleton_append,
    List.dropWhile_cons_of_neg (by simp [hc])]
  simp

end Blank

/-- Every run of ten digits lies between the blanks. -/
theorem digitRuns_apart : ∀ start ∈ digitRuns,
    (0x20 < start ∧ start + 10 ≤ 0x85) ∨ (0xA0 < start ∧ start + 10 ≤ 0x1680) ∨
      (0x1680 < start ∧ start + 10 ≤ 0x2000) ∨ 0x3000 < start := by decide

theorem isBlank_of_decimalDigit {c : Char} {d : ℕ} (h : decimalDigit c = some d) :
    isBlank c = false := by
  rw [decimalDigit, Option.map_eq_some_iff] at h
  obtain ⟨start, hfind, -⟩ := h
  have hrange := List.find?_some hfind
  have hapart := digitRuns_apart start (List.mem_of_find?_eq_some hfind)
  simp only [Bool.and_eq_true, decide_eq_true_eq] at hrange
  simp [isBlank, isSpacing, isSeparator]
  omega

theorem isBlank_of_hexDigit {c : Char} {d : ℕ} (h : hexDigit c = some d) : isBlank c = false := by
  have hletter (a b : Char) (ha : 0x3000 < a.toNat ∨ (0x20 < a.toNat ∧ b.toNat < 0x85))
      (hc : a ≤ c ∧ c ≤ b) : isBlank c = false := by
    have hlow : a.toNat ≤ c.toNat := hc.1
    have hhigh : c.toNat ≤ b.toNat := hc.2
    simp [isBlank, isSpacing, isSeparator]
    omega
  unfold hexDigit at h
  split_ifs at h with hlower hupper
  · exact hletter 'a' 'f' (by decide) hlower
  · exact hletter 'A' 'F' (by decide) hupper
  · exact isBlank_of_decimalDigit h

theorem isSpacing_of_isBlank {c : Char} (h : isBlank c = false) : isSpacing c = false := by
  rw [isBlank, Bool.or_eq_false_iff] at h
  exact h.1

/-- Underscores do not count as digits. -/
def WithinLimit (cs : List Char) : Prop := (cs.filter (· ≠ '_')).length ≤ maxDigits

instance (cs : List Char) : Decidable (WithinLimit cs) := by unfold WithinLimit; infer_instance

inductive DecimalInteger : List Char → ℤ → Prop where
  | unsigned {cs : List Char} {n : ℕ} (h : Numeral .ten cs n) (hlimit : WithinLimit cs) :
      DecimalInteger cs n
  | plus {cs : List Char} {n : ℕ} (h : Numeral .ten cs n) (hlimit : WithinLimit cs) :
      DecimalInteger ('+' :: cs) n
  | minus {cs : List Char} {n : ℕ} (h : Numeral .ten cs n) (hlimit : WithinLimit cs) :
      DecimalInteger ('-' :: cs) (-n)

theorem unsignedDecimal_eq_some_iff {cs : List Char} {n : ℕ} :
    unsignedDecimal cs = some n ↔ Numeral .ten cs n ∧ WithinLimit cs := by
  have hspace : Radix.ten.digit '_' = none := by decide
  rw [← Radix.natural_eq_some_iff hspace, unsignedDecimal]
  change (if WithinLimit cs then _ else _) = _ ↔ _
  split_ifs with hlimit <;> simp [hlimit]

theorem signedDecimal_of_numeral {cs : List Char} {n : ℕ} (h : Numeral .ten cs n) :
    signedDecimal cs = (unsignedDecimal cs).map Int.ofNat := by
  obtain ⟨c, ds, d, rfl, hc⟩ := h.exists_head
  have hplus : Radix.ten.digit '+' = none := by decide
  have hminus : Radix.ten.digit '-' = none := by decide
  rw [signedDecimal]
  · rintro es ⟨⟩
    simp [hminus] at hc
  · rintro es ⟨⟩
    simp [hplus] at hc

theorem signedDecimal_eq_some_iff {cs : List Char} {n : ℤ} :
    signedDecimal cs = some n ↔ DecimalInteger cs n := by
  constructor
  · intro h
    unfold signedDecimal at h
    split at h
    · next cs =>
      cases hm : unsignedDecimal cs with
      | none => simp [hm] at h
      | some m =>
        obtain rfl : -(m : ℤ) = n := by simpa [hm] using h
        obtain ⟨hnumeral, hlimit⟩ := unsignedDecimal_eq_some_iff.mp hm
        exact .minus hnumeral hlimit
    · obtain ⟨m, hm, rfl⟩ := Option.map_eq_some_iff.mp h
      obtain ⟨hnumeral, hlimit⟩ := unsignedDecimal_eq_some_iff.mp hm
      exact .plus hnumeral hlimit
    · obtain ⟨m, hm, rfl⟩ := Option.map_eq_some_iff.mp h
      obtain ⟨hnumeral, hlimit⟩ := unsignedDecimal_eq_some_iff.mp hm
      exact .unsigned hnumeral hlimit
  · intro h
    cases h with
    | unsigned h hlimit =>
      simp [signedDecimal_of_numeral h, unsignedDecimal_eq_some_iff.mpr ⟨h, hlimit⟩]
    | plus h hlimit => simp [signedDecimal, unsignedDecimal_eq_some_iff.mpr ⟨h, hlimit⟩]
    | minus h hlimit => simp [signedDecimal, unsignedDecimal_eq_some_iff.mpr ⟨h, hlimit⟩]

theorem DecimalInteger.exists_last {cs : List Char} {n : ℤ} (h : DecimalInteger cs n) :
    ∃ ds c, cs = ds ++ [c] ∧ isBlank c = false := by
  cases h with
  | unsigned h =>
    obtain ⟨ds, c, d, rfl, hc⟩ := h.exists_last
    exact ⟨ds, c, rfl, isBlank_of_decimalDigit hc⟩
  | plus h | minus h =>
    obtain ⟨ds, c, d, rfl, hc⟩ := h.exists_last
    exact ⟨_ :: ds, c, rfl, isBlank_of_decimalDigit hc⟩

theorem DecimalInteger.exists_head {cs : List Char} {n : ℤ} (h : DecimalInteger cs n) :
    ∃ c ds, cs = c :: ds ∧ isBlank c = false := by
  cases h with
  | unsigned h =>
    obtain ⟨c, ds, d, rfl, hc⟩ := h.exists_head
    exact ⟨c, ds, rfl, isBlank_of_decimalDigit hc⟩
  | plus h => exact ⟨_, _, rfl, by decide⟩
  | minus h => exact ⟨_, _, rfl, by decide⟩

/-- A decimal integer in blanks, among which the four separators are not. -/
def IntegerText (cs : List Char) (n : ℤ) : Prop :=
  ∃ body, Padded isSpacing body cs ∧ DecimalInteger body n

theorem integer?_eq_some_iff {s : String} {n : ℤ} :
    integer? s = some n ↔ IntegerText s.toList n := by
  constructor
  · intro h
    exact ⟨_, padded_trim isSpacing s.toList, signedDecimal_eq_some_iff.mp h⟩
  · rintro ⟨body, hpadded, h⟩
    obtain ⟨c, ds, hhead, hc⟩ := h.exists_head
    obtain ⟨es, e, hlast, he⟩ := h.exists_last
    rw [integer?, trim_eq_of_padded hpadded ⟨c, ds, hhead, isSpacing_of_isBlank hc⟩
      ⟨es, e, hlast, isSpacing_of_isBlank he⟩]
    exact signedDecimal_eq_some_iff.mpr h

/-- Behind the mark one underscore may stand, as between two digits. -/
inductive HexadecimalInteger : List Char → ℕ → Prop where
  | marked {x : Char} {cs : List Char} {n : ℕ} (hx : x = 'x' ∨ x = 'X')
      (h : Numeral .sixteen cs n) : HexadecimalInteger ('0' :: x :: cs) n
  | spaced {x : Char} {cs : List Char} {n : ℕ} (hx : x = 'x' ∨ x = 'X')
      (h : Numeral .sixteen cs n) : HexadecimalInteger ('0' :: x :: '_' :: cs) n

/-- A decimal or a hexadecimal integer in blanks. -/
inductive WordText (cs : List Char) : ℤ → Prop where
  | decimal {body : List Char} {n : ℤ} (hpadded : Padded isBlank body cs)
      (h : DecimalInteger body n) : WordText cs n
  | hexadecimal {body : List Char} {n : ℕ} (hpadded : Padded isBlank body cs)
      (h : HexadecimalInteger body n) : WordText cs n

theorem hexadecimal_eq_some_iff {cs : List Char} {n : ℕ} : hexadecimal cs = some n ↔
    Numeral .sixteen cs n ∨ ∃ ds, cs = '_' :: ds ∧ Numeral .sixteen ds n := by
  have hspace : Radix.sixteen.digit '_' = none := by decide
  simp only [← Radix.natural_eq_some_iff hspace]
  unfold hexadecimal
  split
  · next ds => simp [Radix.natural, hspace]
  · next hcs =>
    constructor
    · exact .inl
    · rintro (h | ⟨ds, rfl, -⟩)
      · exact h
      · exact absurd rfl (hcs ds)

theorem hexadecimalInteger_cons_iff {x : Char} {cs : List Char} {n : ℕ} (hx : x = 'x' ∨ x = 'X') :
    HexadecimalInteger ('0' :: x :: cs) n ↔ hexadecimal cs = some n := by
  rw [hexadecimal_eq_some_iff]
  constructor
  · rintro (⟨-, h⟩ | ⟨-, h⟩)
    · exact .inl h
    · exact .inr ⟨_, rfl, h⟩
  · rintro (h | ⟨ds, rfl, h⟩)
    · exact .marked hx h
    · exact .spaced hx h

theorem HexadecimalInteger.exists_mark {cs : List Char} {n : ℕ} (h : HexadecimalInteger cs n) :
    ∃ x ds, cs = '0' :: x :: ds ∧ (x = 'x' ∨ x = 'X') := by
  cases h with
  | marked hx h => exact ⟨_, _, rfl, hx⟩
  | spaced hx h => exact ⟨_, _, rfl, hx⟩

theorem HexadecimalInteger.exists_last {cs : List Char} {n : ℕ} (h : HexadecimalInteger cs n) :
    ∃ ds c, cs = ds ++ [c] ∧ isBlank c = false := by
  cases h with
  | @marked x _ _ hx h =>
    obtain ⟨ds, c, d, rfl, hc⟩ := h.exists_last
    exact ⟨'0' :: x :: ds, c, rfl, isBlank_of_hexDigit hc⟩
  | @spaced x _ _ hx h =>
    obtain ⟨ds, c, d, rfl, hc⟩ := h.exists_last
    exact ⟨'0' :: x :: '_' :: ds, c, rfl, isBlank_of_hexDigit hc⟩

/-- A letter is no decimal digit, so that a marked integer is no decimal one. -/
theorem DecimalInteger.not_marked {x : Char} {cs : List Char} {n : ℤ} (hx : x = 'x' ∨ x = 'X') :
    ¬DecimalInteger ('0' :: x :: cs) n := by
  have hspace : Radix.ten.digit '_' = none := by decide
  intro h
  cases h with
  | unsigned h =>
    rw [← Radix.natural_eq_some_iff hspace] at h
    rcases hx with rfl | rfl <;> cases h

theorem marked_eq_some_iff {x : Char} {cs : List Char} {n : ℤ} (hx : x = 'x' ∨ x = 'X') :
    (hexadecimal cs).map Int.ofNat = some n ↔ DecimalInteger ('0' :: x :: cs) n ∨
      ∃ m : ℕ, HexadecimalInteger ('0' :: x :: cs) m ∧ n = m := by
  simp only [hexadecimalInteger_cons_iff hx, DecimalInteger.not_marked hx, false_or,
    Option.map_eq_some_iff]
  exact exists_congr fun m => and_congr_right fun _ => eq_comm

/-- The text between the blanks decides how it is read. -/
theorem word?_eq_some_iff_trim {s : String} {n : ℤ} : word? s = some n ↔
    DecimalInteger (trim isBlank s.toList) n ∨
      ∃ m : ℕ, HexadecimalInteger (trim isBlank s.toList) m ∧ n = m := by
  unfold word?
  split
  · next cs hbody => exact hbody ▸ marked_eq_some_iff (.inl rfl)
  · next cs hbody => exact hbody ▸ marked_eq_some_iff (.inr rfl)
  · next hlower hupper =>
    have hunmarked (m : ℕ) : ¬HexadecimalInteger (trim isBlank s.toList) m := by
      intro h
      obtain ⟨x, ds, hbody, rfl | rfl⟩ := h.exists_mark
      · exact hlower ds hbody
      · exact hupper ds hbody
    simp [hunmarked, signedDecimal_eq_some_iff]

theorem word?_eq_some_iff {s : String} {n : ℤ} : word? s = some n ↔ WordText s.toList n := by
  rw [word?_eq_some_iff_trim]
  constructor
  · rintro (h | ⟨m, h, rfl⟩)
    · exact .decimal (padded_trim isBlank s.toList) h
    · exact .hexadecimal (padded_trim isBlank s.toList) h
  · intro h
    cases h with
    | decimal hpadded h =>
      rw [trim_eq_of_padded hpadded h.exists_head h.exists_last]
      exact .inl h
    | hexadecimal hpadded h =>
      obtain ⟨x, ds, hbody, -⟩ := h.exists_mark
      rw [trim_eq_of_padded hpadded ⟨'0', x :: ds, hbody, by decide⟩ h.exists_last]
      exact .inr ⟨_, h, rfl⟩

end Text
end FoldingVerifier
