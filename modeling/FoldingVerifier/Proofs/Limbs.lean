import FoldingVerifier.PublicInputs
import Mathlib.Data.Int.Bitwise
import Mathlib.Tactic

/-! Integers cut into limbs and put together again. The limbs of an integer are its lowest
digits, groups of bits in two's complement for negative integers, so that they denote its
remainder modulo the next power of the radix. The way back ends in the base field: what comes
back is the remainder modulo the order of that field, of the low bits alone. Limbs on the way
back may be wider than those that are cut, so that the same integer has many lists of them,
and one only that the cut yields. -/
namespace FoldingVerifier
namespace Limbs

theorem length_decompose (x : ℤ) : (decompose x).length = 5 := by
  rw [decompose, List.length_map, List.length_range]
  rfl

theorem radix_pos : (0 : ℤ) < radix := by decide

theorem mem_decompose {x l : ℤ} (h : l ∈ decompose x) : 0 ≤ l ∧ l < radix := by
  obtain ⟨i, -, rfl⟩ := List.mem_map.mp h
  exact ⟨Int.emod_nonneg _ radix_pos.ne', Int.emod_lt_of_pos _ radix_pos⟩

/-- A remainder is its lowest digit and the remainder of what stands above it. -/
theorem emod_mul_eq {b c : ℤ} (hb : 0 < b) (x : ℤ) : x % (b * c) = x % b + b * (x / b % c) := by
  have hx := Int.emod_add_mul_ediv x b
  have hq := Int.emod_add_mul_ediv (x / b) c
  have hbc : x / (b * c) = x / b / c := (Int.ediv_ediv_of_nonneg hb.le).symm
  rw [Int.emod_def x (b * c), hbc]
  linear_combination (-1 : ℤ) * hx - b * hq

theorem ediv_pow_zero (x : ℤ) : x / Int.pow radix 0 = x := Int.ediv_one x

theorem ediv_pow_succ (x : ℤ) (i : ℕ) :
    x / Int.pow radix (i + 1) = x / radix / Int.pow radix i := by
  rw [Int.ediv_ediv_of_nonneg radix_pos.le]
  exact congrArg (x / ·) (pow_succ' (radix : ℤ) i)

theorem value_digits (n : ℕ) (x : ℤ) :
    value ((List.range n).map fun i => x / Int.pow radix i % radix) = x % (radix : ℤ) ^ n := by
  induction n generalizing x with
  | zero => simp [value]
  | succ n ih =>
    have htail := ih (x / radix)
    simp only [← ediv_pow_succ] at htail
    rw [List.range_succ_eq_map, List.map_cons, List.map_map, ediv_pow_zero, value, pow_succ',
      emod_mul_eq radix_pos, ← htail]
    rfl

theorem radix_pow_count : (radix : ℤ) ^ count = 2 ^ 275 := by
  have hradix : (radix : ℤ) = 2 ^ width := by rw [radix, Nat.pow_eq, Nat.cast_pow, Nat.cast_ofNat]
  rw [hradix, ← pow_mul, width, count]

/-- The limbs hold any base-field element. -/
theorem baseOrder_lt_limit : (baseOrder : ℤ) < 2 ^ 275 := by
  rw [← radix_pow_count]
  decide

theorem value_decompose (x : ℤ) : value (decompose x) = x % 2 ^ 275 := by
  rw [decompose, value_digits, radix_pow_count]

theorem decompose_injOn : Set.InjOn decompose (Set.Ico 0 (2 ^ 275)) := by
  intro x hx y hy h
  have hv := congrArg value h
  rwa [value_decompose, value_decompose, Int.emod_eq_of_lt hx.1 hx.2,
    Int.emod_eq_of_lt hy.1 hy.2] at hv

theorem ldiff_low_bits (k m : ℕ) : Nat.ldiff (2 ^ k - 1) m = 2 ^ k - (m % 2 ^ k + 1) := by
  -- either side has the bits below `k` that `m` has not
  apply Nat.eq_of_testBit_eq
  intro i
  have hlt : m % 2 ^ k < 2 ^ k := Nat.mod_lt _ (by positivity)
  rw [Nat.testBit_ldiff, Nat.testBit_two_pow_sub_one, Nat.testBit_two_pow_sub_succ hlt,
    Nat.testBit_mod_two_pow]
  by_cases h : i < k <;> simp [h]

/-- The low bits of an integer of either sign are its non-negative remainder. -/
theorem land_low_bits (x : ℤ) (k : ℕ) : Int.land x (2 ^ k - 1) = x % 2 ^ k := by
  have hmask : ((2 : ℤ) ^ k - 1) = ((2 ^ k - 1 : ℕ) : ℤ) := by
    rw [Nat.cast_sub Nat.one_le_two_pow, Nat.cast_pow, Nat.cast_ofNat, Nat.cast_one]
  rw [hmask]
  cases x with
  | ofNat m =>
    change ((m &&& (2 ^ k - 1) : ℕ) : ℤ) = _
    rw [Nat.and_two_pow_sub_one_eq_mod, Int.natCast_mod, Nat.cast_pow, Nat.cast_ofNat]
    rfl
  | negSucc m =>
    change ((Nat.ldiff (2 ^ k - 1) m : ℕ) : ℤ) = _
    have hlt : m % 2 ^ k < 2 ^ k := Nat.mod_lt _ (by positivity)
    rw [ldiff_low_bits, Int.negSucc_emod _ (by positivity), Nat.cast_sub hlt]
    push_cast
    ring

theorem decompose_eq_bits (x : ℤ) :
    decompose x = (List.range 5).map fun i : ℕ => Int.land (x >>> (55 * i)) (2 ^ 55 - 1) := by
  apply List.map_congr_left
  intro i _
  have hplace : Int.pow radix i = ((2 ^ (55 * i) : ℕ) : ℤ) := by
    rw [pow_mul, Nat.cast_pow]
    rfl
  rw [land_low_bits, Int.shiftRight_eq_div_pow, hplace]
  rfl

/-- The number that limbs denote, each at its place. -/
def positional (limbs : List ℤ) : ℤ :=
  ∑ i : Fin limbs.length, limbs.get i * 2 ^ (55 * (i : ℕ))

theorem positional_eq_value (limbs : List ℤ) : positional limbs = value limbs := by
  induction limbs with
  | nil => rfl
  | cons l ls ih =>
    have hradix : (radix : ℤ) = 2 ^ 55 := rfl
    rw [value, ← ih, positional, positional, hradix, Finset.mul_sum]
    simp only [List.length_cons, Fin.sum_univ_succ, List.get_cons_zero, List.get_cons_succ',
      Fin.val_zero, mul_zero, pow_zero, mul_one, Fin.val_succ, mul_add_one, pow_add]
    congr 1
    apply Finset.sum_congr rfl
    intro i _
    ring

theorem value_nonneg {limbs : List ℤ} (h : ∀ l ∈ limbs, 0 ≤ l) : 0 ≤ value limbs := by
  induction limbs with
  | nil => exact le_refl 0
  | cons l ls ih =>
    obtain ⟨hl, hls⟩ := List.forall_mem_cons.mp h
    have hrest := ih hls
    have hradix := radix_pos
    rw [value]
    positivity

/-- Limbs below the radix are the digits of the number that they denote. -/
theorem digits_value {limbs : List ℤ} (h : ∀ l ∈ limbs, 0 ≤ l ∧ l < radix) :
    (List.range limbs.length).map (fun i => value limbs / Int.pow radix i % radix) = limbs := by
  induction limbs with
  | nil => rfl
  | cons l ls ih =>
    obtain ⟨⟨hl0, hl⟩, hls⟩ := List.forall_mem_cons.mp h
    have hlow : value (l :: ls) % radix = l := by
      rw [value, Int.add_mul_emod_self_left, Int.emod_eq_of_lt hl0 hl]
    have hhigh : value (l :: ls) / radix = value ls := by
      rw [value, Int.add_mul_ediv_left _ _ radix_pos.ne', Int.ediv_eq_zero_of_lt hl0 hl, zero_add]
    have htail (i : ℕ) : value (l :: ls) / Int.pow radix (i + 1) % radix =
        value ls / Int.pow radix i % radix := by
      rw [ediv_pow_succ, hhigh]
    rw [List.length_cons, List.range_succ_eq_map, List.map_cons, List.map_map, ediv_pow_zero, hlow]
    simp only [Function.comp_def, Nat.succ_eq_add_one, htail, ih hls]

theorem decompose_value {limbs : List ℤ} (hlen : limbs.length = 5)
    (h : ∀ l ∈ limbs, 0 ≤ l ∧ l < radix) : decompose (value limbs) = limbs := by
  have hdigits := digits_value h
  rwa [hlen] at hdigits

/-- As many base-field elements as there are limbs. -/
def Admissible (limbs : List ℤ) : Prop :=
  limbs.length = 5 ∧ ∀ l ∈ limbs, 0 ≤ l ∧ l < baseOrder

theorem recompose_of_admissible {limbs : List ℤ} (h : Admissible limbs) :
    recompose limbs = .ok (value limbs % baseOrder) := by
  have hall : limbs.all (fun l => decide (0 ≤ l ∧ l < baseOrder)) = true :=
    List.all_eq_true.mpr fun l hl => decide_eq_true (h.2 l hl)
  have hcount : ¬limbs.length ≠ count := not_not.mpr h.1
  rw [recompose, if_neg hcount, if_pos hall, Residue.val_ofInt]

theorem recompose_of_not_admissible {limbs : List ℤ} (h : ¬Admissible limbs) :
    ∃ cause, recompose limbs = .error (.value cause) := by
  unfold recompose
  split_ifs with hlen hall
  · exact ⟨_, rfl⟩
  · have hrange (l : ℤ) (hl : l ∈ limbs) : 0 ≤ l ∧ l < baseOrder :=
      of_decide_eq_true (List.all_eq_true.mp hall l hl)
    exact absurd ⟨not_not.mp hlen, hrange⟩ h
  · exact ⟨_, rfl⟩

theorem recompose_eq_ok_iff {limbs : List ℤ} {x : ℤ} :
    recompose limbs = .ok x ↔ Admissible limbs ∧ x = value limbs % baseOrder := by
  by_cases h : Admissible limbs
  · simp [recompose_of_admissible h, h, eq_comm]
  · obtain ⟨cause, hcause⟩ := recompose_of_not_admissible h
    simp [hcause, h]

theorem recompose_fails_iff {limbs : List ℤ} :
    (∃ cause, recompose limbs = .error (.value cause)) ↔ ¬Admissible limbs := by
  refine ⟨?_, recompose_of_not_admissible⟩
  rintro ⟨cause, hcause⟩ h
  rw [recompose_of_admissible h] at hcause
  cases hcause

theorem admissible_decompose (x : ℤ) : Admissible (decompose x) := by
  refine ⟨length_decompose x, ?_⟩
  intro l hl
  have hradix : (radix : ℤ) < baseOrder := by decide
  obtain ⟨hl0, hlt⟩ := mem_decompose hl
  exact ⟨hl0, hlt.trans hradix⟩

theorem recompose_decompose (x : ℤ) :
    recompose (decompose x) = .ok (x % 2 ^ 275 % baseOrder) := by
  rw [recompose_of_admissible (admissible_decompose x), value_decompose]

theorem emod_of_lt_baseOrder {x : ℤ} (h0 : 0 ≤ x) (hx : x < baseOrder) : x % 2 ^ 275 = x :=
  Int.emod_eq_of_lt h0 (hx.trans baseOrder_lt_limit)

/-- Of the lists that denote a base-field element the cut yields the one with narrow limbs
and no wrap around the order. -/
theorem decompose_residue_eq_iff {limbs : List ℤ} (h : Admissible limbs) :
    decompose (value limbs % baseOrder) = limbs ↔
      (∀ l ∈ limbs, l < 2 ^ 55) ∧ value limbs < baseOrder := by
  have horder : (0 : ℤ) < baseOrder := by decide
  have hlow : 0 ≤ value limbs % baseOrder := Int.emod_nonneg _ horder.ne'
  have hhigh : value limbs % baseOrder < baseOrder := Int.emod_lt_of_pos _ horder
  constructor
  · intro heq
    have hvalue := congrArg value heq
    rw [value_decompose, emod_of_lt_baseOrder hlow hhigh] at hvalue
    refine ⟨fun l hl => ?_, hvalue ▸ hhigh⟩
    rw [← heq] at hl
    exact (mem_decompose hl).2
  · rintro ⟨hnarrow, hlt⟩
    have hnonneg : 0 ≤ value limbs := value_nonneg fun l hl => (h.2 l hl).1
    rw [Int.emod_eq_of_lt hnonneg hlt]
    exact decompose_value h.1 fun l hl => ⟨(h.2 l hl).1, hnarrow l hl⟩

/-- The cut takes the groups of bits, which denote the low bits of any integer, and the way back
takes every admissible list to the residue of what it denotes. The two are inverse between the
base-field elements and the lists of narrow limbs that denote them. -/
theorem positional_roundTrip :
    (∀ x : ℤ,
      decompose x = (List.range 5).map (fun i : ℕ => Int.land (x >>> (55 * i)) (2 ^ 55 - 1)) ∧
      (decompose x).length = 5 ∧ (∀ l ∈ decompose x, 0 ≤ l ∧ l < 2 ^ 55) ∧
      positional (decompose x) = x % 2 ^ 275 ∧
      recompose (decompose x) = .ok (x % 2 ^ 275 % baseOrder) ∧
      (0 ≤ x → x < baseOrder → recompose (decompose x) = .ok x)) ∧
    Set.InjOn decompose (Set.Ico 0 (2 ^ 275)) ∧
    ∀ limbs : List ℤ,
      ((∃ cause, recompose limbs = .error (.value cause)) ↔ ¬Admissible limbs) ∧
      (Admissible limbs → recompose limbs = .ok (positional limbs % baseOrder)) ∧
      ∀ x, recompose limbs = .ok x →
        (decompose x = limbs ↔ (∀ l ∈ limbs, l < 2 ^ 55) ∧ positional limbs < baseOrder) := by
  simp only [positional_eq_value]
  refine ⟨?_, decompose_injOn, ?_⟩
  · intro x
    refine ⟨decompose_eq_bits x, length_decompose x, fun l hl => mem_decompose hl,
      value_decompose x, recompose_decompose x, ?_⟩
    intro h0 hx
    rw [recompose_decompose, emod_of_lt_baseOrder h0 hx, Int.emod_eq_of_lt h0 hx]
  · intro limbs
    refine ⟨recompose_fails_iff, recompose_of_admissible, ?_⟩
    intro x hx
    obtain ⟨hadmissible, rfl⟩ := recompose_eq_ok_iff.mp hx
    exact decompose_residue_eq_iff hadmissible

/-- The order of the field has limbs of its own and comes back as zero; a limb that is too wide
comes back in two. -/
theorem positional_roundTrip_wide :
    (0 : ℤ) ≤ baseOrder - 1 ∧ (baseOrder - 1 : ℤ) < baseOrder ∧
    recompose (decompose (baseOrder - 1)) = .ok (baseOrder - 1) ∧
    decompose baseOrder ≠ decompose 0 ∧
    recompose (decompose baseOrder) = recompose (decompose 0) ∧
    Admissible [2 ^ 55, 0, 0, 0, 0] ∧ recompose [2 ^ 55, 0, 0, 0, 0] = .ok (2 ^ 55) ∧
    decompose (2 ^ 55) ≠ [2 ^ 55, 0, 0, 0, 0] := by
  obtain ⟨hcut, hinjective, hback⟩ := positional_roundTrip
  have horder : (0 : ℤ) < baseOrder := by decide
  have hadmissible : Admissible [2 ^ 55, 0, 0, 0, 0] := by
    unfold Admissible
    decide
  have hwide : recompose [2 ^ 55, 0, 0, 0, 0] = .ok (2 ^ 55) := (hback _).2.1 hadmissible
  obtain ⟨-, -, -, -, -, hlargest⟩ := hcut (baseOrder - 1)
  obtain ⟨-, -, -, -, hresidue, -⟩ := hcut baseOrder
  obtain ⟨-, -, -, -, -, hzero⟩ := hcut 0
  refine ⟨by decide, by decide, hlargest (by decide) (by decide), ?_, ?_, hadmissible, hwide, ?_⟩
  · intro heq
    exact horder.ne' (hinjective ⟨horder.le, baseOrder_lt_limit⟩ ⟨le_refl 0, by positivity⟩ heq)
  · rw [hresidue, hzero le_rfl horder, Int.emod_eq_of_lt horder.le baseOrder_lt_limit,
      Int.emod_self]
  · intro heq
    have hnarrow := ((hback _).2.2 _ hwide).mp heq
    exact absurd (hnarrow.1 (2 ^ 55) List.mem_cons_self) (lt_irrefl _)

end Limbs
end FoldingVerifier
