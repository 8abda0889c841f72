import FoldingVerifier.Proofs.Field.Primality

/-! Arithmetic on plain integers modulo one of the two orders. What an operation returns is the
representative of a class, and the classes form a field, so that the laws of fields are laws of
the operations, also where an operand is the result of an earlier one. Negative exponents are
those of the field, which leaves out the multiples of the order. -/
namespace FoldingVerifier

namespace Residue

variable {p : ℕ} [Positive p] [Fact p.Prime]

theorem toZMod_inv (h2 : 2 < p) (a : Residue p) : toZMod a⁻¹ = (toZMod a)⁻¹ := by
  by_cases ha : a = 0
  · rw [ha, inv_zero_of_two_lt h2, toZMod_zero, inv_zero]
  · have hinv := congrArg toZMod (mul_inv_of_prime Fact.out ha)
    rw [toZMod_mul, toZMod_one] at hinv
    exact eq_inv_of_mul_eq_one_right hinv

theorem toZMod_zpow (h2 : 2 < p) (a : Residue p) (e : ℤ) :
    toZMod (a.zpow e) = toZMod a ^ e := by
  cases e with
  | ofNat n => exact (toZMod_pow a n).trans (zpow_natCast _ n).symm
  | negSucc n =>
    rw [zpow_negSucc, ← inv_pow, ← toZMod_inv h2]
    exact toZMod_pow a⁻¹ (n + 1)

end Residue

namespace Modulus

variable (m : Modulus)

theorem two_lt_order : 2 < m.order := by cases m <;> decide

instance : Fact m.order.Prime := ⟨by
  cases m with
  | base => exact baseOrder_prime
  | scalar => exact scalarOrder_prime⟩

theorem order_pos : 0 < m.order := Positive.pos

theorem ofInt_order : ofInt m.order = .ok m := by cases m <;> rfl

theorem ofInt_of_ne {p : ℤ} (hbase : p ≠ baseOrder) (hscalar : p ≠ scalarOrder) :
    ofInt p = .error (.value (.unsupportedModulus p)) := by
  rw [ofInt, if_neg hbase, if_neg hscalar]

/-- The canonical integer of a class. -/
def representative (z : ZMod m.order) : ℤ := z.val

@[simp] theorem cast_representative (z : ZMod m.order) :
    ((m.representative z : ℤ) : ZMod m.order) = z := by
  rw [representative, Int.cast_natCast, ZMod.natCast_zmod_val]

theorem representative_nonneg (z : ZMod m.order) : 0 ≤ m.representative z :=
  Int.natCast_nonneg _

theorem representative_lt (z : ZMod m.order) : m.representative z < m.order :=
  Int.ofNat_lt.mpr (ZMod.val_lt z)

theorem representative_intCast (a : ℤ) : m.representative a = a % m.order :=
  ZMod.val_intCast a

theorem val_eq_representative (x : Residue m.order) : (x.val : ℤ) = m.representative x.toZMod := by
  rw [representative, Residue.toZMod, ZMod.val_natCast_of_lt x.isLt]

theorem toZMod_residue (a : ℤ) : (m.residue a).toZMod = a := Residue.toZMod_ofInt a

theorem representative_zero : m.representative 0 = 0 := by
  rw [representative, ZMod.val_zero, Nat.cast_zero]

theorem representative_one : m.representative 1 = 1 := by
  have hone : (1 : ℤ) < m.order := by have := m.two_lt_order; omega
  rw [← Int.cast_one, representative_intCast, Int.emod_eq_of_lt zero_le_one hone]

theorem cast_add_mul_order (a k : ℤ) : ((a + k * m.order : ℤ) : ZMod m.order) = a := by
  rw [Int.cast_add, Int.cast_mul, Int.cast_natCast, ZMod.natCast_self, mul_zero, add_zero]

theorem intCast_eq_zero_iff (a : ℤ) : (a : ZMod m.order) = 0 ↔ (m.order : ℤ) ∣ a :=
  ZMod.intCast_zmod_eq_zero_iff_dvd a m.order

end Modulus

namespace Modular

variable (m : Modulus)

theorem add_eq (a b : ℤ) : add m.order a b = .ok (m.representative (a + b)) := by
  rw [add, m.ofInt_order, ← m.toZMod_residue, ← m.toZMod_residue, ← Residue.toZMod_add,
    ← m.val_eq_representative]
  rfl

theorem mul_eq (a b : ℤ) : mul m.order a b = .ok (m.representative (a * b)) := by
  rw [mul, m.ofInt_order, ← m.toZMod_residue, ← m.toZMod_residue, ← Residue.toZMod_mul,
    ← m.val_eq_representative]
  rfl

theorem neg_eq (a : ℤ) : neg m.order a = .ok (m.representative (-a)) := by
  rw [neg, m.ofInt_order, ← m.toZMod_residue, ← Residue.toZMod_neg, ← m.val_eq_representative]
  rfl

theorem exp_of_refused {a e : ℤ} (h : (m.order : ℤ) ∣ a ∧ e < 0) :
    exp m.order a e = .error .zeroInverse := by
  have hzero : m.residue a = 0 ∧ e < 0 := ⟨(Residue.ofInt_eq_zero_iff a).mpr h.1, h.2⟩
  rw [exp, m.ofInt_order]
  exact if_pos hzero

theorem exp_eq {a e : ℤ} (h : ¬((m.order : ℤ) ∣ a ∧ e < 0)) :
    exp m.order a e = .ok (m.representative ((a : ZMod m.order) ^ e)) := by
  have hzero : ¬(m.residue a = 0 ∧ e < 0) := by
    rintro ⟨hz, he⟩
    exact h ⟨(Residue.ofInt_eq_zero_iff a).mp hz, he⟩
  rw [exp, m.ofInt_order, ← m.toZMod_residue, ← Residue.toZMod_zpow m.two_lt_order,
    ← m.val_eq_representative]
  exact if_neg hzero

theorem exp_of_not_dvd {a : ℤ} (h : ¬(m.order : ℤ) ∣ a) (e : ℤ) :
    exp m.order a e = .ok (m.representative ((a : ZMod m.order) ^ e)) :=
  exp_eq m fun h' => h h'.1

theorem not_dvd_power {a : ℤ} (h : ¬(m.order : ℤ) ∣ a) (e : ℤ) :
    ¬(m.order : ℤ) ∣ m.representative ((a : ZMod m.order) ^ e) := by
  rw [← m.intCast_eq_zero_iff] at h ⊢
  rw [m.cast_representative]
  exact zpow_ne_zero e h

/-- Fermat: exponents count modulo the number of classes other than zero. -/
theorem zpow_congr {z : ZMod m.order} (hz : z ≠ 0) {e f : ℤ} (h : e ≡ f [ZMOD m.order - 1]) :
    z ^ e = z ^ f := by
  obtain ⟨k, hk⟩ := h.symm.dvd
  have hperiod : z ^ ((m.order : ℤ) - 1) = 1 := by
    rw [← Nat.cast_pred m.order_pos, zpow_natCast]
    exact ZMod.pow_card_sub_one_eq_one hz
  rw [eq_add_of_sub_eq' hk, zpow_add₀ hz, zpow_mul, hperiod, one_zpow, mul_one]

/-- A result is the canonical representative of the class of `v`. -/
def Reduces (p : ℤ) (result : Except Fault ℤ) (v : ℤ) : Prop :=
  ∃ s, result = .ok s ∧ 0 ≤ s ∧ s < p ∧ s ≡ v [ZMOD p]

theorem reduces_representative (v : ℤ) : Reduces m.order (.ok (m.representative v)) v :=
  ⟨_, rfl, m.representative_nonneg v, m.representative_lt v,
    m.representative_intCast v ▸ Int.mod_modEq v m.order⟩

/-- Sums, products and negatives are canonical, do not tell the representatives of a class
apart, and obey the laws of a commutative ring. -/
structure RingLaws (p : ℤ) : Prop where
  add_reduces (a b : ℤ) : Reduces p (add p a b) (a + b)
  mul_reduces (a b : ℤ) : Reduces p (mul p a b) (a * b)
  neg_reduces (a : ℤ) : Reduces p (neg p a) (-a)
  add_shift (a b k l : ℤ) : add p (a + k * p) (b + l * p) = add p a b
  mul_shift (a b k l : ℤ) : mul p (a + k * p) (b + l * p) = mul p a b
  neg_shift (a k : ℤ) : neg p (a + k * p) = neg p a
  add_comm (a b : ℤ) : add p a b = add p b a
  add_assoc (a b c : ℤ) : (do add p (← add p a b) c) = do add p a (← add p b c)
  add_zero (a : ℤ) : add p a 0 = .ok (a % p)
  add_neg (a : ℤ) : (do add p a (← neg p a)) = .ok 0
  mul_comm (a b : ℤ) : mul p a b = mul p b a
  mul_assoc (a b c : ℤ) : (do mul p (← mul p a b) c) = do mul p a (← mul p b c)
  mul_one (a : ℤ) : mul p a 1 = .ok (a % p)
  mul_add (a b c : ℤ) : (do mul p a (← add p b c)) = do add p (← mul p a b) (← mul p a c)

/-- Powers with integer exponents are refused for an inverse of zero and for nothing else, and
obey the laws of exponents wherever the base has an inverse. -/
structure PowerLaws (p : ℤ) : Prop where
  exp_refused (a e : ℤ) : exp p a e = .error .zeroInverse ↔ p ∣ a ∧ e < 0
  exp_returns (a e : ℤ) : ¬(p ∣ a ∧ e < 0) → ∃ v, exp p a e = .ok v ∧ 0 ≤ v ∧ v < p
  exp_reduces (a : ℤ) (n : ℕ) : Reduces p (exp p a n) (a ^ n)
  exp_shift (a k e : ℤ) : exp p (a + k * p) e = exp p a e
  exp_add (a e f : ℤ) : ¬p ∣ a → (do mul p (← exp p a e) (← exp p a f)) = exp p a (e + f)
  exp_mul (a e f : ℤ) : ¬p ∣ a → (do exp p (← exp p a e) f) = exp p a (e * f)
  mul_exp_neg_one (a : ℤ) : ¬p ∣ a → (do mul p a (← exp p a (-1))) = .ok 1
  exp_congr (a e f : ℤ) : ¬p ∣ a → e ≡ f [ZMOD p - 1] → exp p a e = exp p a f
  exp_zero_zero : exp p 0 0 = .ok 1

/-- What has returned is handed on. -/
theorem ok_bind (a : ℤ) (f : ℤ → Except Fault ℤ) : (Except.ok a >>= f) = f a := rfl

theorem ringLaws : RingLaws m.order where
  add_reduces a b := by
    rw [add_eq, ← Int.cast_add]
    exact reduces_representative m (a + b)
  mul_reduces a b := by
    rw [mul_eq, ← Int.cast_mul]
    exact reduces_representative m (a * b)
  neg_reduces a := by
    rw [neg_eq, ← Int.cast_neg]
    exact reduces_representative m (-a)
  add_shift a b k l := by
    rw [add_eq, add_eq, m.cast_add_mul_order, m.cast_add_mul_order]
  mul_shift a b k l := by
    rw [mul_eq, mul_eq, m.cast_add_mul_order, m.cast_add_mul_order]
  neg_shift a k := by
    rw [neg_eq, neg_eq, m.cast_add_mul_order]
  add_comm a b := by
    rw [add_eq, add_eq, add_comm]
  add_assoc a b c := by
    simp only [add_eq, ok_bind, m.cast_representative, add_assoc]
  add_zero a := by
    rw [add_eq, Int.cast_zero, add_zero, m.representative_intCast]
  add_neg a := by
    simp only [add_eq, neg_eq, ok_bind, m.cast_representative, add_neg_cancel,
      m.representative_zero]
  mul_comm a b := by
    rw [mul_eq, mul_eq, mul_comm]
  mul_assoc a b c := by
    simp only [mul_eq, ok_bind, m.cast_representative, mul_assoc]
  mul_one a := by
    rw [mul_eq, Int.cast_one, mul_one, m.representative_intCast]
  mul_add a b c := by
    simp only [add_eq, mul_eq, ok_bind, m.cast_representative, mul_add]

theorem powerLaws : PowerLaws m.order where
  exp_refused a e := by
    refine ⟨?_, exp_of_refused m⟩
    intro hexp
    by_contra h
    rw [exp_eq m h] at hexp
    cases hexp
  exp_returns a e h :=
    ⟨_, exp_eq m h, m.representative_nonneg _, m.representative_lt _⟩
  exp_reduces a n := by
    rw [exp_eq m fun h => (Int.natCast_nonneg n).not_gt h.2, zpow_natCast, ← Int.cast_pow]
    exact reduces_representative m (a ^ n)
  exp_shift a k e := by
    by_cases h : (m.order : ℤ) ∣ a ∧ e < 0
    · rw [exp_of_refused m h, exp_of_refused m ⟨dvd_add h.1 (dvd_mul_left _ _), h.2⟩]
    · have hshift : ¬((m.order : ℤ) ∣ a + k * m.order ∧ e < 0) := by
        rwa [Int.dvd_add_mul_self]
      rw [exp_eq m h, exp_eq m hshift, m.cast_add_mul_order]
  exp_add a e f h := by
    have ha : (a : ZMod m.order) ≠ 0 := mt (m.intCast_eq_zero_iff a).mp h
    simp only [exp_of_not_dvd m h, mul_eq, ok_bind, m.cast_representative, zpow_add₀ ha]
  exp_mul a e f h := by
    simp only [exp_of_not_dvd m h, ok_bind, exp_of_not_dvd m (not_dvd_power m h e),
      m.cast_representative, zpow_mul]
  mul_exp_neg_one a h := by
    have ha : (a : ZMod m.order) ≠ 0 := mt (m.intCast_eq_zero_iff a).mp h
    simp only [exp_of_not_dvd m h, mul_eq, ok_bind, m.cast_representative, zpow_neg_one,
      mul_inv_cancel₀ ha, m.representative_one]
  exp_congr a e f h hmod := by
    have ha : (a : ZMod m.order) ≠ 0 := mt (m.intCast_eq_zero_iff a).mp h
    rw [exp_of_not_dvd m h, exp_of_not_dvd m h, zpow_congr m ha hmod]
  exp_zero_zero := by
    rw [exp_eq m fun h => lt_irrefl 0 h.2, zpow_zero, m.representative_one]

/-- Modulo both orders, and modulo nothing else, the operations compute in a field. -/
theorem prime_field_laws (p : ℤ) :
    (p = baseOrder ∨ p = scalarOrder → RingLaws p ∧ PowerLaws p) ∧
    (p ≠ baseOrder → p ≠ scalarOrder → ∀ a b e : ℤ,
      add p a b = .error (.value (.unsupportedModulus p)) ∧
      mul p a b = .error (.value (.unsupportedModulus p)) ∧
      neg p a = .error (.value (.unsupportedModulus p)) ∧
      exp p a e = .error (.value (.unsupportedModulus p))) := by
  constructor
  · rintro (rfl | rfl)
    · exact ⟨ringLaws .base, powerLaws .base⟩
    · exact ⟨ringLaws .scalar, powerLaws .scalar⟩
  · intro hbase hscalar a b e
    simp only [add, mul, neg, exp, Modulus.ofInt_of_ne hbase hscalar]
    exact ⟨rfl, rfl, rfl, rfl⟩

/-- Powers of seven among the scalars, with one exponent negative, and a modulus that is neither
of the two. -/
theorem prime_field_laws_scalar :
    ¬(scalarOrder : ℤ) ∣ 7 ∧
    (do mul scalarOrder (← exp scalarOrder 7 (-3)) (← exp scalarOrder 7 5)) = .ok 49 ∧
    (do exp scalarOrder (← exp scalarOrder 7 (-2)) (-1)) = .ok 49 ∧
    exp scalarOrder 7 (scalarOrder - 1) = .ok 1 ∧
    exp scalarOrder (3 * scalarOrder) (-1) = .error .zeroInverse ∧
    (101 : ℤ) ≠ baseOrder ∧ (101 : ℤ) ≠ scalarOrder ∧
    exp 101 0 (-1) = .error (.value (.unsupportedModulus 101)) := by
  obtain ⟨-, laws⟩ := (prime_field_laws scalarOrder).1 (.inr rfl)
  have hseven : ¬(scalarOrder : ℤ) ∣ 7 := by decide
  have hbase : (101 : ℤ) ≠ baseOrder := by decide
  have hscalar : (101 : ℤ) ≠ scalarOrder := by decide
  obtain ⟨-, -, -, hexp⟩ := (prime_field_laws 101).2 hbase hscalar 0 0 (-1)
  have hperiod : (scalarOrder - 1 : ℤ) ≡ 0 [ZMOD scalarOrder - 1] :=
    Int.modEq_zero_iff_dvd.mpr dvd_rfl
  refine ⟨hseven, ?_, ?_, ?_, ?_, hbase, hscalar, hexp⟩
  · rw [laws.exp_add 7 (-3) 5 hseven]
    rfl
  · rw [laws.exp_mul 7 (-2) (-1) hseven]
    rfl
  · rw [laws.exp_congr 7 _ 0 hseven hperiod]
    rfl
  · exact (laws.exp_refused _ _).mpr ⟨dvd_mul_left _ _, by decide⟩

end Modular
end FoldingVerifier
