import FoldingVerifier.Curve.Jacobian
import FoldingVerifier.Proofs.Curve.Law
import FoldingVerifier.Proofs.Field.Residues
import Mathlib.Tactic.FieldSimp

/-! Multiples computed in Jacobian coordinates are the multiples of the group. Each
step of the ladder is compared on the points that the coordinates stand for: one
lemma for doubling, one for adding an affine point, and then an induction along the
digits. -/
namespace FoldingVerifier

variable {F : Type*} [Field F] [DecidableEq F]

namespace Jacobian

theorem toPoint_eq_infinity_iff (J : Jacobian F) : J.toPoint = .infinity ↔ J.z = 0 := by
  unfold toPoint
  split_ifs with h
  · simp [h]
  · simp [h]

/-- The coordinates of an affine point, multiplied up by powers of `z`. -/
theorem toPoint_eq_affine_iff (J : Jacobian F) (x y : F) :
    J.toPoint = .affine x y ↔ J.z ≠ 0 ∧ J.x = x * J.z ^ 2 ∧ J.y = y * J.z ^ 3 := by
  unfold toPoint
  split_ifs with h
  · simp [h]
  · simp only [Point.affine.injEq, h, not_false_eq_true, ne_eq, true_and]
    constructor
    · rintro ⟨rfl, rfl⟩
      constructor <;> field_simp
    · rintro ⟨hx, hy⟩
      rw [hx, hy]
      constructor <;> field_simp

/-- The point is looked at in the form that suits its case. -/
theorem toPoint_cases (J : Jacobian F) : (J.z = 0 ∧ J.toPoint = .infinity) ∨
    ∃ x y, J.z ≠ 0 ∧ J = ⟨x * J.z ^ 2, y * J.z ^ 3, J.z⟩ ∧ J.toPoint = .affine x y := by
  cases h : J.toPoint with
  | infinity => exact .inl ⟨J.toPoint_eq_infinity_iff.mp h, rfl⟩
  | affine x y =>
    obtain ⟨hz, hx, hy⟩ := (J.toPoint_eq_affine_iff x y).mp h
    refine .inr ⟨x, y, hz, ?_, rfl⟩
    cases J
    simp_all

theorem toPoint_double (h2 : (2 : F) ≠ 0) (J : Jacobian F) :
    J.double.toPoint = J.toPoint + J.toPoint := by
  rcases J.toPoint_cases with ⟨hz, hp⟩ | ⟨x, y, hz, hJ, hp⟩
  · rw [hp, Point.infinity_add, toPoint_eq_infinity_iff]
    simp [double, hz]
  · rw [hp, hJ, Point.affine_add_affine, if_pos rfl]
    by_cases hy : y = 0
    · rw [if_pos (by simp [hy]), toPoint_eq_infinity_iff]
      simp [double, hy]
    · have hyy : y + y ≠ 0 := by
        rw [← two_mul]
        exact mul_ne_zero h2 hy
      -- only that the slope times `y + y` is `3x²` matters from here on
      obtain ⟨m, hm⟩ : ∃ m, m = (x * x + x * x + x * x) * (y + y)⁻¹ := ⟨_, rfl⟩
      have hs : m * (y + y) = x * x + x * x + x * x := by
        rw [hm, mul_assoc, inv_mul_cancel₀ hyy, mul_one]
      rw [if_neg (fun h => hyy (add_eq_zero_iff_eq_neg.mpr h)), ← hm, Point.third,
        toPoint_eq_affine_iff]
      have hz' : y * J.z ^ 3 * J.z + y * J.z ^ 3 * J.z ≠ 0 := by
        rw [← add_mul, ← add_mul]
        exact mul_ne_zero (mul_ne_zero hyy (pow_ne_zero _ hz)) hz
      refine ⟨hz', ?_, ?_⟩
      · simp only [double]
        linear_combination (-(J.z ^ 8) * (3 * x ^ 2 + 2 * m * y)) * hs
      · simp only [double]
        linear_combination (-(J.z ^ 12) * (12 * x * y ^ 2 -
          ((3 * x ^ 2) ^ 2 + 3 * x ^ 2 * (2 * m * y) + (2 * m * y) ^ 2))) * hs

variable {b : F}

omit [DecidableEq F] in
/-- Two points of the curve with one abscissa are equal or opposite. -/
theorem eq_neg_of_onCurve {x y y' : F} (h : (Point.affine x y).OnCurve b)
    (h' : (Point.affine x y').OnCurve b) (hne : y ≠ y') : y = -y' := by
  have hsq : y * y = y' * y' := h.trans h'.symm
  exact (mul_self_eq_mul_self_iff.mp hsq).resolve_left hne

theorem toPoint_addAffine (h2 : (2 : F) ≠ 0) {J : Jacobian F} {x₂ y₂ : F}
    (hJ : J.toPoint.OnCurve b) (hQ : (Point.affine x₂ y₂).OnCurve b) :
    (J.addAffine x₂ y₂).toPoint = J.toPoint + .affine x₂ y₂ := by
  rcases J.toPoint_cases with ⟨hz, hp⟩ | ⟨x, y, hz, he, hp⟩
  · rw [hp, Point.infinity_add, addAffine, if_pos hz, toPoint_eq_affine_iff]
    simp [ofAffine]
  · have hh : x₂ * (J.z * J.z) - J.x = (x₂ - x) * J.z ^ 2 := by rw [he]; ring
    have hm : y₂ * (J.z * J.z * J.z) - J.y = (y₂ - y) * J.z ^ 3 := by rw [he]; ring
    rw [addAffine, if_neg hz]
    simp only [hh, hm, mul_eq_zero, pow_eq_zero_iff, hz, sub_eq_zero, ne_eq, OfNat.ofNat_ne_zero,
      not_false_eq_true, or_false]
    by_cases hx : x₂ = x
    · subst hx
      rw [if_pos rfl]
      by_cases hy : y₂ = y
      · subst hy
        rw [if_pos rfl, toPoint_double h2, hp]
      · rw [hp] at hJ ⊢
        rw [if_neg hy, Point.affine_add_affine, if_pos rfl,
          if_pos (eq_neg_of_onCurve hJ hQ (Ne.symm hy)), toPoint_eq_infinity_iff]
        rfl
    · have hd : x₂ - x ≠ 0 := sub_ne_zero.mpr hx
      have hd' : x - x₂ ≠ 0 := sub_ne_zero.mpr (Ne.symm hx)
      rw [if_neg hx, hp, Point.affine_add_affine, if_neg (Ne.symm hx), Point.third,
        toPoint_eq_affine_iff]
      refine ⟨mul_ne_zero hz (mul_ne_zero hd (pow_ne_zero _ hz)), ?_, ?_⟩
      · rw [he]
        field_simp
        ring
      · rw [he]
        field_simp
        ring

/-- The climb from infinity reaches the multiple that its digits denote. -/
theorem toPoint_multiple (h2 : (2 : F) ≠ 0) {x y : F} {T : (weierstrass b).Point}
    (hT : Point.ofCurve T = .affine x y) (n : ℕ) :
    (multiple x y n).toPoint = Point.ofCurve (n • T) := by
  have hQ : (Point.affine x y).OnCurve b := hT ▸ Point.onCurve_ofCurve T
  refine Ladder.run_induction (R := fun v (J : Jacobian F) => J.toPoint = Point.ofCurve (v • T))
    ?_ ?_ ?_ n
  · intro v J hJ
    rw [toPoint_double h2, hJ, ← Point.ofCurve_add, two_mul, add_nsmul]
  · intro v J hJ
    have hc : J.toPoint.OnCurve b := hJ ▸ Point.onCurve_ofCurve _
    rw [toPoint_addAffine h2 hc hQ, hJ, ← hT, ← Point.ofCurve_add, succ_nsmul]
  · rw [zero_nsmul, Point.ofCurve_zero, toPoint_eq_infinity_iff]
    rfl

end Jacobian

namespace Point

variable {b : F}

theorem mul_ofCurve (h2 : (2 : F) ≠ 0) (T : (weierstrass b).Point) (n : ℕ) :
    (ofCurve T).mul n = ofCurve (n • T) := by
  cases hT : ofCurve T with
  | infinity =>
    have h0 : T = 0 := ofCurve_injective (hT.trans ofCurve_zero.symm)
    rw [h0, nsmul_zero]
    rfl
  | affine x y => exact Jacobian.toPoint_multiple h2 hT n

theorem OnCurve.mul [(weierstrass b).IsElliptic] (h2 : (2 : F) ≠ 0) {P : Point F}
    (h : P.OnCurve b) (n : ℕ) : (P.mul n).OnCurve b := by
  obtain ⟨T, rfl⟩ := exists_ofCurve h
  exact mul_ofCurve h2 T n ▸ onCurve_ofCurve (n • T)

theorem annihilated_ofCurve_iff (h2 : (2 : F) ≠ 0) (T : (weierstrass b).Point) (n : ℕ) :
    (ofCurve T).Annihilated n ↔ n • T = 0 := by
  rw [← ofCurve_injective.eq_iff, ← mul_ofCurve h2, ofCurve_zero]
  cases ofCurve T with
  | infinity => exact iff_of_true trivial rfl
  | affine x y => exact (Jacobian.toPoint_eq_infinity_iff _).symm

end Point
end FoldingVerifier
