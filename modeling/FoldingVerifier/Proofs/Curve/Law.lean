import FoldingVerifier.Curve.Point
import Mathlib.AlgebraicGeometry.EllipticCurve.Affine.Point

/-! The chord-and-tangent law is the group law of the Weierstrass curve with the
same equation. The comparison runs from the curve's group to bare points, where it
is injective and has the points on the curve for its image. -/
namespace FoldingVerifier

open WeierstrassCurve.Affine

variable {F : Type*} [Field F]

/-- The curve `y² = x³ + b`. -/
def weierstrass (b : F) : WeierstrassCurve.Affine F := ⟨0, 0, 0, 0, b⟩

variable {b : F}

theorem equation_iff_onCurve {x y : F} :
    (weierstrass b).Equation x y ↔ (Point.affine x y).OnCurve b := by
  rw [WeierstrassCurve.Affine.equation_iff]
  simp only [weierstrass, Point.OnCurve, zero_mul, add_zero]
  rw [sq, pow_three']

/-- Away from characteristics two and three the curve is smooth unless `b` is zero. -/
theorem isElliptic_weierstrass (h2 : (2 : F) ≠ 0) (h3 : (3 : F) ≠ 0) (hb : b ≠ 0) :
    (weierstrass b).IsElliptic := by
  have hd : (weierstrass b).Δ = -(2 ^ 4 * 3 ^ 3 * b ^ 2) := by
    simp only [weierstrass, WeierstrassCurve.Δ, WeierstrassCurve.b₂, WeierstrassCurve.b₄,
      WeierstrassCurve.b₆, WeierstrassCurve.b₈]
    ring
  refine ⟨?_⟩
  rw [hd, isUnit_iff_ne_zero, neg_ne_zero]
  exact mul_ne_zero (mul_ne_zero (pow_ne_zero _ h2) (pow_ne_zero _ h3)) (pow_ne_zero _ hb)

@[simp] theorem negY_weierstrass (x y : F) : (weierstrass b).negY x y = -y := by
  simp [WeierstrassCurve.Affine.negY, weierstrass]

namespace Point

/-- The bare coordinates of a point of the curve. -/
def ofCurve : (weierstrass b).Point → Point F
  | .zero => infinity
  | .some x y _ => affine x y

@[simp] theorem ofCurve_zero : ofCurve (0 : (weierstrass b).Point) = infinity := rfl

@[simp] theorem ofCurve_some {x y : F} (h : (weierstrass b).Nonsingular x y) :
    ofCurve (.some x y h) = affine x y := rfl

theorem ofCurve_injective : Function.Injective (ofCurve (b := b)) := by
  intro S T h
  cases S <;> cases T <;> simp_all [ofCurve]

theorem onCurve_ofCurve (T : (weierstrass b).Point) : (ofCurve T).OnCurve b := by
  cases T with
  | zero => trivial
  | some x y h => exact equation_iff_onCurve.mp h.1

/-- On a smooth curve every solution of the equation is a point. -/
theorem exists_ofCurve [(weierstrass b).IsElliptic] {P : Point F} (h : P.OnCurve b) :
    ∃ T : (weierstrass b).Point, ofCurve T = P := by
  cases P with
  | infinity => exact ⟨0, rfl⟩
  | affine x y =>
    exact ⟨.some x y (equation_iff_nonsingular.mp (equation_iff_onCurve.mpr h)), rfl⟩

theorem ofCurve_neg (T : (weierstrass b).Point) : ofCurve (-T) = -ofCurve T := by
  cases T with
  | zero => rfl
  | some x y h =>
    rw [WeierstrassCurve.Affine.Point.neg_some, ofCurve_some, ofCurve_some, negY_weierstrass]
    rfl

variable [DecidableEq F]

@[simp] theorem infinity_add (P : Point F) : infinity + P = P := rfl

@[simp] theorem add_infinity (P : Point F) : P + infinity = P := by cases P <;> rfl

theorem affine_add_affine (x₁ y₁ x₂ y₂ : F) : affine x₁ y₁ + affine x₂ y₂ =
    if x₁ = x₂ then
      if y₁ = -y₂ then infinity
      else third ((x₁ * x₁ + x₁ * x₁ + x₁ * x₁) * (y₁ + y₁)⁻¹) x₁ y₁ x₂
    else third ((y₁ - y₂) * (x₁ - x₂)⁻¹) x₁ y₁ x₂ := rfl

/-- The slope of the line that addition draws, by cases on which line that is. -/
theorem third_slope {x₁ y₁ x₂ y₂ : F} (h : ¬(x₁ = x₂ ∧ y₁ = -y₂)) (hy : x₁ = x₂ → y₁ = y₂) :
    affine x₁ y₁ + affine x₂ y₂ = third ((weierstrass b).slope x₁ x₂ y₁ y₂) x₁ y₁ x₂ := by
  rw [affine_add_affine]
  by_cases hx : x₁ = x₂
  · have hne : y₁ ≠ -y₂ := fun hy' => h ⟨hx, hy'⟩
    obtain rfl := hy hx
    rw [if_pos hx, if_neg hne, slope_of_Y_ne hx (by rwa [negY_weierstrass]), negY_weierstrass,
      div_eq_mul_inv, sub_neg_eq_add]
    congr 2
    simp only [weierstrass]
    ring
  · rw [if_neg hx, slope_of_X_ne hx, div_eq_mul_inv]

theorem ofCurve_add (S T : (weierstrass b).Point) : ofCurve (S + T) = ofCurve S + ofCurve T := by
  cases S with
  | zero => exact congrArg ofCurve (zero_add T)
  | some x₁ y₁ h₁ =>
    cases T with
    | zero => exact (congrArg ofCurve (add_zero _)).trans (add_infinity _).symm
    | some x₂ y₂ h₂ =>
      by_cases h : x₁ = x₂ ∧ y₁ = -y₂
      · have hz : WeierstrassCurve.Affine.Point.some x₁ y₁ h₁ + .some x₂ y₂ h₂ = 0 :=
          WeierstrassCurve.Affine.Point.add_of_Y_eq h.1
            (h.2.trans (negY_weierstrass x₂ y₂).symm)
        rw [hz, ofCurve_zero, ofCurve_some, ofCurve_some, affine_add_affine, if_pos h.1,
          if_pos h.2]
      · have hn : ¬(x₁ = x₂ ∧ y₁ = (weierstrass b).negY x₂ y₂) := by rwa [negY_weierstrass]
        have hy : x₁ = x₂ → y₁ = y₂ := fun hx =>
          Y_eq_of_Y_ne h₁.1 h₂.1 hx (fun hy => hn ⟨hx, hy⟩)
        rw [WeierstrassCurve.Affine.Point.add_some hn, ofCurve_some, ofCurve_some, ofCurve_some,
          third_slope (b := b) h hy]
        simp only [third, addX, addY, negAddY, negY_weierstrass]
        simp only [weierstrass]
        congr 1 <;> ring

section Closure

variable [(weierstrass b).IsElliptic]

omit [DecidableEq F] in
theorem OnCurve.neg {P : Point F} (h : P.OnCurve b) : (-P).OnCurve b := by
  obtain ⟨S, rfl⟩ := exists_ofCurve h
  exact ofCurve_neg S ▸ onCurve_ofCurve (-S)

theorem OnCurve.add {P Q : Point F} (hP : P.OnCurve b) (hQ : Q.OnCurve b) : (P + Q).OnCurve b := by
  obtain ⟨S, rfl⟩ := exists_ofCurve hP
  obtain ⟨T, rfl⟩ := exists_ofCurve hQ
  exact ofCurve_add S T ▸ onCurve_ofCurve (S + T)

end Closure

end Point
end FoldingVerifier
