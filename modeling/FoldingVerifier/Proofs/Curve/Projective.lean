import FoldingVerifier.Proofs.Curve.Multiples
import FoldingVerifier.Proofs.Curve.Decoding

/-! Sums and multiples in homogeneous coordinates, without inversion: `(x, y, z)` stands for
the affine point `(x / z, y / z)`. Normalized afterwards, sums computed with these formulas
are those of chords and tangents, and multiples those of the group of the curve, so that the
interface on pairs of coordinates may be taken to compute in either way. Through it the pairs
form an abelian group: the pair of zeros, which is no solution of the curve equation, is its
identity. -/
namespace FoldingVerifier

universe u

structure Projective (F : Type u) where
  x : F
  y : F
  z : F

namespace Projective

section Formulas

variable {F : Type u} [Field F] [DecidableEq F]

def infinity : Projective F := ⟨1, 1, 0⟩

def ofPoint : Point F → Projective F
  | .infinity => infinity
  | .affine x y => ⟨x, y, 1⟩

/-- The point that the coordinates stand for. -/
def toPoint (P : Projective F) : Point F :=
  if P.z = 0 then .infinity else .affine (P.x / P.z) (P.y / P.z)

def double (P : Projective F) : Projective F :=
  let w := 3 * P.x * P.x
  let s := P.y * P.z
  let b := P.x * P.y * s
  let h := w * w - 8 * b
  let ss := s * s
  ⟨2 * h * s, w * (4 * b - h) - 8 * P.y * P.y * ss, 8 * s * ss⟩

/-- Equal points are doubled, opposite ones add to infinity, and infinity changes nothing. -/
def add (P Q : Projective F) : Projective F :=
  if P.z = 0 ∨ Q.z = 0 then
    if Q.z = 0 then P else Q
  else
    let u₁ := Q.y * P.z
    let u₂ := P.y * Q.z
    let v₁ := Q.x * P.z
    let v₂ := P.x * Q.z
    if v₁ = v₂ ∧ u₁ = u₂ then double P
    else if v₁ = v₂ then infinity
    else
      let u := u₁ - u₂
      let v := v₁ - v₂
      let vv := v * v
      let vvv₂ := vv * v₂
      let vvv := v * vv
      let w := P.z * Q.z
      let a := u * u * w - vvv - 2 * vvv₂
      ⟨v * a, u * (vvv₂ - a) - vvv * u₂, vvv * w⟩

/-- The `n`-fold multiple: half as many doubles, and one more point where `n` is odd. -/
def multiple (P : Projective F) (n : ℕ) : Projective F :=
  if n = 0 then infinity
  else if n = 1 then P
  else if n % 2 = 0 then multiple P.double (n / 2)
  else (multiple P.double (n / 2)).add P
termination_by n

@[simp] theorem toPoint_ofPoint (P : Point F) : (ofPoint P).toPoint = P := by
  cases P <;> simp [ofPoint, toPoint, infinity]

theorem toPoint_eq_infinity_iff (P : Projective F) : P.toPoint = .infinity ↔ P.z = 0 := by
  unfold toPoint
  split_ifs with h <;> simp [h]

/-- The coordinates of an affine point, multiplied up by `z`. -/
theorem toPoint_eq_affine_iff (P : Projective F) (x y : F) :
    P.toPoint = .affine x y ↔ P.z ≠ 0 ∧ P.x = x * P.z ∧ P.y = y * P.z := by
  unfold toPoint
  split_ifs with h
  · simp [h]
  · simp [h, div_eq_iff]

/-- The point is looked at in the form that suits its case. -/
theorem toPoint_cases (P : Projective F) : (P.z = 0 ∧ P.toPoint = .infinity) ∨
    ∃ x y, P.z ≠ 0 ∧ P.x = x * P.z ∧ P.y = y * P.z ∧ P.toPoint = .affine x y := by
  cases h : P.toPoint with
  | infinity => exact .inl ⟨P.toPoint_eq_infinity_iff.mp h, rfl⟩
  | affine x y =>
    obtain ⟨hz, hx, hy⟩ := (P.toPoint_eq_affine_iff x y).mp h
    exact .inr ⟨x, y, hz, hx, hy, rfl⟩

theorem toPoint_double (h2 : (2 : F) ≠ 0) (P : Projective F) :
    P.double.toPoint = P.toPoint + P.toPoint := by
  rcases P.toPoint_cases with ⟨hz, hp⟩ | ⟨x, y, hz, hx, hy, hp⟩
  · rw [hp, Point.infinity_add, toPoint_eq_infinity_iff]
    simp [double, hz]
  rw [hp, Point.affine_add_affine, if_pos rfl]
  by_cases h0 : y = 0
  · rw [if_pos (by simp [h0]), toPoint_eq_infinity_iff]
    simp [double, hy, h0]
  have hyy : y + y ≠ 0 := by
    rw [← two_mul]
    exact mul_ne_zero h2 h0
  have h8 : (8 : F) ≠ 0 := by
    have hcube := pow_ne_zero 3 h2
    norm_num at hcube
    exact hcube
  -- only that the slope times `y + y` is `3x²` matters from here on
  obtain ⟨m, hm⟩ : ∃ m, m = (x * x + x * x + x * x) * (y + y)⁻¹ := ⟨_, rfl⟩
  have hs : m * (y + y) = x * x + x * x + x * x := by
    rw [hm, mul_assoc, inv_mul_cancel₀ hyy, mul_one]
  rw [if_neg (fun h => hyy (add_eq_zero_iff_eq_neg.mpr h)), ← hm, Point.third,
    toPoint_eq_affine_iff]
  simp only [double, hx, hy]
  refine ⟨?_, ?_, ?_⟩
  · simp [h8, h0, hz]
  · linear_combination (-2 * P.z ^ 6 * y * (3 * x ^ 2 + 2 * m * y)) * hs
  · linear_combination (-P.z ^ 6 * (12 * x * y ^ 2 -
      ((3 * x ^ 2) ^ 2 + 3 * x ^ 2 * (2 * m * y) + (2 * m * y) ^ 2))) * hs

variable {b : F}

theorem toPoint_add (h2 : (2 : F) ≠ 0) {P Q : Projective F} (hP : P.toPoint.OnCurve b)
    (hQ : Q.toPoint.OnCurve b) : (P.add Q).toPoint = P.toPoint + Q.toPoint := by
  rcases P.toPoint_cases with ⟨hPz, hp⟩ | ⟨x₁, y₁, hPz, hPx, hPy, hp⟩
  · rw [add, if_pos (.inl hPz), hp, Point.infinity_add]
    split_ifs with hQz
    · rw [hp, ((toPoint_eq_infinity_iff Q).mpr hQz)]
    · rfl
  rcases Q.toPoint_cases with ⟨hQz, hq⟩ | ⟨x₂, y₂, hQz, hQx, hQy, hq⟩
  · rw [add, if_pos (.inr hQz), if_pos hQz, hq, Point.add_infinity]
  -- over the common denominator the comparisons are those of the affine coordinates
  have hw : P.z * Q.z ≠ 0 := mul_ne_zero hPz hQz
  have hv₁ : Q.x * P.z = x₂ * (P.z * Q.z) := by rw [hQx]; ring
  have hv₂ : P.x * Q.z = x₁ * (P.z * Q.z) := by rw [hPx]; ring
  have hu₁ : Q.y * P.z = y₂ * (P.z * Q.z) := by rw [hQy]; ring
  have hu₂ : P.y * Q.z = y₁ * (P.z * Q.z) := by rw [hPy]; ring
  rw [add, if_neg (by simp [hPz, hQz])]
  simp only [hv₁, hv₂, hu₁, hu₂, mul_left_inj' hw]
  by_cases hx : x₂ = x₁
  · subst hx
    by_cases hy : y₂ = y₁
    · rw [if_pos ⟨rfl, hy⟩, toPoint_double h2, hp, hq, hy]
    · rw [hp] at hP ⊢
      rw [hq] at hQ ⊢
      rw [if_neg (by simp [hy]), if_pos rfl, Point.affine_add_affine, if_pos rfl,
        if_pos (Jacobian.eq_neg_of_onCurve hP hQ (Ne.symm hy)), toPoint_eq_infinity_iff]
      rfl
  · have hd : x₁ - x₂ ≠ 0 := sub_ne_zero.mpr (Ne.symm hx)
    obtain ⟨m, hm⟩ : ∃ m, m = (y₁ - y₂) * (x₁ - x₂)⁻¹ := ⟨_, rfl⟩
    have hs : y₂ = y₁ - m * (x₁ - x₂) := by
      rw [hm, mul_assoc, inv_mul_cancel₀ hd, mul_one, sub_sub_cancel]
    rw [if_neg (by simp [hx]), if_neg hx, hp, hq, Point.affine_add_affine, if_neg (Ne.symm hx),
      ← hm, Point.third, toPoint_eq_affine_iff]
    refine ⟨?_, ?_, ?_⟩
    · simp [← sub_mul, sub_ne_zero.mpr hx, hPz, hQz]
    · rw [hs]
      ring
    · rw [hs]
      ring

theorem toPoint_multiple (h2 : (2 : F) ≠ 0) {P : Projective F} {T : (weierstrass b).Point}
    (hT : P.toPoint = Point.ofCurve T) (n : ℕ) :
    (P.multiple n).toPoint = Point.ofCurve (n • T) := by
  have hdouble {P : Projective F} {T : (weierstrass b).Point} (hT : P.toPoint = Point.ofCurve T) :
      P.double.toPoint = Point.ofCurve (2 • T) := by
    rw [toPoint_double h2, hT, ← Point.ofCurve_add, two_nsmul]
  fun_induction multiple P n generalizing T with
  | case1 P => rw [zero_nsmul, Point.ofCurve_zero, toPoint_eq_infinity_iff, infinity]
  | case2 P => rw [one_nsmul, hT]
  | case3 P n h0 h1 heven ih =>
    have hn : n = n / 2 * 2 := by omega
    rw [ih (hdouble hT), ← mul_nsmul', ← hn]
  | case4 P n h0 h1 hodd ih =>
    have hn : n = n / 2 * 2 + 1 := by omega
    have hhalf : ((multiple P.double (n / 2))).toPoint = Point.ofCurve ((n / 2 * 2) • T) := by
      rw [ih (hdouble hT), ← mul_nsmul']
    rw [toPoint_add h2 (b := b) (hhalf ▸ Point.onCurve_ofCurve _) (hT ▸ Point.onCurve_ofCurve _),
      hhalf, hT, ← Point.ofCurve_add, ← succ_nsmul, ← hn]

theorem toPoint_multiple_ofPoint [(weierstrass b).IsElliptic] (h2 : (2 : F) ≠ 0) {P : Point F}
    (hP : P.OnCurve b) (n : ℕ) : ((ofPoint P).multiple n).toPoint = P.mul n := by
  obtain ⟨T, rfl⟩ := Point.exists_ofCurve hP
  rw [toPoint_multiple h2 (toPoint_ofPoint _), Point.mul_ofCurve h2]

end Formulas

end Projective

namespace G1Coords

/-- The sum, computed in homogeneous coordinates and normalized. -/
def addProjective (P Q : G1Coords) : Except Fault G1Coords := do
  let p ← P.decode
  let q ← Q.decode
  return ((Projective.ofPoint p.point).add (Projective.ofPoint q.point)).toPoint.coords

theorem addProjective_eq (P Q : G1Coords) : P.addProjective Q = P.add Q := by
  have hsum (p q : G1) :
      ((Projective.ofPoint p.point).add (Projective.ofPoint q.point)).toPoint =
        p.point + q.point := by
    rw [Projective.toPoint_add two_ne_zero_fq (b := g1Coefficient)]
    · simp
    · simpa using p.onCurve
    · simpa using q.onCurve
  simp only [addProjective, add, hsum]

/-- The pairs of coordinates that are valid form an abelian group, in which a pair stands for
one element only: sums and opposites are never refused, whichever of the operands are equal,
opposite or the pair of zeros. -/
theorem abelian_group_laws {P Q R : G1Coords} (hP : P.Valid) (hQ : Q.Valid) (hR : R.Valid) :
    (∃ S, P.add Q = .ok S ∧ S.Valid) ∧
    (∃ S, P.negate = .ok S ∧ S.Valid) ∧
    P.addProjective Q = P.add Q ∧
    P.add Q = Q.add P ∧
    (do (← P.add Q).add R) = (do P.add (← Q.add R)) ∧
    P.add identity = .ok P ∧
    (do P.add (← P.negate)) = .ok identity ∧
    (do (← P.negate).negate) = .ok P ∧
    (do (← P.add Q).negate) = (do (← P.negate).add (← Q.negate)) ∧
    (P.add Q = .ok identity ↔ P.negate = .ok Q) ∧
    (P.element = Q.element ↔ P = Q) := by
  obtain ⟨p, rfl⟩ := (valid_iff P).mp hP
  obtain ⟨q, rfl⟩ := (valid_iff Q).mp hQ
  obtain ⟨r, rfl⟩ := (valid_iff R).mp hR
  have hreturns (a : G1Coords) (f : G1Coords → Except Fault G1Coords) :
      (Except.ok a >>= f) = f a := rfl
  have hidentity : identity = (0 : G1).coords := rfl
  simp only [addProjective_eq, hidentity, coords_add_coords, negate_coords, hreturns,
    element_coords, Except.ok.injEq, G1.coords_injective.eq_iff]
  refine ⟨⟨_, rfl, valid_coords _⟩, ⟨_, rfl, valid_coords _⟩, trivial, ?_, ?_, ?_, ?_, ?_, ?_, ?_,
    trivial⟩
  · exact add_comm p q
  · exact add_assoc p q r
  · exact add_zero p
  · exact add_neg_cancel p
  · exact neg_neg p
  · exact neg_add p q
  · exact add_eq_zero_iff_neg_eq

/-- The generator between its opposite and itself: one of the sums on the way is the identity,
the other a double. -/
theorem abelian_group_laws_opposites :
    generator.Valid ∧ (⟨1, baseOrder - 2⟩ : G1Coords).Valid ∧
    (do (← add ⟨1, baseOrder - 2⟩ generator).add generator) =
      (do add ⟨1, baseOrder - 2⟩ (← generator.add generator)) ∧
    add ⟨1, baseOrder - 2⟩ generator = .ok identity ∧
    generator.addProjective generator = generator.add generator := by
  have hopposite : (⟨1, baseOrder - 2⟩ : G1Coords).Valid := by
    unfold Valid
    decide
  obtain ⟨-, -, -, -, hassoc, -, -, -, -, hzero, -⟩ :=
    abelian_group_laws hopposite valid_generator valid_generator
  obtain ⟨-, -, hprojective, -⟩ :=
    abelian_group_laws valid_generator valid_generator valid_generator
  exact ⟨valid_generator, hopposite, hassoc, hzero.mpr (by decide), hprojective⟩

end G1Coords
end FoldingVerifier
