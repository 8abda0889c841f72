import FoldingVerifier.Curve.G1
import FoldingVerifier.Proofs.Curve.Count
import FoldingVerifier.Proofs.Curve.Multiples
import FoldingVerifier.Proofs.Field.Primality

/-! The first source group is a group of prime order. It takes its laws from the
curve, with the operations that the verifiers run. Its order divides twice the
number of coordinates plus one and is a multiple of the scalar order; a cube root of
`-3` would be needed for it to be twice that. -/
namespace FoldingVerifier

open WeierstrassCurve.Affine

theorem two_ne_zero_fq : (2 : Fq) ≠ 0 := by decide +kernel
theorem three_ne_zero_fq : (3 : Fq) ≠ 0 := by decide +kernel
theorem g1Coefficient_ne_zero : g1Coefficient ≠ 0 := by decide +kernel

instance : (weierstrass g1Coefficient).IsElliptic :=
  isElliptic_weierstrass two_ne_zero_fq three_ne_zero_fq g1Coefficient_ne_zero

namespace G1

@[ext] theorem ext {P Q : G1} (h : P.point = Q.point) : P = Q := by
  cases P; cases Q; cases h; rfl

/-- A point of the curve as a member of the group. -/
def ofCurve (T : (weierstrass g1Coefficient).Point) : G1 :=
  ⟨Point.ofCurve T, Point.onCurve_ofCurve T⟩

theorem ofCurve_injective : Function.Injective ofCurve := fun _ _ h =>
  Point.ofCurve_injective (congrArg point h)

theorem ofCurve_surjective : Function.Surjective ofCurve := by
  intro P
  obtain ⟨T, hT⟩ := Point.exists_ofCurve P.onCurve
  exact ⟨T, ext hT⟩

instance : Add G1 := ⟨fun P Q => ⟨P.point + Q.point, P.onCurve.add Q.onCurve⟩⟩
instance : Neg G1 := ⟨fun P => ⟨-P.point, P.onCurve.neg⟩⟩
instance : Sub G1 := ⟨fun P Q => P + -Q⟩
instance : SMul ℕ G1 := ⟨fun n P => ⟨P.point.mul n, P.onCurve.mul two_ne_zero_fq n⟩⟩
instance : SMul ℤ G1 := ⟨fun
  | .ofNat n, P => n • P
  | .negSucc n, P => -((n + 1) • P)⟩

theorem ofCurve_add (S T : (weierstrass g1Coefficient).Point) :
    ofCurve (S + T) = ofCurve S + ofCurve T := ext (Point.ofCurve_add S T)

theorem ofCurve_neg (T : (weierstrass g1Coefficient).Point) : ofCurve (-T) = -ofCurve T :=
  ext (Point.ofCurve_neg T)

theorem ofCurve_nsmul (T : (weierstrass g1Coefficient).Point) (n : ℕ) :
    ofCurve (n • T) = n • ofCurve T := ext (Point.mul_ofCurve two_ne_zero_fq T n).symm

theorem ofCurve_zsmul (T : (weierstrass g1Coefficient).Point) (n : ℤ) :
    ofCurve (n • T) = n • ofCurve T := by
  cases n with
  | ofNat n => exact (congrArg ofCurve (natCast_zsmul T n)).trans (ofCurve_nsmul T n)
  | negSucc n =>
    rw [negSucc_zsmul, ofCurve_neg, ofCurve_nsmul]
    rfl

instance : AddCommGroup G1 :=
  ofCurve_surjective.addCommGroup ofCurve rfl ofCurve_add ofCurve_neg
    (fun S T => by rw [sub_eq_add_neg, ofCurve_add, ofCurve_neg]; rfl)
    (fun T n => ofCurve_nsmul T n) (fun T n => ofCurve_zsmul T n)

@[simp] theorem point_zero : (0 : G1).point = .infinity := rfl
@[simp] theorem point_add (P Q : G1) : (P + Q).point = P.point + Q.point := rfl
@[simp] theorem point_neg (P : G1) : (-P).point = -P.point := rfl
@[simp] theorem point_nsmul (P : G1) (n : ℕ) : (n • P).point = P.point.mul n := rfl

instance : Finite G1 := Finite.of_surjective _ ofCurve_surjective

def generator : G1 :=
  ⟨.affine (Residue.ofNat baseOrder 1) (Residue.ofNat baseOrder 2), by decide +kernel⟩

theorem generator_ne_zero : generator ≠ 0 := fun h => by
  have hp := congrArg point h
  cases hp

theorem annihilated_iff (P : G1) (n : ℕ) : P.point.Annihilated n ↔ n • P = 0 := by
  obtain ⟨S, rfl⟩ := ofCurve_surjective P
  rw [← ofCurve_nsmul, show (0 : G1) = ofCurve 0 from rfl, ofCurve_injective.eq_iff]
  exact Point.annihilated_ofCurve_iff two_ne_zero_fq S n

theorem scalarOrder_nsmul_generator : scalarOrder • generator = 0 :=
  (annihilated_iff _ _).mp (by decide +kernel)

theorem card_le : Nat.card G1 ≤ 2 * baseOrder + 1 := by
  rw [← Nat.card_eq_of_bijective _ ⟨ofCurve_injective, ofCurve_surjective⟩]
  have h := card_curve_le (b := g1Coefficient)
  rwa [Residue.card_residue] at h

/-- Fermat shows that `-3` is no cube. -/
theorem cube_ne_neg_three (x : Fq) : x * x * x ≠ -3 := by
  intro h
  by_cases hx : x = 0
  · rw [hx, mul_zero] at h
    exact neg_ne_zero.mpr three_ne_zero_fq h.symm
  · have hz : Residue.toZMod x ≠ 0 := fun h0 =>
      hx (Residue.toZMod_injective (h0.trans Residue.toZMod_zero.symm))
    have he : 3 * ((baseOrder - 1) / 3) = baseOrder - 1 := by decide
    have hone : (-3 : Fq).pow ((baseOrder - 1) / 3) = 1 := by
      apply Residue.toZMod_injective
      rw [← h, Residue.toZMod_pow, Residue.toZMod_mul, Residue.toZMod_mul, ← pow_three', ← pow_mul,
        he, ZMod.pow_card_sub_one_eq_one hz, Residue.toZMod_one]
    have hne : (-3 : Fq).pow ((baseOrder - 1) / 3) ≠ 1 := by decide +kernel
    exact hne hone

/-- A point that is its own opposite would have ordinate zero. -/
theorem eq_zero_of_two_nsmul {P : G1} (h : 2 • P = 0) : P = 0 := by
  have hself : P = -P := by
    rw [two_nsmul] at h
    exact eq_neg_of_add_eq_zero_left h
  obtain ⟨p, hp⟩ := P
  cases p with
  | infinity => rfl
  | affine x y =>
    have hy : y = -y := congrArg (fun Q : G1 => match Q.point with
      | .affine _ y => y
      | .infinity => 0) hself
    have h0 : y = 0 := by
      have h2 : (2 : Fq) * y = 0 := by rw [two_mul]; exact add_eq_zero_iff_eq_neg.mpr hy
      exact (mul_eq_zero.mp h2).resolve_left two_ne_zero_fq
    have hc : y * y = x * x * x + g1Coefficient := hp
    rw [h0, mul_zero] at hc
    exact absurd (eq_neg_of_add_eq_zero_left hc.symm) (cube_ne_neg_three x)

theorem card_eq : Nat.card G1 = scalarOrder := by
  have hd := dvd_card_of_annihilated scalarOrder_prime scalarOrder_nsmul_generator
    generator_ne_zero
  obtain ⟨m, hm⟩ := hd
  have hle := card_le
  have hpos : 0 < Nat.card G1 := Nat.card_pos
  have hm3 : m < 3 := by
    by_contra h
    have h3 : scalarOrder * 3 ≤ scalarOrder * m := Nat.mul_le_mul_left _ (not_lt.mp h)
    have hlt : 2 * baseOrder + 1 < scalarOrder * 3 := by decide
    omega
  have hm2 : m ≠ 2 := by
    rintro rfl
    have : Fintype G1 := Fintype.ofFinite G1
    have h2 : 2 ∣ Fintype.card G1 := by
      rw [← Nat.card_eq_fintype_card, hm]
      exact Nat.dvd_mul_left 2 scalarOrder
    obtain ⟨P, hP⟩ := exists_prime_addOrderOf_dvd_card 2 h2
    have hz : 2 • P = 0 := hP ▸ addOrderOf_nsmul_eq_zero P
    rw [eq_zero_of_two_nsmul hz, addOrderOf_zero] at hP
    omega
  have hm0 : m ≠ 0 := by
    rintro rfl
    omega
  have hm1 : m = 1 := by omega
  rw [hm, hm1, mul_one]

theorem scalarOrder_nsmul (P : G1) : scalarOrder • P = 0 := by
  rw [← card_eq]
  exact card_nsmul_eq_zero'

theorem emod_zsmul (P : G1) (s : ℤ) : (s % scalarOrder) • P = s • P := by
  have hz : (scalarOrder : ℤ) • P = 0 := by rw [natCast_zsmul, scalarOrder_nsmul]
  conv_rhs => rw [← Int.emod_add_mul_ediv s scalarOrder]
  rw [add_zsmul, mul_comm, mul_zsmul, hz, zsmul_zero, add_zero]

theorem zsmul_congr {m n : ℤ} (h : m ≡ n [ZMOD scalarOrder]) (P : G1) : m • P = n • P := by
  rw [← emod_zsmul P m, ← emod_zsmul P n, h]

/-- The multiple by an integer is the one that the verifiers compute. -/
theorem point_zsmul (P : G1) (s : ℤ) : (s • P).point = P.point.scale s := by
  have hn : ((Residue.ofInt scalarOrder s).val : ℤ) = s % scalarOrder := Residue.val_ofInt s
  rw [← emod_zsmul, ← hn, natCast_zsmul]
  rfl

/-- A multiple of an element other than the identity is the identity for multiples of the
group order only. -/
theorem zsmul_eq_zero_iff {P : G1} (hP : P ≠ 0) {n : ℤ} : n • P = 0 ↔ (scalarOrder : ℤ) ∣ n := by
  have hp : Fact scalarOrder.Prime := ⟨scalarOrder_prime⟩
  have horder : addOrderOf P = scalarOrder := addOrderOf_eq_prime (scalarOrder_nsmul P) hP
  rw [← horder]
  exact addOrderOf_dvd_iff_zsmul_eq_zero.symm

end G1
end FoldingVerifier
