import FoldingVerifier.Curve.G2
import FoldingVerifier.Proofs.Curve.Count
import FoldingVerifier.Proofs.Curve.Multiples
import FoldingVerifier.Proofs.Field.Extension

/-! The second source group is a group of prime order too. It is the part of the twist
that the scalar order annihilates. The square of that order does not divide the number
of points of the twist: a point of another small order would make that number larger
than it can be. -/
namespace FoldingVerifier

open WeierstrassCurve.Affine

theorem two_ne_zero_fq2 : (2 : Fq2) ≠ 0 := by decide +kernel
theorem three_ne_zero_fq2 : (3 : Fq2) ≠ 0 := by decide +kernel
theorem twistCoefficient_ne_zero : twistCoefficient ≠ 0 := by decide +kernel

instance : (weierstrass twistCoefficient).IsElliptic :=
  isElliptic_weierstrass two_ne_zero_fq2 three_ne_zero_fq2 twistCoefficient_ne_zero

/-- The points of the twist that the scalar order annihilates. -/
abbrev twistTorsion : AddSubgroup (weierstrass twistCoefficient).Point :=
  torsion (weierstrass twistCoefficient).Point scalarOrder

theorem annihilated_iff_mem_twistTorsion (T : (weierstrass twistCoefficient).Point) :
    (Point.ofCurve T).Annihilated scalarOrder ↔ T ∈ twistTorsion :=
  Point.annihilated_ofCurve_iff two_ne_zero_fq2 T scalarOrder

namespace G2

@[ext] theorem ext {P Q : G2} (h : P.point = Q.point) : P = Q := by
  cases P; cases Q; cases h; rfl

/-- A point of the subgroup as a member of the group. -/
def ofCurve (T : twistTorsion) : G2 :=
  ⟨Point.ofCurve T.1, Point.onCurve_ofCurve T.1, (annihilated_iff_mem_twistTorsion T.1).mpr T.2⟩

theorem ofCurve_injective : Function.Injective ofCurve := fun _ _ h =>
  Subtype.ext (Point.ofCurve_injective (congrArg point h))

theorem ofCurve_surjective : Function.Surjective ofCurve := by
  rintro ⟨p, hc, ha⟩
  obtain ⟨T, rfl⟩ := Point.exists_ofCurve hc
  exact ⟨⟨T, (annihilated_iff_mem_twistTorsion T).mp ha⟩, rfl⟩

theorem add_annihilated (P Q : G2) : (P.point + Q.point).Annihilated scalarOrder := by
  obtain ⟨S, rfl⟩ := ofCurve_surjective P
  obtain ⟨T, rfl⟩ := ofCurve_surjective Q
  exact Point.ofCurve_add S.1 T.1 ▸ (ofCurve (S + T)).inSubgroup

theorem neg_annihilated (P : G2) : (-P.point).Annihilated scalarOrder := by
  obtain ⟨S, rfl⟩ := ofCurve_surjective P
  exact Point.ofCurve_neg S.1 ▸ (ofCurve (-S)).inSubgroup

theorem mul_annihilated (P : G2) (n : ℕ) : (P.point.mul n).Annihilated scalarOrder := by
  obtain ⟨S, rfl⟩ := ofCurve_surjective P
  exact Point.mul_ofCurve two_ne_zero_fq2 S.1 n ▸ (ofCurve (n • S)).inSubgroup

instance : Add G2 :=
  ⟨fun P Q => ⟨P.point + Q.point, P.onCurve.add Q.onCurve, add_annihilated P Q⟩⟩
instance : Neg G2 := ⟨fun P => ⟨-P.point, P.onCurve.neg, neg_annihilated P⟩⟩
instance : Sub G2 := ⟨fun P Q => P + -Q⟩
instance : SMul ℕ G2 :=
  ⟨fun n P => ⟨P.point.mul n, P.onCurve.mul two_ne_zero_fq2 n, mul_annihilated P n⟩⟩
instance : SMul ℤ G2 := ⟨fun
  | .ofNat n, P => n • P
  | .negSucc n, P => -((n + 1) • P)⟩

theorem ofCurve_add (S T : twistTorsion) : ofCurve (S + T) = ofCurve S + ofCurve T :=
  ext (Point.ofCurve_add S.1 T.1)

theorem ofCurve_neg (T : twistTorsion) : ofCurve (-T) = -ofCurve T := ext (Point.ofCurve_neg T.1)

theorem ofCurve_nsmul (T : twistTorsion) (n : ℕ) : ofCurve (n • T) = n • ofCurve T :=
  ext (Point.mul_ofCurve two_ne_zero_fq2 T.1 n).symm

theorem ofCurve_zsmul (T : twistTorsion) (n : ℤ) : ofCurve (n • T) = n • ofCurve T := by
  cases n with
  | ofNat n => exact (congrArg ofCurve (natCast_zsmul T n)).trans (ofCurve_nsmul T n)
  | negSucc n =>
    rw [negSucc_zsmul, ofCurve_neg, ofCurve_nsmul]
    rfl

instance : AddCommGroup G2 :=
  ofCurve_surjective.addCommGroup ofCurve rfl ofCurve_add ofCurve_neg
    (fun S T => by rw [sub_eq_add_neg, ofCurve_add, ofCurve_neg]; rfl)
    (fun T n => ofCurve_nsmul T n) (fun T n => ofCurve_zsmul T n)

@[simp] theorem point_zero : (0 : G2).point = .infinity := rfl
@[simp] theorem point_add (P Q : G2) : (P + Q).point = P.point + Q.point := rfl
@[simp] theorem point_neg (P : G2) : (-P).point = -P.point := rfl
@[simp] theorem point_nsmul (P : G2) (n : ℕ) : (n • P).point = P.point.mul n := rfl

instance : Finite G2 := Finite.of_surjective _ ofCurve_surjective

theorem scalarOrder_nsmul (P : G2) : scalarOrder • P = 0 := by
  obtain ⟨S, rfl⟩ := ofCurve_surjective P
  have hS : scalarOrder • S = 0 := by
    apply Subtype.ext
    rw [AddSubgroup.coe_nsmul]
    exact mem_torsion_iff.mp S.2
  rw [← ofCurve_nsmul, hS]
  rfl

set_option maxRecDepth 10000 in
/-- The member with the coordinates of the generator. -/
def generator : G2 where
  point := .affine (Fq2.ofNats
      10857046999023057135944570762232829481370756359578518086990519993285655852781
      11559732032986387107991004021392285783925812861821192530917403151452391805634)
    (Fq2.ofNats
      8495653923123431417604973247489272438418190587263600148770280649306958101930
      4082367875863433681332203403145435568316851327593401208105741076214120093531)
  onCurve := by decide +kernel
  inSubgroup := by decide +kernel

theorem generator_ne_zero : generator ≠ 0 := fun h => by
  have hp := congrArg point h
  cases hp

/-- A point of the twist whose order divides its cofactor. -/
def strayPoint : Point Fq2 :=
  .affine (Fq2.ofNats
      17104313122165765134751071573954397998910742057160586741504431865092530247148
      6803298140907275052193374279696798829244532018046680484422159498316181153049)
    (Fq2.ofNats
      20929228109215085641673534002875667749781168108789068628040984026599887111329
      717535573572059415844575060885625982841398457036564749994433381333260146759)

theorem prime_strayOrder : Nat.Prime 10069 := by norm_num

theorem strayOrder_dvd_card : 10069 ∣ Nat.card (weierstrass twistCoefficient).Point := by
  have hc : strayPoint.OnCurve twistCoefficient := by decide +kernel
  have ha : strayPoint.Annihilated 10069 := by decide +kernel
  obtain ⟨T, hT⟩ := Point.exists_ofCurve hc
  rw [← hT, Point.annihilated_ofCurve_iff two_ne_zero_fq2] at ha
  have hne : T ≠ 0 := by
    rintro rfl
    cases hT
  exact dvd_card_of_annihilated prime_strayOrder ha hne

theorem not_sq_dvd_card : ¬scalarOrder ^ 2 ∣ Nat.card (weierstrass twistCoefficient).Point := by
  intro h
  have hco : Nat.Coprime (scalarOrder ^ 2) 10069 :=
    ((Nat.coprime_primes scalarOrder_prime prime_strayOrder).mpr (by decide)).pow_left 2
  have hd := hco.mul_dvd_of_dvd_of_dvd h strayOrder_dvd_card
  have hle := Nat.le_of_dvd Nat.card_pos hd
  have hub := card_curve_le (b := twistCoefficient)
  rw [card_fq2] at hub
  have hlt : 2 * baseOrder ^ 2 + 1 < scalarOrder ^ 2 * 10069 := by decide +kernel
  omega

theorem card_eq : Nat.card G2 = scalarOrder := by
  rw [← Nat.card_eq_of_bijective _ ⟨ofCurve_injective, ofCurve_surjective⟩]
  obtain ⟨⟨g, hg⟩, hgen⟩ := ofCurve_surjective generator
  refine card_torsion_eq scalarOrder_prime (g := g) hg ?_ not_sq_dvd_card
  rintro rfl
  exact generator_ne_zero hgen.symm

end G2
end FoldingVerifier
