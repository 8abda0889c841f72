import FoldingVerifier.Proofs.Curve.Projective
import Mathlib.NumberTheory.Zsqrtd.GaussianInt

/-! Membership in the second group. The extension of the base field by `i` is the ring of
Gaussian integers modulo the base order, so that the equation of the twist is a divisibility
between integers. The order of a point is asked of a multiple that is reached by doubling and
adding; whichever coordinates that is done in, the multiple is the sum of as many copies, and
the coordinates that pass are those of the subgroup and no others. -/
namespace FoldingVerifier

namespace Fq2

/-- The residue of a Gaussian integer. -/
def ofGaussian : GaussianInt →+* Fq2 :=
  Zsqrtd.lift ⟨⟨0, 1⟩, by decide +kernel⟩

theorem ofGaussian_apply (a : GaussianInt) :
    ofGaussian a = ⟨Residue.ofInt baseOrder a.re, Residue.ofInt baseOrder a.im⟩ := by
  have hre (n : ℤ) : ((n : Fq2)).re = Residue.ofInt baseOrder n := rfl
  have him (n : ℤ) : ((n : Fq2)).im = 0 := rfl
  change ((a.re : ℤ) : Fq2) + (a.im : ℤ) * (⟨0, 1⟩ : Fq2) = _
  ext1
  · simp [hre, him]
  · simp [hre, him]

/-- The residues are those modulo the base order. -/
theorem ofGaussian_eq_zero_iff (a : GaussianInt) :
    ofGaussian a = 0 ↔ (baseOrder : GaussianInt) ∣ a := by
  have hdvd := Zsqrtd.intCast_dvd (baseOrder : ℤ) a
  rw [Int.cast_natCast] at hdvd
  rw [hdvd, ofGaussian_apply, ← Residue.ofInt_eq_zero_iff, ← Residue.ofInt_eq_zero_iff,
    Quadratic.ext_iff]
  rfl

end Fq2

namespace G2Coords

/-- The equation `y² = x³ + 3 / (9 + i)`, multiplied out. -/
def OnTwist (Q : G2Coords) : Prop :=
  let x : GaussianInt := ⟨Q.x0, Q.x1⟩
  let y : GaussianInt := ⟨Q.y0, Q.y1⟩
  (baseOrder : GaussianInt) ∣ ⟨9, 1⟩ * (y ^ 2 - x ^ 3) - ⟨3, 0⟩

theorem xi_mul_twistCoefficient :
    Fq2.ofGaussian ⟨9, 1⟩ * twistCoefficient = Fq2.ofGaussian ⟨3, 0⟩ := by
  decide +kernel

theorem onTwist_iff (Q : G2Coords) : Q.OnTwist ↔ Q.affinePoint.OnCurve twistCoefficient := by
  have hxi : Fq2.ofGaussian ⟨9, 1⟩ ≠ 0 := by decide +kernel
  have hx := Fq2.ofGaussian_apply ⟨Q.x0, Q.x1⟩
  have hy := Fq2.ofGaussian_apply ⟨Q.y0, Q.y1⟩
  rw [OnTwist, ← Fq2.ofGaussian_eq_zero_iff, affinePoint, Point.OnCurve, ← hx, ← hy]
  simp only [map_sub, map_mul, map_pow]
  rw [← xi_mul_twistCoefficient, ← mul_sub, mul_eq_zero, or_iff_right hxi, sub_sub, sub_eq_zero,
    sq, pow_three']

/-- The point that coordinates denote, the zeros being those of infinity. -/
def point (Q : G2Coords) : Point Fq2 := if Q = identity then .infinity else Q.affinePoint

/-- As many copies as the scalar order has units add to infinity. -/
def Vanishes (Q : G2Coords) : Prop := Point.nsmul scalarOrder Q.affinePoint = .infinity

variable {Q : G2Coords}

theorem OnTwist.annihilated_iff (h : Q.OnTwist) :
    Q.affinePoint.Annihilated scalarOrder ↔ Q.Vanishes :=
  annihilated_iff_nsmul ((onTwist_iff Q).mp h)

theorem valid_iff_vanishes (Q : G2Coords) :
    Q.Valid ↔ Q.InRange ∧ (Q = identity ∨ Q.OnTwist ∧ Q.Vanishes) := by
  rw [Valid, onTwist_iff, Vanishes]

theorem defect_eq_coordinateRange_iff :
    Q.defect = some (.coordinateRange .g2) ↔ ¬Q.InRange := by
  unfold defect
  split_ifs <;> simp_all

theorem defect_eq_offCurve_iff :
    Q.defect = some (.offCurve .g2) ↔ Q.InRange ∧ Q ≠ identity ∧ ¬Q.OnTwist := by
  rw [onTwist_iff]
  unfold defect
  split_ifs <;> simp_all

theorem defect_eq_wrongSubgroup_iff :
    Q.defect = some .wrongSubgroup ↔ Q.InRange ∧ Q ≠ identity ∧ Q.OnTwist ∧ ¬Q.Vanishes := by
  have hvanishes : Q.OnTwist ∧ ¬Q.Vanishes ↔
      Q.affinePoint.OnCurve twistCoefficient ∧ ¬Q.affinePoint.Annihilated scalarOrder := by
    rw [← onTwist_iff]
    exact and_congr_right fun h => not_congr h.annihilated_iff.symm
  rw [hvanishes]
  unfold defect
  split_ifs <;> simp_all

theorem validate_eq (Q : G2Coords) :
    Q.validate = (refuse (Q.defect.map .point)).map fun _ => Q := by
  change Q.decode >>= (fun _ => .ok Q) = _
  rw [decode_eq]
  cases Q.defect <;> rfl

theorem validate_eq_ok_iff {R : G2Coords} : Q.validate = .ok R ↔ R = Q ∧ Q.Valid := by
  rw [validate_eq, ← defect_eq_none_iff]
  cases Q.defect with
  | none => simp [refuse, Except.map, eq_comm]
  | some c => simp [refuse, Except.map]

/-- The fault is that of a malformed point, with the given wording. -/
def Refused (Q : G2Coords) (wording : String) : Prop :=
  ∃ c : PointFault, Q.validate = .error (.point c) ∧ c.message = wording

theorem validate_eq_error_iff {c : PointFault} :
    Q.validate = .error (.point c) ↔ Q.defect = some c := by
  rw [validate_eq]
  cases Q.defect with
  | none => simp [refuse, Except.map]
  | some d => simp [refuse, Except.map]

end G2Coords

theorem PointFault.message_injective : Function.Injective PointFault.message := by
  intro c d h
  rcases c with ⟨_ | _⟩ | ⟨_ | _⟩ | _ <;> rcases d with ⟨_ | _⟩ | ⟨_ | _⟩ | _ <;>
    first | rfl | exact absurd h (by decide)

namespace G2Coords

variable {Q : G2Coords}

theorem refused_iff {c : PointFault} : Q.Refused c.message ↔ Q.defect = some c := by
  rw [← validate_eq_error_iff]
  constructor
  · rintro ⟨d, hd, hmessage⟩
    exact PointFault.message_injective hmessage ▸ hd
  · intro h
    exact ⟨c, h, rfl⟩

/-- Validation with the multiple computed in homogeneous coordinates. -/
def validateProjective (Q : G2Coords) : Except Fault G2Coords :=
  if ¬Q.InRange then .error (.point (.coordinateRange .g2))
  else if Q = identity then .ok Q
  else if ¬Q.affinePoint.OnCurve twistCoefficient then .error (.point (.offCurve .g2))
  else if ((Projective.ofPoint Q.affinePoint).multiple scalarOrder).z ≠ 0 then
    .error (.point .wrongSubgroup)
  else .ok Q

theorem multiple_z_eq_zero_iff (h : Q.affinePoint.OnCurve twistCoefficient) (n : ℕ) :
    ((Projective.ofPoint Q.affinePoint).multiple n).z = 0 ↔ Q.affinePoint.Annihilated n := by
  rw [← Projective.toPoint_eq_infinity_iff,
    Projective.toPoint_multiple_ofPoint two_ne_zero_fq2 h]
  obtain ⟨T, hT⟩ := Point.exists_ofCurve h
  rw [← hT, Point.mul_ofCurve two_ne_zero_fq2, Point.annihilated_ofCurve_iff two_ne_zero_fq2,
    ← Point.ofCurve_zero (b := twistCoefficient), Point.ofCurve_injective.eq_iff]

theorem validateProjective_eq (Q : G2Coords) : Q.validateProjective = Q.validate := by
  rw [validate_eq, validateProjective, defect]
  by_cases hr : Q.InRange
  · by_cases hi : Q = identity
    · rw [if_neg (not_not.mpr hr), if_pos hi, if_pos hr, if_pos hi]
      rfl
    by_cases hc : Q.affinePoint.OnCurve twistCoefficient
    · simp only [multiple_z_eq_zero_iff hc, hr, hi, hc, if_true, if_false, not_true_eq_false, ne_eq]
      split_ifs <;> simp_all [refuse, Except.map]
    · simp only [hr, hi, hc, if_true, if_false, not_true_eq_false, not_false_eq_true]
      rfl
  · rw [if_pos hr, if_neg hr]
    rfl

/-- The coordinates that pass are those of the subgroup. -/
theorem valid_iff_mem_twistTorsion (Q : G2Coords) :
    Q.Valid ↔ Q.InRange ∧ ∃ T ∈ twistTorsion, Point.ofCurve T = Q.point := by
  rw [Valid, and_congr_right_iff, point]
  intro
  by_cases hi : Q = identity
  · rw [if_pos hi]
    exact iff_of_true (.inl hi) ⟨0, zero_mem _, rfl⟩
  rw [if_neg hi, or_iff_right hi]
  constructor
  · rintro ⟨hc, ho⟩
    obtain ⟨T, hT⟩ := Point.exists_ofCurve hc
    rw [← annihilated_iff_nsmul hc, ← hT, annihilated_iff_mem_twistTorsion] at ho
    exact ⟨T, ho, hT⟩
  · rintro ⟨T, ho, hT⟩
    have hc := hT ▸ Point.onCurve_ofCurve T
    rw [← annihilated_iff_mem_twistTorsion, hT] at ho
    exact ⟨hc, (annihilated_iff_nsmul hc).mp ho⟩

/-- What passes is returned unchanged, and it is the subgroup of the twist that the scalar order
annihilates. What does not is refused for its range first, then for the equation, then for the
order; the order may be asked of a multiple in homogeneous coordinates. -/
theorem validate_membership (Q : G2Coords) :
    (∀ R, Q.validate = .ok R ↔
      R = Q ∧ Q.InRange ∧ (Q = identity ∨ Q.OnTwist ∧ Q.Vanishes)) ∧
    (Q.Refused "G2: coordinate out of range" ↔ ¬Q.InRange) ∧
    (Q.Refused "G2: point is not on twisted curve" ↔ Q.InRange ∧ Q ≠ identity ∧ ¬Q.OnTwist) ∧
    (Q.Refused "G2: point is not in the prime-order subgroup" ↔
      Q.InRange ∧ Q ≠ identity ∧ Q.OnTwist ∧ ¬Q.Vanishes) ∧
    (Q.validate = .ok Q ↔ Q.InRange ∧ ∃ T ∈ twistTorsion, Point.ofCurve T = Q.point) ∧
    Q.validateProjective = Q.validate := by
  refine ⟨?_, ?_, ?_, ?_, ?_, validateProjective_eq Q⟩
  · intro R
    rw [validate_eq_ok_iff, valid_iff_vanishes]
  · exact refused_iff.trans defect_eq_coordinateRange_iff
  · exact refused_iff.trans defect_eq_offCurve_iff
  · exact refused_iff.trans defect_eq_wrongSubgroup_iff
  · rw [validate_eq_ok_iff, valid_iff_mem_twistTorsion, eq_self, true_and]

end G2Coords

end FoldingVerifier
