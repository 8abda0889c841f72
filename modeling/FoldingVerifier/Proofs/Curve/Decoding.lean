import FoldingVerifier.Proofs.Curve.FirstGroup
import FoldingVerifier.Proofs.Curve.SecondGroup

/-! Coordinates and group elements determine each other. Decoding succeeds on the coordinates
of elements and on nothing else, and where it fails the fault names the first condition that
the coordinates miss: their range, the curve, the order. Operations on coordinates are those
of the groups; a result is the coordinates of an element again, so that no later operation
refuses it. -/
namespace FoldingVerifier
namespace Residue

variable {p : ℕ} [Positive p]

theorem ofInt_val (a : Residue p) : ofInt p a.val = a := by
  apply toZMod_injective
  rw [toZMod_ofInt, Int.cast_natCast]
  rfl

theorem val_ofInt_of_mem {z : ℤ} (h0 : 0 ≤ z) (hp : z < p) : ((ofInt p z).val : ℤ) = z := by
  rw [val_ofInt, Int.emod_eq_of_lt h0 hp]

end Residue

/-- The outcome that a fault, or none, stands for. -/
def refuse : Option Fault → Except Fault Unit
  | none => .ok ()
  | some f => .error f

theorem inBaseField_iff {v : ℤ} : inBaseField v = true ↔ 0 ≤ v ∧ v < baseOrder := by
  simp [inBaseField]

theorem inBaseField_val (a : Fq) : inBaseField a.val = true :=
  inBaseField_iff.mpr ⟨Int.natCast_nonneg _, Int.ofNat_lt.mpr a.isLt⟩

namespace G1Coords

/-- The affine point that coordinates other than the identity's denote. -/
def affinePoint (P : G1Coords) : Point Fq :=
  .affine (Residue.ofInt baseOrder P.x) (Residue.ofInt baseOrder P.y)

/-- Both coordinates are canonical. -/
def InRange (P : G1Coords) : Prop := (0 ≤ P.x ∧ P.x < baseOrder) ∧ 0 ≤ P.y ∧ P.y < baseOrder

instance (P : G1Coords) : Decidable P.InRange := by unfold InRange; infer_instance

/-- Why coordinates are those of no element, if they are not. -/
def defect (P : G1Coords) : Option PointFault :=
  if P.InRange then
    if P = identity ∨ P.affinePoint.OnCurve g1Coefficient then none else some (.offCurve .g1)
  else some (.coordinateRange .g1)

/-- In range, and zeros or a solution of the curve equation. -/
def Valid (P : G1Coords) : Prop :=
  P.InRange ∧ (P = identity ∨ P.y ^ 2 ≡ P.x ^ 3 + 3 [ZMOD baseOrder])

theorem affinePoint_onCurve_iff (P : G1Coords) : P.affinePoint.OnCurve g1Coefficient ↔
    P.y ^ 2 ≡ P.x ^ 3 + 3 [ZMOD baseOrder] := by
  rw [← ZMod.intCast_eq_intCast_iff]
  have h3 : Residue.toZMod g1Coefficient = 3 := Residue.toZMod_ofNat 3
  simp only [affinePoint, Point.OnCurve, ← Residue.toZMod_injective.eq_iff, Residue.toZMod_mul,
    Residue.toZMod_add, Residue.toZMod_ofInt, h3]
  push_cast
  rw [sq, pow_three']

theorem defect_eq_none_iff (P : G1Coords) : P.defect = none ↔ P.Valid := by
  rw [Valid, ← affinePoint_onCurve_iff, defect]
  by_cases hr : P.InRange
  · rw [if_pos hr, and_iff_right hr]
    by_cases hc : P = identity ∨ P.affinePoint.OnCurve g1Coefficient
    · rw [if_pos hc]
      exact iff_of_true rfl hc
    · rw [if_neg hc]
      exact iff_of_false (Option.some_ne_none _) hc
  · rw [if_neg hr]
    exact iff_of_false (Option.some_ne_none _) (fun h => hr h.1)

theorem inRange_iff (P : G1Coords) :
    (inBaseField P.x && inBaseField P.y) = true ↔ P.InRange := by
  rw [Bool.and_eq_true, inBaseField_iff, inBaseField_iff]
  rfl

theorem decode_eq_error {P : G1Coords} {c : PointFault} (h : P.defect = some c) :
    P.decode = .error (.point c) := by
  unfold defect at h
  unfold decode
  split_ifs at h with hr hc
  · rw [if_pos ((inRange_iff P).mpr hr)]
    obtain ⟨hi, ho⟩ := not_or.mp hc
    cases h
    rw [if_neg hi]
    exact dif_neg ho
  · cases h
    rw [if_neg (fun h => hr ((inRange_iff P).mp h))]

theorem decode_of_coords (Q : G1) : Q.coords.decode = .ok Q := by
  obtain ⟨p, hp⟩ := Q
  cases p with
  | infinity => rfl
  | affine x y =>
    have hne : G1.coords ⟨.affine x y, hp⟩ ≠ identity := by
      intro h
      have hx : x = 0 := Residue.ext (Int.ofNat_inj.mp (congrArg G1Coords.x h))
      have hy : y = 0 := Residue.ext (Int.ofNat_inj.mp (congrArg G1Coords.y h))
      have hc : y * y = x * x * x + g1Coefficient := hp
      rw [hx, hy, mul_zero, mul_zero, zero_add] at hc
      exact g1Coefficient_ne_zero hc.symm
    have hr : (inBaseField (G1.coords ⟨.affine x y, hp⟩).x &&
        inBaseField (G1.coords ⟨.affine x y, hp⟩).y) = true :=
      Bool.and_eq_true_iff.mpr ⟨inBaseField_val x, inBaseField_val y⟩
    unfold decode
    rw [if_pos hr, if_neg hne]
    simp only [G1.coords, Point.coords, Residue.ofInt_val]
    exact dif_pos hp

theorem coords_of_decode {P : G1Coords} {Q : G1} (h : P.decode = .ok Q) : Q.coords = P := by
  unfold decode at h
  dsimp only at h
  split_ifs at h with hr hi hc
  · cases h
    exact hi.symm
  · cases h
    obtain ⟨⟨hx0, hx⟩, hy0, hy⟩ := (inRange_iff P).mp hr
    cases P
    simp only [G1.coords, Point.coords, Residue.val_ofInt_of_mem hx0 hx,
      Residue.val_ofInt_of_mem hy0 hy]

theorem decode_eq_ok_iff {P : G1Coords} {Q : G1} : P.decode = .ok Q ↔ Q.coords = P :=
  ⟨coords_of_decode, fun h => h ▸ decode_of_coords Q⟩

/-- Coordinates are decoded or have a defect. -/
theorem decode_cases (P : G1Coords) :
    (∃ Q : G1, P.defect = none ∧ P.decode = .ok Q ∧ Q.coords = P) ∨
      ∃ c, P.defect = some c ∧ P.decode = .error (.point c) := by
  cases hd : P.defect with
  | some c => exact .inr ⟨c, rfl, decode_eq_error hd⟩
  | none =>
    refine .inl ?_
    unfold defect at hd
    split_ifs at hd with hr hc
    have hb := (inRange_iff P).mpr hr
    by_cases hi : P = identity
    · exact ⟨0, rfl, by unfold decode; rw [if_pos hb, if_pos hi], hi.symm⟩
    · have ho := hc.resolve_left hi
      have hok : P.decode = .ok ⟨P.affinePoint, ho⟩ := by
        unfold decode
        rw [if_pos hb, if_neg hi]
        exact dif_pos ho
      exact ⟨_, rfl, hok, coords_of_decode hok⟩

theorem valid_iff (P : G1Coords) : P.Valid ↔ ∃ Q : G1, Q.coords = P := by
  rw [← defect_eq_none_iff]
  rcases decode_cases P with ⟨Q, hd, -, hQ⟩ | ⟨c, hd, he⟩
  · exact iff_of_true hd ⟨Q, hQ⟩
  · refine iff_of_false (by rw [hd]; exact Option.some_ne_none c) ?_
    rintro ⟨Q, rfl⟩
    rw [decode_of_coords] at he
    cases he

theorem valid_coords (Q : G1) : Q.coords.Valid := (valid_iff _).mpr ⟨Q, rfl⟩

/-- The element with the given coordinates; the identity if they are those of none. -/
def element (P : G1Coords) : G1 := P.decode.toOption.getD 0

@[simp] theorem element_coords (Q : G1) : Q.coords.element = Q := by
  rw [element, decode_of_coords]
  rfl

theorem coords_element {P : G1Coords} (h : P.Valid) : P.element.coords = P := by
  obtain ⟨Q, rfl⟩ := (valid_iff P).mp h
  rw [element_coords]

theorem element_injOn {P Q : G1Coords} (hP : P.Valid) (hQ : Q.Valid)
    (h : P.element = Q.element) : P = Q := by
  rw [← coords_element hP, h, coords_element hQ]

theorem element_ne_zero {P : G1Coords} (hP : P.Valid) (h : P ≠ identity) : P.element ≠ 0 := by
  intro h0
  rw [← coords_element hP, h0] at h
  exact h rfl

/-- Decoding reports the defect, if there is one. -/
theorem decode_eq (P : G1Coords) :
    P.decode = (refuse (P.defect.map .point)).map fun _ => P.element := by
  rcases decode_cases P with ⟨Q, hd, hok, rfl⟩ | ⟨c, hd, he⟩
  · rw [hok, hd, element_coords]
    rfl
  · rw [he, hd]
    rfl

end G1Coords

theorem G1.coords_injective : Function.Injective G1.coords := by
  intro P Q h
  have hd := G1Coords.decode_of_coords P
  rw [h, G1Coords.decode_of_coords] at hd
  cases hd
  rfl

theorem G1.coords_generator : G1.generator.coords = G1Coords.generator := by decide

theorem G1Coords.valid_generator : generator.Valid := G1.coords_generator ▸ valid_coords _

theorem G1Coords.valid_identity : identity.Valid := valid_coords 0

namespace Point

/-- The sum of `n` copies is the multiple in the curve's group. -/
theorem nsmul_ofCurve {F : Type*} [Field F] [DecidableEq F] {b : F}
    (T : (weierstrass b).Point) (n : ℕ) : nsmul n (ofCurve T) = ofCurve (n • T) := by
  induction n with
  | zero => rw [zero_nsmul]; rfl
  | succ n ih => rw [nsmul, ih, succ_nsmul, ofCurve_add]

end Point

namespace G2Coords

/-- The affine point that coordinates other than the identity's denote. -/
def affinePoint (Q : G2Coords) : Point Fq2 :=
  .affine ⟨Residue.ofInt baseOrder Q.x0, Residue.ofInt baseOrder Q.x1⟩
    ⟨Residue.ofInt baseOrder Q.y0, Residue.ofInt baseOrder Q.y1⟩

/-- All four coordinates are canonical. -/
def InRange (Q : G2Coords) : Prop :=
  (0 ≤ Q.x0 ∧ Q.x0 < baseOrder) ∧ (0 ≤ Q.x1 ∧ Q.x1 < baseOrder) ∧
    (0 ≤ Q.y0 ∧ Q.y0 < baseOrder) ∧ 0 ≤ Q.y1 ∧ Q.y1 < baseOrder

instance (Q : G2Coords) : Decidable Q.InRange := by unfold InRange; infer_instance

/-- Why coordinates are those of no element, if they are not. -/
def defect (Q : G2Coords) : Option PointFault :=
  if Q.InRange then
    if Q = identity then none
    else if Q.affinePoint.OnCurve twistCoefficient then
      if Q.affinePoint.Annihilated scalarOrder then none else some .wrongSubgroup
    else some (.offCurve .g2)
  else some (.coordinateRange .g2)

/-- In range, and zeros or a point of the twist of which the scalar order many copies
add to infinity. -/
def Valid (Q : G2Coords) : Prop :=
  Q.InRange ∧ (Q = identity ∨ Q.affinePoint.OnCurve twistCoefficient ∧
    Point.nsmul scalarOrder Q.affinePoint = .infinity)

theorem annihilated_iff_nsmul {P : Point Fq2} (h : P.OnCurve twistCoefficient) :
    P.Annihilated scalarOrder ↔ Point.nsmul scalarOrder P = .infinity := by
  obtain ⟨T, rfl⟩ := Point.exists_ofCurve h
  rw [Point.nsmul_ofCurve, Point.annihilated_ofCurve_iff two_ne_zero_fq2]
  rw [← Point.ofCurve_zero (b := twistCoefficient), Point.ofCurve_injective.eq_iff]

theorem defect_eq_none_iff (Q : G2Coords) : Q.defect = none ↔ Q.Valid := by
  rw [Valid, defect]
  by_cases hr : Q.InRange
  · rw [if_pos hr, and_iff_right hr]
    by_cases hi : Q = identity
    · rw [if_pos hi]
      exact iff_of_true rfl (.inl hi)
    rw [if_neg hi, or_iff_right hi]
    by_cases hc : Q.affinePoint.OnCurve twistCoefficient
    · rw [if_pos hc, and_iff_right hc, ← annihilated_iff_nsmul hc]
      by_cases ho : Q.affinePoint.Annihilated scalarOrder
      · rw [if_pos ho]
        exact iff_of_true rfl ho
      · rw [if_neg ho]
        exact iff_of_false (Option.some_ne_none _) ho
    · rw [if_neg hc]
      exact iff_of_false (Option.some_ne_none _) (fun h => hc h.1)
  · rw [if_neg hr]
    exact iff_of_false (Option.some_ne_none _) (fun h => hr h.1)

theorem inRange_iff (Q : G2Coords) : (inBaseField Q.x0 && inBaseField Q.x1 &&
    inBaseField Q.y0 && inBaseField Q.y1) = true ↔ Q.InRange := by
  simp only [Bool.and_eq_true, inBaseField_iff, InRange, and_assoc]

theorem decode_eq_error {Q : G2Coords} {c : PointFault} (h : Q.defect = some c) :
    Q.decode = .error (.point c) := by
  unfold defect at h
  unfold decode
  split_ifs at h with hr hi hc ho
  · cases h
    rw [if_pos ((inRange_iff Q).mpr hr), if_neg hi]
    exact (dif_pos hc).trans (dif_neg ho)
  · cases h
    rw [if_pos ((inRange_iff Q).mpr hr), if_neg hi]
    exact dif_neg hc
  · cases h
    rw [if_neg (fun h => hr ((inRange_iff Q).mp h))]

theorem decode_of_coords (Q : G2) : Q.coords.decode = .ok Q := by
  obtain ⟨q, hq, ho⟩ := Q
  cases q with
  | infinity => rfl
  | affine x y =>
    have hne : G2.coords ⟨.affine x y, hq, ho⟩ ≠ identity := by
      intro h
      have hx : x = 0 := Quadratic.ext (Residue.ext (Int.ofNat_inj.mp (congrArg G2Coords.x0 h)))
        (Residue.ext (Int.ofNat_inj.mp (congrArg G2Coords.x1 h)))
      have hy : y = 0 := Quadratic.ext (Residue.ext (Int.ofNat_inj.mp (congrArg G2Coords.y0 h)))
        (Residue.ext (Int.ofNat_inj.mp (congrArg G2Coords.y1 h)))
      have hc : y * y = x * x * x + twistCoefficient := hq
      rw [hx, hy, mul_zero, mul_zero, zero_add] at hc
      exact twistCoefficient_ne_zero hc.symm
    have hr : (G2.coords ⟨.affine x y, hq, ho⟩).InRange :=
      ⟨inBaseField_iff.mp (inBaseField_val x.re), inBaseField_iff.mp (inBaseField_val x.im),
        inBaseField_iff.mp (inBaseField_val y.re), inBaseField_iff.mp (inBaseField_val y.im)⟩
    unfold decode
    rw [if_pos ((inRange_iff _).mpr hr), if_neg hne]
    simp only [G2.coords, Residue.ofInt_val]
    exact (dif_pos hq).trans (dif_pos ho)

theorem coords_of_decode {P : G2Coords} {Q : G2} (h : P.decode = .ok Q) : Q.coords = P := by
  unfold decode at h
  dsimp only at h
  split_ifs at h with hr hi hc ho
  · cases h
    exact hi.symm
  · cases h
    obtain ⟨⟨hx0, hx0'⟩, ⟨hx1, hx1'⟩, ⟨hy0, hy0'⟩, hy1, hy1'⟩ := (inRange_iff P).mp hr
    cases P
    simp only [G2.coords, Residue.val_ofInt_of_mem hx0 hx0', Residue.val_ofInt_of_mem hx1 hx1',
      Residue.val_ofInt_of_mem hy0 hy0', Residue.val_ofInt_of_mem hy1 hy1']

theorem decode_eq_ok_iff {P : G2Coords} {Q : G2} : P.decode = .ok Q ↔ Q.coords = P :=
  ⟨coords_of_decode, fun h => h ▸ decode_of_coords Q⟩

theorem decode_cases (P : G2Coords) :
    (∃ Q : G2, P.defect = none ∧ P.decode = .ok Q ∧ Q.coords = P) ∨
      ∃ c, P.defect = some c ∧ P.decode = .error (.point c) := by
  cases hd : P.defect with
  | some c => exact .inr ⟨c, rfl, decode_eq_error hd⟩
  | none =>
    refine .inl ?_
    unfold defect at hd
    split_ifs at hd with hr hi hc ho
    · have hok : P.decode = .ok 0 := by
        unfold decode
        rw [if_pos ((inRange_iff P).mpr hr), if_pos hi]
      exact ⟨0, rfl, hok, hi.symm⟩
    · have hok : P.decode = .ok ⟨P.affinePoint, hc, ho⟩ := by
        unfold decode
        rw [if_pos ((inRange_iff P).mpr hr), if_neg hi]
        exact (dif_pos hc).trans (dif_pos ho)
      exact ⟨_, rfl, hok, coords_of_decode hok⟩

theorem valid_iff (P : G2Coords) : P.Valid ↔ ∃ Q : G2, Q.coords = P := by
  rw [← defect_eq_none_iff]
  rcases decode_cases P with ⟨Q, hd, -, hQ⟩ | ⟨c, hd, he⟩
  · exact iff_of_true hd ⟨Q, hQ⟩
  · refine iff_of_false (by rw [hd]; exact Option.some_ne_none c) ?_
    rintro ⟨Q, rfl⟩
    rw [decode_of_coords] at he
    cases he

theorem valid_coords (Q : G2) : Q.coords.Valid := (valid_iff _).mpr ⟨Q, rfl⟩

def element (Q : G2Coords) : G2 := Q.decode.toOption.getD 0

@[simp] theorem element_coords (Q : G2) : Q.coords.element = Q := by
  rw [element, decode_of_coords]
  rfl

theorem coords_element {Q : G2Coords} (h : Q.Valid) : Q.element.coords = Q := by
  obtain ⟨P, rfl⟩ := (valid_iff Q).mp h
  rw [element_coords]

theorem element_injOn {P Q : G2Coords} (hP : P.Valid) (hQ : Q.Valid)
    (h : P.element = Q.element) : P = Q := by
  rw [← coords_element hP, h, coords_element hQ]

theorem element_ne_zero {P : G2Coords} (hP : P.Valid) (h : P ≠ identity) : P.element ≠ 0 := by
  intro h0
  rw [← coords_element hP, h0] at h
  exact h rfl

theorem decode_eq (Q : G2Coords) :
    Q.decode = (refuse (Q.defect.map .point)).map fun _ => Q.element := by
  rcases decode_cases Q with ⟨P, hd, hok, rfl⟩ | ⟨c, hd, he⟩
  · rw [hok, hd, element_coords]
    rfl
  · rw [he, hd]
    rfl

end G2Coords

theorem G2.coords_generator : G2.generator.coords = G2Coords.generator := by decide

theorem G2Coords.valid_generator : generator.Valid := G2.coords_generator ▸ valid_coords _

theorem G2Coords.valid_identity : identity.Valid := valid_coords 0

theorem G2.coords_injective : Function.Injective G2.coords := by
  intro P Q h
  have hd := G2Coords.decode_of_coords P
  rw [h, G2Coords.decode_of_coords] at hd
  cases hd
  rfl

namespace G1Coords

theorem negate_eq (P : G1Coords) : P.negate = P.decode >>= fun p => .ok (-p).coords := rfl

theorem add_eq (P Q : G1Coords) :
    P.add Q = P.decode >>= fun p => Q.decode >>= fun q => .ok (p + q).coords := rfl

theorem mulScalar_eq (P : G1Coords) (s : ℤ) :
    P.mulScalar s = P.decode >>= fun p => .ok (s • p).coords := by
  simp only [G1.coords, G1.point_zsmul]
  rfl

theorem negate_coords (P : G1) : P.coords.negate = .ok (-P).coords := by
  rw [negate_eq, decode_of_coords]
  rfl

theorem add_coords (P : G1Coords) (Q : G1) :
    P.add Q.coords = P.decode >>= fun p => .ok (p + Q).coords := by
  rw [add_eq, decode_of_coords]
  rfl

theorem coords_add_coords (P Q : G1) : P.coords.add Q.coords = .ok (P + Q).coords := by
  rw [add_coords, decode_of_coords]
  rfl

theorem mulScalar_coords (P : G1) (s : ℤ) : P.coords.mulScalar s = .ok (s • P).coords := by
  rw [mulScalar_eq, decode_of_coords]
  rfl

end G1Coords
end FoldingVerifier
