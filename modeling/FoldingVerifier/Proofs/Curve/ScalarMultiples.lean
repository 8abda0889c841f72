import FoldingVerifier.Proofs.Curve.Projective

/-! Multiples of coordinates by integers. A multiplier of any size and sign is reduced before
the multiple is reached by doubling and adding, in whichever coordinates that is done; as
every element has an order that divides the group order, the multiples are still those of
the group, so that the integers act on the valid coordinates. -/
namespace FoldingVerifier
namespace G1Coords

/-- The multiple, computed in homogeneous coordinates and normalized. -/
def mulScalarProjective (P : G1Coords) (s : ℤ) : Except Fault G1Coords := do
  let p ← P.decode
  return ((Projective.ofPoint p.point).multiple (s % scalarOrder).toNat).toPoint.coords

theorem mulScalarProjective_eq (P : G1Coords) (s : ℤ) :
    P.mulScalarProjective s = P.mulScalar s := by
  have hmultiple (p : G1) (n : ℕ) :
      ((Projective.ofPoint p.point).multiple n).toPoint = p.point.mul n :=
    Projective.toPoint_multiple_ofPoint two_ne_zero_fq p.onCurve n
  have hreduced : (s % scalarOrder).toNat = (Residue.ofInt scalarOrder s).val := by
    rw [← Residue.val_ofInt, Int.toNat_natCast]
  simp only [mulScalarProjective, mulScalar, Point.scale, hmultiple, hreduced]

/-- The sum of `n` copies, added one after the other. -/
def copies (P : G1Coords) : ℕ → Except Fault G1Coords
  | 0 => .ok identity
  | n + 1 => do (← P.copies n).add P

theorem copies_coords (P : G1) (n : ℕ) : P.coords.copies n = .ok (n • P).coords := by
  induction n with
  | zero => rw [zero_nsmul]; rfl
  | succ n ih =>
    rw [copies, ih, succ_nsmul]
    exact coords_add_coords (n • P) P

theorem coords_eq_identity_iff (P : G1) : P.coords = identity ↔ P = 0 :=
  G1.coords_injective.eq_iff' rfl

theorem zsmul_coords_eq_identity_iff (P : G1) (s : ℤ) :
    (s • P).coords = identity ↔ P.coords = identity ∨ (scalarOrder : ℤ) ∣ s := by
  rw [coords_eq_identity_iff, coords_eq_identity_iff]
  by_cases hP : P = 0
  · simp [hP]
  · simp [hP, G1.zsmul_eq_zero_iff hP]

/-- Multiples of valid coordinates are those of an action of the integers with the group
order for its period, whichever coordinates they are computed in: none is refused, and only
multipliers that the order divides take an element other than the identity to the identity. -/
theorem mulScalar_action {P Q : G1Coords} (hP : P.Valid) (hQ : Q.Valid) (s t : ℤ) :
    (∃ R, P.mulScalar s = .ok R ∧ R.Valid) ∧
    P.mulScalarProjective s = P.mulScalar s ∧
    (∀ n : ℕ, P.mulScalar n = P.copies n) ∧
    P.mulScalar (s + t) = (do (← P.mulScalar s).add (← P.mulScalar t)) ∧
    (do (← P.mulScalar s).mulScalar t) = P.mulScalar (s * t) ∧
    (do (← P.add Q).mulScalar s) = (do (← P.mulScalar s).add (← Q.mulScalar s)) ∧
    P.mulScalar (-s) = (do (← P.mulScalar s).negate) ∧
    P.mulScalar (s + t * scalarOrder) = P.mulScalar s ∧
    (P.mulScalar s = .ok identity ↔ P = identity ∨ (scalarOrder : ℤ) ∣ s) := by
  obtain ⟨P, rfl⟩ := (valid_iff P).mp hP
  obtain ⟨Q, rfl⟩ := (valid_iff Q).mp hQ
  have hreturns (a : G1Coords) (f : G1Coords → Except Fault G1Coords) :
      (Except.ok a >>= f) = f a := rfl
  simp only [mulScalarProjective_eq, mulScalar_coords, coords_add_coords, negate_coords,
    copies_coords, hreturns]
  refine ⟨⟨_, rfl, valid_coords _⟩, trivial, ?_, ?_, ?_, ?_, ?_, ?_, ?_⟩
  · intro n
    rw [natCast_zsmul]
  · rw [add_smul]
  · rw [smul_smul, mul_comm]
  · rw [smul_add]
  · rw [neg_smul]
  · rw [G1.zsmul_congr (Int.add_mul_emod_self_right s t scalarOrder)]
  · rw [Except.ok.injEq]
    exact zsmul_coords_eq_identity_iff P s

/-- The generator and its opposite, with a negative and an unreduced multiplier. -/
theorem mulScalar_action_generator :
    generator.Valid ∧ (⟨1, baseOrder - 2⟩ : G1Coords).Valid ∧
    generator.mulScalarProjective (-4) = generator.mulScalar (-4) ∧
    generator.mulScalar (7 : ℕ) = generator.copies 7 ∧
    generator.mulScalar (-4 + 11) = (do
      (← generator.mulScalar (-4)).add (← generator.mulScalar 11)) ∧
    (do (← generator.add ⟨1, baseOrder - 2⟩).mulScalar (-4)) = (do
      (← generator.mulScalar (-4)).add (← mulScalar ⟨1, baseOrder - 2⟩ (-4))) ∧
    generator.mulScalar (-4 + 11 * scalarOrder) = generator.mulScalar (-4) ∧
    generator.mulScalar (-4) ≠ .ok identity := by
  have hgenerator : generator.Valid := G1.coords_generator ▸ valid_coords G1.generator
  have hopposite : (⟨1, baseOrder - 2⟩ : G1Coords).Valid := by
    unfold Valid
    decide
  obtain ⟨-, hprojective, hcopies, hsum, -, hadd, -, hperiod, hzero⟩ :=
    mulScalar_action hgenerator hopposite (-4) 11
  refine ⟨hgenerator, hopposite, hprojective, hcopies 7, hsum, hadd, hperiod, ?_⟩
  rw [ne_eq, hzero]
  decide

end G1Coords
end FoldingVerifier
