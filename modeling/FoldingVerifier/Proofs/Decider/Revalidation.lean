import FoldingVerifier.Proofs.Curve.Decoding
import FoldingVerifier.Proofs.Decider.Inputs
import FoldingVerifier.Proofs.Field.Modular
import FoldingVerifier.Proofs.Groth16
import FoldingVerifier.Proofs.Kzg

/-! The verifier in terms of operations on coordinates, each of which decodes its operands
anew. Key points and results of earlier operations always pass, so this comes to the same
as decoding what the proof supplies once. -/
namespace FoldingVerifier

theorem Modular.neg_scalarOrder (x : ℤ) : Modular.neg scalarOrder x = .ok (-x % scalarOrder) := by
  have hneg := Modular.neg_eq .scalar x
  rwa [← Int.cast_neg, Modulus.representative_intCast] at hneg

/-- A pair of points by their coordinates, the first group before the second. -/
def Pairing.decodePair (pair : G1Coords × G2Coords) : Except Fault (Point Fq × Point Fq2) := do
  let p ← pair.1.decode
  let q ← pair.2.decode
  return (p.point, q.point)

theorem Pairing.mapM_decodePair (pairs : List (G1 × G2)) :
    (pairs.map fun pair => (pair.1.coords, pair.2.coords)).mapM decodePair =
      .ok (pairs.map fun pair => (pair.1.point, pair.2.point)) := by
  induction pairs with
  | nil => rfl
  | cons pair pairs ih =>
    rw [List.map_cons, List.mapM_cons, ih, decodePair, G1Coords.decode_of_coords,
      G2Coords.decode_of_coords]
    rfl

/-- The checks of coordinates in a list of pairs all pass if elements have them. -/
theorem Pairing.check_coords (e : Pairing) (pairs : List (G1 × G2)) :
    e.check (pairs.map fun pair => (pair.1.coords, pair.2.coords)) =
      .ok (e.productIsOne (pairs.map fun pair => (pair.1.point, pair.2.point))) := by
  change (List.mapM decodePair _ >>= fun points => .ok (e.productIsOne points)) = _
  rw [mapM_decodePair]
  rfl

namespace KzgKey

/-- The opening check of `opens`, on coordinates throughout. -/
def checkCoords (e : Pairing) (k : KzgKey) (commitment opening : G1Coords) (x y : ℤ) :
    Except Fault Bool := do
  let rest ← opening.mulScalar (← Modular.neg scalarOrder x)
  let rest ← rest.add (← commitment.negate)
  let rest ← rest.add (← k.g1.coords.mulScalar y)
  e.check [(opening, k.secret.coords), (rest, k.g2.coords)]

theorem checkCoords_coords (e : Pairing) (k : KzgKey) (C π : G1) (x y : ℤ) :
    k.checkCoords e C.coords π.coords x y = .ok (k.opens e C.point π.point x y) := by
  rw [opens_eq, checkCoords, Modular.neg_scalarOrder]
  change (π.coords.mulScalar (-x % scalarOrder) >>= _) = _
  rw [G1Coords.mulScalar_coords, G1Coords.negate_coords, G1.emod_zsmul]
  change (G1Coords.add ((-x) • π).coords (-C).coords >>= _) = _
  rw [G1Coords.coords_add_coords, G1Coords.mulScalar_coords]
  change (G1Coords.add ((-x) • π + -C).coords (y • k.g1).coords >>= _) = _
  rw [G1Coords.coords_add_coords]
  exact e.check_coords [(π, k.secret), ((-x) • π + -C + y • k.g1, k.g2)]

theorem checkCoords_eq (e : Pairing) (k : KzgKey) (commitment opening : G1Coords) (x y : ℤ) :
    k.checkCoords e commitment opening x y = k.check e commitment opening x y := by
  rcases opening.decode_cases with ⟨π, -, hπ, rfl⟩ | ⟨c, -, hπ⟩
  · rcases commitment.decode_cases with ⟨C, -, hC, rfl⟩ | ⟨c, -, hC⟩
    · rw [checkCoords_coords, check, hπ, hC]
      rfl
    · rw [check, checkCoords, Modular.neg_scalarOrder, hπ, hC]
      change (π.coords.mulScalar _ >>= _) = _
      rw [G1Coords.mulScalar_coords, G1Coords.negate_eq, hC]
      rfl
  · rw [check, checkCoords, Modular.neg_scalarOrder, hπ]
    change (opening.mulScalar _ >>= _) = _
    rw [G1Coords.mulScalar_eq, hπ]
    rfl

end KzgKey

namespace Groth16Key

/-- The combination of the input points, on coordinates throughout. -/
def combineCoords (k : Groth16Key) (xs : List ℤ) : Except Fault G1Coords :=
  (xs.zip k.ic).foldlM (fun acc term => do acc.add (← term.2.coords.mulScalar term.1))
    k.constant.coords

/-- The verification of a proof, on coordinates throughout. -/
def verifyCoords (e : Pairing) (k : Groth16Key) (p : Groth16Proof) (xs : List ℤ) :
    Except Fault Bool := do
  if xs.length ≠ k.inputCount then
    throw (.value (.inputCount k.inputCount xs.length))
  if xs.all inScalarField then
    let X ← k.combineCoords xs
    e.check [(← p.a.negate, p.b), (k.alpha.coords, k.beta.coords), (X, k.gamma.coords),
      (p.c, k.delta.coords)]
  else return false

theorem foldlM_coords (xs : List ℤ) (ic : List G1) (P : G1) :
    (xs.zip ic).foldlM (fun acc term => do
        G1Coords.add acc (← term.2.coords.mulScalar term.1)) P.coords =
      .ok (P + (List.zipWith (fun x Q => x • Q) xs ic).sum).coords := by
  induction xs generalizing ic P with
  | nil => rw [List.zip_nil_left, List.zipWith_nil_left, List.sum_nil, add_zero]; rfl
  | cons x xs ih =>
    cases ic with
    | nil => rw [List.zip_nil_right, List.zipWith_nil_right, List.sum_nil, add_zero]; rfl
    | cons Q ic =>
      rw [List.zip_cons_cons, List.foldlM_cons, List.zipWith_cons_cons, List.sum_cons, ← add_assoc,
        ← ih ic (P + x • Q), G1Coords.mulScalar_coords]
      change (G1Coords.add P.coords (x • Q).coords >>= _) = _
      rw [G1Coords.coords_add_coords]
      rfl

theorem combineCoords_eq (k : Groth16Key) (xs : List ℤ) :
    k.combineCoords xs = .ok (k.combination xs).coords :=
  foldlM_coords xs k.ic k.constant

/-- The pairs of the product, where the points of the proof need not be elements. -/
theorem check_coords (e : Pairing) (k : Groth16Key) (A X : G1) (b : G2Coords) (c : G1Coords) :
    e.check [(A.coords, b), (k.alpha.coords, k.beta.coords), (X.coords, k.gamma.coords),
      (c, k.delta.coords)] = (do
        let B ← b.decode
        let C ← c.decode
        return e.productIsOne ([(A, B), (k.alpha, k.beta), (X, k.gamma), (C, k.delta)].map
          fun pair => (pair.1.point, pair.2.point))) := by
  rcases b.decode_cases with ⟨B, -, hB, rfl⟩ | ⟨f, -, hB⟩
  · rcases c.decode_cases with ⟨C, -, hC, rfl⟩ | ⟨f, -, hC⟩
    · rw [hB, hC]
      exact e.check_coords [(A, B), (k.alpha, k.beta), (X, k.gamma), (C, k.delta)]
    · rw [hB, hC, Pairing.check]
      simp only [List.mapM_cons, G1Coords.decode_of_coords, G2Coords.decode_of_coords, hC]
      rfl
  · rw [hB, Pairing.check]
    simp only [List.mapM_cons, G1Coords.decode_of_coords, hB]
    rfl

theorem verifyCoords_eq (e : Pairing) (k : Groth16Key) (p : Groth16Proof) (xs : List ℤ) :
    k.verifyCoords e p xs = k.verify e p xs := by
  unfold verifyCoords verify
  rw [combineCoords_eq]
  by_cases hin : xs.all inScalarField = true
  · rw [if_pos hin, if_pos hin]
    split_ifs
    · rfl
    change (p.a.negate >>= _) = (p.a.decode >>= _)
    rcases p.a.decode_cases with ⟨A, -, hA, ha⟩ | ⟨f, -, hA⟩
    · rw [hA, ← ha, G1Coords.negate_coords]
      change e.check [((-A).coords, p.b), _, _, _] = (p.b.decode >>= _)
      rw [check_coords]
      simp only [accepts_eq]
    · rw [G1Coords.negate_eq, hA]
      rfl
  · rw [if_neg hin, if_neg hin]

end Groth16Key

namespace Decider

def foldCoords (running fresh : G1Coords) (randomness : ℤ) : Except Fault G1Coords := do
  running.add (← fresh.mulScalar randomness)

/-- What a proof claims, with the commitments folded. -/
def statementCoords (d : Decider) (p : DeciderProof) (witness errorTerm : G1Coords) :
    Statement where
  hash := d.key.hash.val
  steps := p.steps
  initialState := p.initialState
  finalState := p.finalState
  witness := witness
  errorTerm := errorTerm
  challengesAndEvals := [p.challengeW, p.challengeE, p.evalW, p.evalE]
  crossTerm := p.crossTerm

def checkOpeningCoords (e : Pairing) (d : Decider) (which : Commitment) (C opening : G1Coords)
    (x y : ℤ) : Except Fault Unit := do
  if ← d.kzg.checkCoords e C opening x y then return ()
  else throw (.rejected (.opening which))

/-- The verifier, on coordinates throughout. -/
def verifyCoords (e : Pairing) (d : Decider) (p : DeciderProof) : Except Fault Unit := do
  if p.stateLength ≠ d.key.stateLength then
    throw (.value (.proofStateLength p.stateLength d.key.stateLength))
  if p.steps < minSteps then throw (.rejected .tooFewSteps)
  let witness ← foldCoords p.running.witness p.freshWitness p.randomness
  let errorTerm ← foldCoords p.running.errorTerm p.crossTerm p.randomness
  let inputs ← PublicInputs.assemble d.key.stateLength (d.statementCoords p witness errorTerm)
  d.checkOpeningCoords e .witness witness p.openingW p.challengeW p.evalW
  d.checkOpeningCoords e .errorTerm errorTerm p.openingE p.challengeE p.evalE
  if ← d.groth16.verifyCoords e p.groth16 inputs then return ()
  else throw (.rejected .groth16)

/-- The fold is refused, or it is the coordinates of an element. -/
theorem fold_cases (running fresh : G1Coords) (randomness : ℤ) :
    (∃ C : G1, fold running fresh randomness = .ok C.point ∧
        foldCoords running fresh randomness = .ok C.coords) ∨
      ∃ f, fold running fresh randomness = .error f ∧
        foldCoords running fresh randomness = .error f := by
  rw [fold, foldCoords, G1Coords.mulScalar_eq]
  rcases fresh.decode_cases with ⟨u, -, hu, -⟩ | ⟨c, -, hu⟩
  · rw [hu]
    rcases running.decode_cases with ⟨U, -, hU, -⟩ | ⟨c, -, hU⟩
    · refine .inl ⟨U + randomness • u, ?_, ?_⟩
      · rw [hU, G1.point_add, G1.point_zsmul]
        rfl
      · change running.add (randomness • u).coords = _
        rw [G1Coords.add_coords, hU]
        rfl
    · refine .inr ⟨.point c, ?_, ?_⟩
      · rw [hU]
        rfl
      · change running.add (randomness • u).coords = _
        rw [G1Coords.add_coords, hU]
        rfl
  · rw [hu]
    exact .inr ⟨.point c, rfl, rfl⟩

theorem checkOpeningCoords_eq (e : Pairing) (d : Decider) (c : Commitment) (C : G1)
    (opening : G1Coords) (x y : ℤ) :
    d.checkOpeningCoords e c C.coords opening x y = d.checkOpening e c C.point opening x y := by
  rw [checkOpeningCoords, checkOpening, KzgKey.checkCoords_eq, KzgKey.check,
    G1Coords.decode_of_coords]
  cases opening.decode <;> rfl

/-- Operands are decoded as often as one likes: once is enough. -/
theorem verifyCoords_eq (e : Pairing) (d : Decider) (p : DeciderProof) :
    d.verifyCoords e p = d.verify e p := by
  unfold verifyCoords verify
  by_cases hz : p.stateLength ≠ d.key.stateLength
  · rw [if_pos hz, if_pos hz]
    rfl
  by_cases hs : p.steps < minSteps
  · rw [if_neg hz, if_neg hz, if_pos hs, if_pos hs]
    rfl
  rw [if_neg hz, if_neg hz, if_neg hs, if_neg hs]
  rcases fold_cases p.running.witness p.freshWitness p.randomness with
    ⟨W, hW, hW'⟩ | ⟨f, hW, hW'⟩
  · rcases fold_cases p.running.errorTerm p.crossTerm p.randomness with
      ⟨E, hE, hE'⟩ | ⟨f, hE, hE'⟩
    · rw [hW, hW', hE, hE']
      change (PublicInputs.assemble d.key.stateLength (d.statement p W.point E.point) >>= _) =
        (PublicInputs.assemble d.key.stateLength (d.statement p W.point E.point) >>= _)
      simp only [checkOpeningCoords_eq, Groth16Key.verifyCoords_eq]
    · rw [hW, hW', hE, hE']
      rfl
  · rw [hW, hW']
    rfl

end Decider
end FoldingVerifier
