import FoldingVerifier.Proofs.Curve.Decoding
import FoldingVerifier.Proofs.Decider.Acceptance

/-! What the verifier sees of the fold. Neither the commitments that are folded nor the
randomness is looked at again once both results are known, so that proofs which differ in
these alone, and have the same results, have the same outcome. -/
namespace FoldingVerifier

open DeciderProof

namespace DeciderProof

variable {p p' : DeciderProof}

/-- Two proofs differ in what is folded at most, are refused for the same points, and have
the same folded commitments. -/
structure SameFold (p p' : DeciderProof) : Prop where
  rest : p' = { p with
    running := p'.running, freshWitness := p'.freshWitness, randomness := p'.randomness }
  defects : ∀ part : PointPart, (part.get p).defect = (part.get p').defect
  folded : ∀ c, p.folded c = p'.folded c

/-- The folded commitments are the only place where the randomness counts, and there it
counts modulo the group order. -/
theorem sameFold_set_randomness {p : DeciderProof} {n : ℤ}
    (h : n ≡ p.randomness [ZMOD scalarOrder]) : SameFold p (ScalarPart.randomness.set n p) where
  rest := rfl
  defects part := by cases part <;> rfl
  folded c := by
    have hcomm : p.randomness • p.element c.added = n • p.element c.added :=
      G1.zsmul_congr h.symm _
    cases c <;> exact congrArg (_ + ·) hcomm

/-- The coordinates of a folded commitment, by operations that check their operands. -/
def foldCoords (p : DeciderProof) (c : Commitment) : Except Fault G1Coords := do
  G1Coords.add (c.running.get p) (← G1Coords.mulScalar (c.added.get p) p.randomness)

theorem foldCoords_eq {c : Commitment} (hrunning : (c.running.get p).Valid)
    (hadded : (c.added.get p).Valid) : p.foldCoords c = .ok (p.folded c).coords := by
  obtain ⟨U, hU⟩ := (G1Coords.valid_iff _).mp hrunning
  obtain ⟨u, hu⟩ := (G1Coords.valid_iff _).mp hadded
  rw [foldCoords, folded, element, element, ← hU, ← hu, G1Coords.mulScalar_coords,
    G1Coords.element_coords, G1Coords.element_coords]
  exact G1Coords.coords_add_coords U (p.randomness • u)

/-- Of valid points nothing but the folded commitments has to be compared. -/
theorem sameFold_of_foldCoords (hrest : p' = { p with
      running := p'.running, freshWitness := p'.freshWitness, randomness := p'.randomness })
    (h : ∀ c : Commitment, (c.running.get p).Valid ∧ (c.added.get p).Valid)
    (h' : ∀ c : Commitment, (c.running.get p').Valid ∧ (c.added.get p').Valid)
    (hfold : ∀ c, p.foldCoords c = p'.foldCoords c) : SameFold p p' where
  rest := hrest
  defects part := by
    have hnone {P Q : G1Coords} (hP : P.Valid) (hQ : Q.Valid) : P.defect = Q.defect :=
      ((G1Coords.defect_eq_none_iff P).mpr hP).trans ((G1Coords.defect_eq_none_iff Q).mpr hQ).symm
    cases part with
    | runningWitness => exact hnone (h .witness).1 (h' .witness).1
    | runningErrorTerm => exact hnone (h .errorTerm).1 (h' .errorTerm).1
    | freshWitness => exact hnone (h .witness).2 (h' .witness).2
    | _ => rw [hrest]; rfl
  folded c := by
    have hcoords := hfold c
    rw [foldCoords_eq (h c).1 (h c).2, foldCoords_eq (h' c).1 (h' c).2] at hcoords
    exact G1.coords_injective (Except.ok.inj hcoords)

end DeciderProof

namespace Check

/-- No check tells such proofs apart. -/
theorem fault_sameFold (e : Pairing) (d : Decider) {p p' : DeciderProof} (h : SameFold p p')
    (c : Check) : c.fault e d p = c.fault e d p' := by
  obtain ⟨hrest, hdefects, hfolded⟩ := h
  -- only three kinds of check look at points of the fold, and of these two at its results alone
  cases c with
  | point part => rw [fault, fault, hdefects]
  | opening c =>
    have hother : p'.element c.opening = p.element c.opening ∧
        c.challenge.get p' = c.challenge.get p ∧ c.evaluation.get p' = c.evaluation.get p := by
      rw [hrest]
      cases c <;> exact ⟨rfl, rfl, rfl⟩
    rw [fault, fault, hfolded, hother.1, hother.2.1, hother.2.2]
  | groth16 =>
    have hinputs : p.inputs d.key.hash.val = p'.inputs d.key.hash.val := by
      rw [inputs, inputs, hfolded, hfolded, hrest]
    rw [fault, fault, hinputs, hrest]
    rfl
  | _ => rw [hrest]; rfl

end Check

namespace Decider

variable {p p' : DeciderProof}

theorem verify_sameFold (e : Pairing) (d : Decider) (h : SameFold p p') :
    d.verify e p = d.verify e p' := by
  have hfault : Check.fault e d p = Check.fault e d p' := funext (Check.fault_sameFold e d h)
  rw [verify_eq_refuse, verify_eq_refuse, hfault]

/-- The outcome depends on what is folded through both results only. That the randomness
counts modulo the group order needs no point to be valid. -/
theorem verify_fold_only (e : Pairing) (d : Decider) :
    (∀ p p' : DeciderProof,
      p' = { p with
        running := p'.running, freshWitness := p'.freshWitness, randomness := p'.randomness } →
      (∀ c : Commitment, (c.running.get p).Valid ∧ (c.added.get p).Valid) →
      (∀ c : Commitment, (c.running.get p').Valid ∧ (c.added.get p').Valid) →
      (∀ c, p.foldCoords c = p'.foldCoords c) →
      d.verify e p = d.verify e p') ∧
    ∀ (p : DeciderProof) (k : ℤ),
      d.verify e (ScalarPart.randomness.set (p.randomness + k * scalarOrder) p) =
        d.verify e p := by
  constructor
  · intro p p' hrest h h' hfold
    exact verify_sameFold e d (sameFold_of_foldCoords hrest h h' hfold)
  · intro p k
    have hmod : p.randomness + k * scalarOrder ≡ p.randomness [ZMOD scalarOrder] :=
      Int.add_mul_emod_self_right ..
    exact (verify_sameFold e d (sameFold_set_randomness hmod)).symm

/-- With these commitments and this randomness the folded commitments are the identity too. -/
def refoldedProof : DeciderProof :=
  { sampleProof with
    running := ⟨(0 : G1).coords, (-((3 : ℤ) • G1.generator)).coords⟩
    freshWitness := (0 : G1).coords
    randomness := 3 }

theorem refoldedProof_folded (c : Commitment) : refoldedProof.folded c = 0 := by
  cases c with
  | witness =>
    change (0 : G1).coords.element + (3 : ℤ) • (0 : G1).coords.element = 0
    rw [G1Coords.element_coords, zsmul_zero, add_zero]
  | errorTerm =>
    change (-((3 : ℤ) • G1.generator)).coords.element + (3 : ℤ) • G1.generator.coords.element = 0
    rw [G1Coords.element_coords, G1Coords.element_coords, neg_add_cancel]

theorem verify_fold_only_refoldedProof :
    (ofKey sampleKey).verify .logarithmic sampleProof =
        (ofKey sampleKey).verify .logarithmic refoldedProof ∧
      (ofKey sampleKey).verify .logarithmic (ScalarPart.randomness.set (1 + -2 * scalarOrder)
        sampleProof) = (ofKey sampleKey).verify .logarithmic sampleProof := by
  obtain ⟨hresults, hshift⟩ := verify_fold_only .logarithmic (ofKey sampleKey)
  have hvalid (c : Commitment) :
      (c.running.get sampleProof).Valid ∧ (c.added.get sampleProof).Valid := by
    cases c with
    | witness => exact ⟨G1Coords.valid_coords G1.generator, G1Coords.valid_coords (-G1.generator)⟩
    | errorTerm => exact ⟨G1Coords.valid_coords (-G1.generator), G1Coords.valid_coords G1.generator⟩
  have hvalid' (c : Commitment) :
      (c.running.get refoldedProof).Valid ∧ (c.added.get refoldedProof).Valid := by
    cases c with
    | witness => exact ⟨G1Coords.valid_coords 0, G1Coords.valid_coords 0⟩
    | errorTerm =>
      exact ⟨G1Coords.valid_coords (-((3 : ℤ) • G1.generator)), G1Coords.valid_coords G1.generator⟩
  refine ⟨hresults sampleProof refoldedProof rfl hvalid hvalid' ?_, hshift sampleProof (-2)⟩
  intro c
  rw [foldCoords_eq (hvalid c).1 (hvalid c).2, foldCoords_eq (hvalid' c).1 (hvalid' c).2,
    sampleProof_folded, refoldedProof_folded]

end Decider
end FoldingVerifier
