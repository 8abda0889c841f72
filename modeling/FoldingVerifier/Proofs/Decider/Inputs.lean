import FoldingVerifier.Decider
import FoldingVerifier.DeciderProof.Part
import FoldingVerifier.Proofs.Curve.Decoding
import FoldingVerifier.Proofs.PublicInputs

/-! What a proof claims, in group elements, and the public inputs that follow. Of the
inputs only the step count, the state words, the challenges and the evaluations can be
out of range: the hash is a residue and limbs are small. -/
namespace FoldingVerifier

namespace Commitment

open DeciderProof

/-- The commitment of the running instance. -/
def running : Commitment → PointPart
  | witness => .runningWitness
  | errorTerm => .runningErrorTerm

/-- The commitment whose multiple is added to it. -/
def added : Commitment → PointPart
  | witness => .freshWitness
  | errorTerm => .crossTerm

def opening : Commitment → PointPart
  | witness => .openingW
  | errorTerm => .openingE

def challenge : Commitment → ScalarPart
  | witness => .challengeW
  | errorTerm => .challengeE

def evaluation : Commitment → ScalarPart
  | witness => .evalW
  | errorTerm => .evalE

end Commitment

namespace DeciderProof

/-- The group element of a part. -/
def element (p : DeciderProof) (part : PointPart) : G1 := (part.get p).element

/-- The commitment that the prover and the verifier fold alike. -/
def folded (p : DeciderProof) (c : Commitment) : G1 :=
  p.element c.running + p.randomness • p.element c.added

/-- The integers that become public inputs as they are. -/
def scalars (p : DeciderProof) : List ℤ :=
  p.stepsAndStates ++ [p.challengeW, p.challengeE, p.evalW, p.evalE]

/-- The public inputs of a proof, behind the constant that tells circuits apart. -/
def inputs (hash : ℤ) (p : DeciderProof) : List ℤ :=
  [hash, p.steps] ++ p.initialState ++ p.finalState ++
    PublicInputs.pointLimbs (p.folded .witness).coords ++
    PublicInputs.pointLimbs (p.folded .errorTerm).coords ++
    [p.challengeW, p.challengeE, p.evalW, p.evalE] ++ PublicInputs.pointLimbs p.crossTerm

/-- What a proof claims, with the commitments folded. -/
def claim (hash : ℤ) (p : DeciderProof) : Statement where
  hash := hash
  steps := p.steps
  initialState := p.initialState
  finalState := p.finalState
  witness := (p.folded .witness).coords
  errorTerm := (p.folded .errorTerm).coords
  challengesAndEvals := [p.challengeW, p.challengeE, p.evalW, p.evalE]
  crossTerm := p.crossTerm

theorem inputs_eq_vector (hash : ℤ) (p : DeciderProof) :
    p.inputs hash = PublicInputs.vector (p.claim hash) := rfl

theorem sized_claim (hash : ℤ) (p : DeciderProof) : (p.claim hash).Sized p.stateLength :=
  ⟨rfl, congrArg Nat.cast p.same_length.symm, rfl⟩

theorem scalars_claim (hash : ℤ) (p : DeciderProof) :
    (p.claim hash).scalars = hash :: p.scalars := by
  simp [Statement.scalars, claim, scalars, stepsAndStates]

theorem length_inputs (hash : ℤ) (p : DeciderProof) :
    ((p.inputs hash).length : ℤ) = PublicInputs.count p.stateLength :=
  PublicInputs.length_vector (p.sized_claim hash)

theorem inputs_inScalarField_iff {hash : ℤ} (hh : inScalarField hash = true) (p : DeciderProof) :
    (p.inputs hash).all inScalarField = true ↔ ∀ n ∈ p.scalars, 0 ≤ n ∧ n < scalarOrder := by
  rw [inputs_eq_vector, PublicInputs.all_vector_iff, scalars_claim, List.forall_mem_cons]
  exact and_iff_right (inScalarField_iff.mp hh)

end DeciderProof
end FoldingVerifier
