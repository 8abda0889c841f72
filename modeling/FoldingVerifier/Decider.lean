import FoldingVerifier.DeciderProof
import FoldingVerifier.DeciderKey
import FoldingVerifier.Kzg

/-! The decider: it folds the commitments of a proof, checks that both folded
commitments open as claimed, and checks the Groth16 proof of the statement. The
first check that fails decides. -/
namespace FoldingVerifier

/-- A key with the two verifiers that serve it. -/
structure Decider where
  key : DeciderKey
  kzg : KzgKey
  groth16 : Groth16Key
  inputs_agree : (groth16.inputCount : Int) = PublicInputs.count key.stateLength

namespace Decider

/-- Both verifiers are the key's own. -/
def ofKey (key : DeciderKey) : Decider := ⟨key, key.kzg, key.groth16, key.inputs_agree⟩

/-- Other verifiers in their place; the number of inputs has to fit. -/
def withVerifiers (key : DeciderKey) (kzg : KzgKey) (groth16 : Groth16Key) :
    Except Fault Decider :=
  if h : (groth16.inputCount : Int) = PublicInputs.count key.stateLength then
    .ok ⟨key, kzg, groth16, h⟩
  else
    .error (.value (.verifierInputCount groth16.inputCount
      (PublicInputs.count key.stateLength).toNat))

/-- The fewest folded steps that a proof may claim. -/
def minSteps : Int := 2

/-- A commitment plus a multiple of another, which is read first. -/
def fold (running fresh : G1Coords) (randomness : Int) : Except Fault (Point Fq) := do
  let u ← fresh.decode
  let U ← running.decode
  return U.point + u.point.scale randomness

/-- What a proof claims, with the commitments folded. -/
def statement (d : Decider) (p : DeciderProof) (witness errorTerm : Point Fq) : Statement where
  hash := d.key.hash.val
  steps := p.steps
  initialState := p.initialState
  finalState := p.finalState
  witness := witness.coords
  errorTerm := errorTerm.coords
  challengesAndEvals := [p.challengeW, p.challengeE, p.evalW, p.evalE]
  crossTerm := p.crossTerm

/-- Rejects unless the opening shows the value of the committed polynomial. -/
def checkOpening (e : Pairing) (d : Decider) (which : Commitment) (C : Point Fq)
    (opening : G1Coords) (x y : Int) : Except Fault Unit := do
  let π ← opening.decode
  if d.kzg.opens e C π.point x y then return ()
  else throw (.rejected (.opening which))

/-- Accepts by returning. -/
def verify (e : Pairing) (d : Decider) (p : DeciderProof) : Except Fault Unit := do
  if p.stateLength ≠ d.key.stateLength then
    throw (.value (.proofStateLength p.stateLength d.key.stateLength))
  if p.steps < minSteps then throw (.rejected .tooFewSteps)
  let witness ← fold p.running.witness p.freshWitness p.randomness
  let errorTerm ← fold p.running.errorTerm p.crossTerm p.randomness
  let inputs ← PublicInputs.assemble d.key.stateLength (d.statement p witness errorTerm)
  d.checkOpening e .witness witness p.openingW p.challengeW p.evalW
  d.checkOpening e .errorTerm errorTerm p.openingE p.challengeE p.evalE
  if ← d.groth16.verify e p.groth16 inputs then return ()
  else throw (.rejected .groth16)

/-- For grouped arguments. -/
def verifyGrouped (e : Pairing) (d : Decider) (stepsAndStates : Json) (a : ProofArguments) :
    Except Fault Unit := do
  d.verify e (← DeciderProof.ofGrouped stepsAndStates a)

/-- For a step count, both states, and the 25 words of a proof. -/
def verifyOpaque (e : Pairing) (d : Decider) (steps : Int) (initialState finalState proof : Json) :
    Except Fault Unit := do
  let z := d.key.stateLength
  initialState.requireSize z (.stateVectorLength z)
  finalState.requireSize z (.stateVectorLength z)
  let initialItems ← initialState.items
  let finalItems ← finalState.items
  let groups ← Flat.splitProof proof
  d.verifyGrouped e (.arr (.int steps :: initialItems ++ finalItems)) groups.arguments

/-- For one array of words. -/
def verifyFlat (e : Pairing) (d : Decider) (words : Json) : Except Fault Unit := do
  let parts ← Flat.split d.key.stateLength words
  d.verifyOpaque e parts.steps (.ints parts.initialState) (.ints parts.finalState)
    (.ints parts.proof)

end Decider
end FoldingVerifier
