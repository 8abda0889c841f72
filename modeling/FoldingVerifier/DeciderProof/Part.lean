import FoldingVerifier.DeciderProof

/-! The single parts of a proof, by name: what they hold and how one is exchanged
while all others stay. -/
namespace FoldingVerifier
namespace DeciderProof

inductive ScalarPart where
  | steps
  | randomness
  | challengeW
  | challengeE
  | evalW
  | evalE
deriving DecidableEq, Repr

inductive PointPart where
  | freshWitness
  | crossTerm
  | openingW
  | openingE
  | runningWitness
  | runningErrorTerm
  | groth16A
  | groth16C
deriving DecidableEq, Repr

def ScalarPart.get (part : ScalarPart) (p : DeciderProof) : Int :=
  match part with
  | steps => p.steps
  | randomness => p.randomness
  | challengeW => p.challengeW
  | challengeE => p.challengeE
  | evalW => p.evalW
  | evalE => p.evalE

def ScalarPart.set (part : ScalarPart) (n : Int) (p : DeciderProof) : DeciderProof :=
  match part with
  | steps => { p with steps := n }
  | randomness => { p with randomness := n }
  | challengeW => { p with challengeW := n }
  | challengeE => { p with challengeE := n }
  | evalW => { p with evalW := n }
  | evalE => { p with evalE := n }

def PointPart.get (part : PointPart) (p : DeciderProof) : G1Coords :=
  match part with
  | freshWitness => p.freshWitness
  | crossTerm => p.crossTerm
  | openingW => p.openingW
  | openingE => p.openingE
  | runningWitness => p.running.witness
  | runningErrorTerm => p.running.errorTerm
  | groth16A => p.groth16.a
  | groth16C => p.groth16.c

def PointPart.set (part : PointPart) (P : G1Coords) (p : DeciderProof) : DeciderProof :=
  match part with
  | freshWitness => { p with freshWitness := P }
  | crossTerm => { p with crossTerm := P }
  | openingW => { p with openingW := P }
  | openingE => { p with openingE := P }
  | runningWitness => { p with running := { p.running with witness := P } }
  | runningErrorTerm => { p with running := { p.running with errorTerm := P } }
  | groth16A => { p with groth16 := { p.groth16 with a := P } }
  | groth16C => { p with groth16 := { p.groth16 with c := P } }

def setGroth16B (Q : G2Coords) (p : DeciderProof) : DeciderProof :=
  { p with groth16 := { p.groth16 with b := Q } }

/-- Both states keep one length. -/
def setStates (initialState finalState : List Int) (p : DeciderProof) :
    Except Fault DeciderProof :=
  if same_length : initialState.length = finalState.length then
    .ok { p with initialState, finalState, same_length }
  else .error (.value .stateLengthsDiffer)

@[simp] theorem ScalarPart.get_set (part : ScalarPart) (n : Int) (p : DeciderProof) :
    part.get (part.set n p) = n := by cases part <;> rfl

@[simp] theorem PointPart.get_set (part : PointPart) (P : G1Coords) (p : DeciderProof) :
    part.get (part.set P p) = P := by cases part <;> rfl

end DeciderProof
end FoldingVerifier
