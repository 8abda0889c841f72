import FoldingVerifier.Flat
import FoldingVerifier.Groth16
import FoldingVerifier.Json.Parser
import FoldingVerifier.Json.Printer

/-! Decider proofs: everything that one verification looks at, and its three
forms: grouped arguments, one array of words, and a document. Points are carried
as supplied; whether they are any is for the verifier to say. -/
namespace FoldingVerifier

/-- The commitments of the running instance. -/
structure CommitmentPair where
  witness : G1Coords
  errorTerm : G1Coords
deriving DecidableEq, Repr, Inhabited

namespace CommitmentPair

def toWords (c : CommitmentPair) : List Int := c.witness.toList ++ c.errorTerm.toList

def ofWords (v : Json) : Except Fault CommitmentPair := do
  let n ← v.size
  if n ≠ 4 then throw (.value (.commitmentWordCount n))
  let witness ← G1Coords.ofWordsAt 0 v
  let errorTerm ← G1Coords.ofWordsAt 2 v
  return ⟨witness, errorTerm⟩

end CommitmentPair

structure DeciderProof where
  steps : Int
  initialState : List Int
  finalState : List Int
  running : CommitmentPair
  freshWitness : G1Coords
  crossTerm : G1Coords
  randomness : Int
  groth16 : Groth16Proof
  challengeW : Int
  challengeE : Int
  evalW : Int
  evalE : Int
  openingW : G1Coords
  openingE : G1Coords
  same_length : initialState.length = finalState.length
deriving DecidableEq

namespace DeciderProof

def stateLength (p : DeciderProof) : Nat := p.initialState.length

def stepsAndStates (p : DeciderProof) : List Int := p.steps :: p.initialState ++ p.finalState

def groups (p : DeciderProof) : ProofGroups where
  folded := p.running.toWords
  freshWitness := p.freshWitness.toList
  crossTermAndRandomness := p.crossTerm.toList ++ [p.randomness]
  groth16 := p.groth16.toWords
  challengesAndEvals := [p.challengeW, p.challengeE, p.evalW, p.evalE]
  openings := [p.openingW.toList, p.openingE.toList]

/-- The 25 words that stand beside the step count and the states. -/
def toOpaque (p : DeciderProof) : List Int := p.groups.toWords

def toWords (p : DeciderProof) : List Int := p.stepsAndStates ++ p.toOpaque

/-- All sizes but those of the commitment pair and the Groth16 proof are checked
before any word is read. -/
def ofGrouped (stepsAndStates : Json) (a : ProofArguments) : Except Fault DeciderProof := do
  let n ← stepsAndStates.size
  if n < 3 ∨ n % 2 = 0 then throw (.value (.stepsAndStatesCount n))
  a.freshWitness.requireSize 2 .groupSizes
  a.crossTermAndRandomness.requireSize 3 .groupSizes
  a.challengesAndEvals.requireSize 4 .groupSizes
  a.openings.requireSize 2 .openingPairs
  (← a.openings.items).forM (·.requireSize 2 .openingPairs)
  let z := (n - 1) / 2
  match ← a.challengesAndEvals.integers with
  | [challengeW, challengeE, evalW, evalE] =>
      let steps ← stepsAndStates.integerAt 0
      let states := (← stepsAndStates.items).tail
      let initialState ← (states.take z).mapM Json.integer
      let finalState ← (states.drop z).mapM Json.integer
      let running ← CommitmentPair.ofWords a.folded
      let freshWitness ← G1Coords.ofWordsAt 0 a.freshWitness
      let crossTerm ← G1Coords.ofWordsAt 0 a.crossTermAndRandomness
      let randomness ← a.crossTermAndRandomness.integerAt 2
      let groth16 ← Groth16Proof.ofWords a.groth16
      let openingW ← G1Coords.ofWordsAt 0 (← a.openings.entry 0)
      let openingE ← G1Coords.ofWordsAt 0 (← a.openings.entry 1)
      if same_length : initialState.length = finalState.length then
        return { steps, initialState, finalState, running, freshWitness, crossTerm, randomness,
                 groth16, challengeW, challengeE, evalW, evalE, openingW, openingE, same_length }
      else throw (.value .stateLengthsDiffer)
  | _ => throw (.value .entryCount)

/-- The proof in an array of words that carries states of `z` words. -/
def ofWords (z : Int) (v : Json) : Except Fault DeciderProof := do
  let parts ← Flat.split z v
  let groups ← Flat.splitProof (.ints parts.proof)
  ofGrouped (.ints (parts.steps :: parts.initialState ++ parts.finalState)) groups.arguments

/-- The challenges and evaluations are read first, for their number. -/
def ofJson (v : Json) : Except Fault DeciderProof := do
  let challenges ← Word.listOfJson (← v.member "challenges")
  let evals ← Word.listOfJson (← v.member "evals")
  let openings ← v.member "kzg_proofs"
  match challenges, evals with
  | [challengeW, challengeE], [evalW, evalE] =>
      openings.requireSize 2 .twoEntries
      let steps ← Word.ofJson (← v.member "steps")
      let initialState ← Word.listOfJson (← v.member "z_0")
      let finalState ← Word.listOfJson (← v.member "z_i")
      let witness ← G1Coords.ofJson (← (← v.member "U_i").member "cmW")
      let errorTerm ← G1Coords.ofJson (← (← v.member "U_i").member "cmE")
      let freshWitness ← G1Coords.ofJson (← v.member "u_i_cmW")
      let crossTerm ← G1Coords.ofJson (← v.member "cmT")
      let randomness ← Word.ofJson (← v.member "r")
      let groth16 ← Groth16Proof.ofJson (← v.member "groth16")
      let openingW ← G1Coords.ofJson (← openings.entry 0)
      let openingE ← G1Coords.ofJson (← openings.entry 1)
      if same_length : initialState.length = finalState.length then
        return { steps, initialState, finalState, running := ⟨witness, errorTerm⟩, freshWitness,
                 crossTerm, randomness, groth16, challengeW, challengeE, evalW, evalE, openingW,
                 openingE, same_length }
      else throw (.value .stateLengthsDiffer)
  | _, _ => throw (.value .twoEntries)

def toJson (p : DeciderProof) : Json :=
  .record [("steps", Word.toJson p.steps),
    ("z_0", .arr (p.initialState.map Word.toJson)),
    ("z_i", .arr (p.finalState.map Word.toJson)),
    ("U_i", .record [("cmW", p.running.witness.toJson), ("cmE", p.running.errorTerm.toJson)]),
    ("u_i_cmW", p.freshWitness.toJson),
    ("cmT", p.crossTerm.toJson),
    ("r", Word.toJson p.randomness),
    ("groth16", p.groth16.toJson),
    ("challenges", .arr [Word.toJson p.challengeW, Word.toJson p.challengeE]),
    ("evals", .arr [Word.toJson p.evalW, Word.toJson p.evalE]),
    ("kzg_proofs", .arr [p.openingW.toJson, p.openingE.toJson])]

def ofText (text : String) (maxDepth : Nat := Json.usualDepth) : Except Fault DeciderProof := do
  ofJson (← Json.parse text maxDepth)

def toText (p : DeciderProof) : String := p.toJson.text

end DeciderProof
end FoldingVerifier
