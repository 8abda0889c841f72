import FoldingVerifier.Json.Access

/-! Proofs as plain word arrays. A proof of 25 words falls into six groups; ahead
of it may stand the step count and both states. Values are moved, never changed. -/
namespace FoldingVerifier

/-- The groups of a proof, in the order of their words. -/
structure ProofGroups where
  folded : List Int
  freshWitness : List Int
  crossTermAndRandomness : List Int
  groth16 : List Int
  challengesAndEvals : List Int
  openings : List (List Int)
deriving DecidableEq, Repr

/-- The same groups as callers hand them over. -/
structure ProofArguments where
  folded : Json
  freshWitness : Json
  crossTermAndRandomness : Json
  groth16 : Json
  challengesAndEvals : Json
  openings : Json

namespace ProofGroups

def arguments (g : ProofGroups) : ProofArguments where
  folded := .ints g.folded
  freshWitness := .ints g.freshWitness
  crossTermAndRandomness := .ints g.crossTermAndRandomness
  groth16 := .ints g.groth16
  challengesAndEvals := .ints g.challengesAndEvals
  openings := .arr (g.openings.map .ints)

def ofWords (ws : List Int) : ProofGroups where
  folded := ws.take 4
  freshWitness := (ws.drop 4).take 2
  crossTermAndRandomness := (ws.drop 6).take 3
  groth16 := (ws.drop 9).take 8
  challengesAndEvals := (ws.drop 17).take 4
  openings := [(ws.drop 21).take 2, (ws.drop 23).take 2]

def toWords (g : ProofGroups) : List Int :=
  g.folded ++ g.freshWitness ++ g.crossTermAndRandomness ++ g.groth16 ++
    g.challengesAndEvals ++ g.openings.flatten

end ProofGroups

/-- The parts of a word array that carries the states with the proof. -/
structure FlatParts where
  steps : Int
  initialState : List Int
  finalState : List Int
  proof : List Int
deriving DecidableEq, Repr

namespace Flat

def proofLength : Nat := 25

/-- How many words a proof takes with states of `z` words each. -/
def length (z : Int) : Int := 1 + 2 * z + proofLength

/-- The items from one bound up to another; a negative bound counts from the end. -/
def between {α : Type} (xs : List α) (first last : Int) : List α :=
  let place (i : Int) : Nat := if i < 0 then (i + xs.length).toNat else i.toNat
  (xs.take (place last)).drop (place first)

/-- The six groups of a proof. -/
def splitProof (v : Json) : Except Fault ProofGroups := do
  let ws ← v.words .opaqueProof proofLength
  return .ofWords (← ws.mapM Json.integer)

/-- The step count, both states of `z` words, and the proof. -/
def split (z : Int) (v : Json) : Except Fault FlatParts := do
  let ws ← v.words .flatProof (length z)
  let steps ← (← Json.nth 0 ws).integer
  let initialState ← (between ws 1 (1 + z)).mapM Json.integer
  let finalState ← (between ws (1 + z) (1 + 2 * z)).mapM Json.integer
  let proof ← (between ws (1 + 2 * z) ws.length).mapM Json.integer
  return ⟨steps, initialState, finalState, proof⟩

/-- The four entries of a two by two array. -/
def openingWords (v : Json) : Except Fault (List Json) :=
  match v, v.shape with
  | .arr [.arr xs, .arr ys], [2, 2] => .ok (xs ++ ys)
  | _, s => .error (.value (.openingsShape s))

/-- The 25 words of a proof in groups; every size is checked before any word is read. -/
def packProof (a : ProofArguments) : Except Fault (List Int) := do
  let openings ← openingWords a.openings
  let folded ← a.folded.words .foldedCommitments 4
  let fresh ← a.freshWitness.words .freshWitness 2
  let cross ← a.crossTermAndRandomness.words .crossTermAndRandomness 3
  let groth16 ← a.groth16.words .groth16 8
  let challenges ← a.challengesAndEvals.words .challengesAndEvals 4
  (folded ++ fresh ++ cross ++ groth16 ++ challenges ++ openings).mapM Json.integer

/-- The word array of a step count, two states of one length, and a proof. An
array for the step count makes no row with the others. -/
def pack (steps initialState finalState proof : Json) : Except Fault (List Int) := do
  let z ← initialState.size
  if z ≠ (← finalState.size) then throw (.value .stateLengthsDiffer)
  let initial ← initialState.words .initialState z
  let final ← finalState.words .finalState z
  let rest ← proof.words .opaqueProof proofLength
  if let .arr _ := steps then throw (.value .raggedParts)
  (steps :: initial ++ final ++ rest).mapM Json.integer

end Flat
end FoldingVerifier
