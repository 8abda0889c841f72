import FoldingVerifier.Curve.G1

/-! The public inputs of the decider circuit: what is claimed, then the folded commitments,
the challenges with their evaluations, and the cross term. Each coordinate is split into five
limbs of 55 bits, the lowest first, so that each limb is a canonical scalar. -/
namespace FoldingVerifier
namespace Limbs

def count : Nat := 5
def width : Nat := 55

/-- One more than the largest limb. -/
def radix : Nat := Nat.pow 2 width

/-- The low 275 bits of an integer; a negative one counts in two's complement. -/
def decompose (x : Int) : List Int :=
  (List.range count).map fun i => x / Int.pow radix i % radix

def value : List Int → Int
  | [] => 0
  | l :: ls => l + radix * value ls

/-- Limbs have to be base-field elements, not only 55-bit words; the sum is
taken in the base field. -/
def recompose (limbs : List Int) : Except Fault Int :=
  if limbs.length ≠ count then .error (.value (.limbCount limbs.length))
  else if limbs.all fun l => decide (0 ≤ l ∧ l < baseOrder) then
    .ok (Residue.ofInt baseOrder (value limbs)).val
  else .error (.value .limbRange)

end Limbs

namespace PublicInputs

/-- How many inputs a state of `z` words takes. -/
def count (z : Int) : Int := 2 + 2 * z + 4 * Limbs.count + 4 + 2 * Limbs.count

/-- Where each part begins. -/
structure Layout where
  hash : Int
  steps : Int
  initialState : Int
  finalState : Int
  witness : Int
  errorTerm : Int
  challengesAndEvals : Int
  crossTerm : Int
  count : Int
deriving DecidableEq, Repr

/-- Each part begins where the one before it ends. -/
def layout (z : Int) : Layout :=
  let witness := 2 + 2 * z
  let errorTerm := witness + 2 * Limbs.count
  let challengesAndEvals := errorTerm + 2 * Limbs.count
  let crossTerm := challengesAndEvals + 4
  { hash := 0, steps := 1, initialState := 2, finalState := 2 + z, witness, errorTerm,
    challengesAndEvals, crossTerm, count := crossTerm + 2 * Limbs.count }

end PublicInputs

/-- What a decider proof claims. -/
structure Statement where
  hash : Int
  steps : Int
  initialState : List Int
  finalState : List Int
  witness : G1Coords
  errorTerm : G1Coords
  challengesAndEvals : List Int
  crossTerm : G1Coords
deriving DecidableEq, Repr

namespace PublicInputs

def pointLimbs (P : G1Coords) : List Int := Limbs.decompose P.x ++ Limbs.decompose P.y

/-- The parts of a statement, each with the index at which it begins. -/
def Layout.parts (l : Layout) (s : Statement) : List (Int × List Int) :=
  [(l.hash, [s.hash]), (l.steps, [s.steps]), (l.initialState, s.initialState),
    (l.finalState, s.finalState), (l.witness, pointLimbs s.witness),
    (l.errorTerm, pointLimbs s.errorTerm), (l.challengesAndEvals, s.challengesAndEvals),
    (l.crossTerm, pointLimbs s.crossTerm)]

/-- A part over what stands from an index on. -/
def write (v : List Int) (first : Int) (part : List Int) : List Int :=
  v.take first.toNat ++ part ++ v.drop (first.toNat + part.length)

/-- Zeros, over which each part is written at its place. Values are placed as they
are, none is reduced. -/
def fill (l : Layout) (s : Statement) : List Int :=
  (l.parts s).foldl (fun v part => write v part.1 part.2) (List.replicate l.count.toNat 0)

/-- The vector for a state of `z` words. -/
def assemble (z : Int) (s : Statement) : Except Fault (List Int) :=
  if s.initialState.length ≠ z ∨ s.finalState.length ≠ z then
    .error (.value (.stateVectorLength z))
  else if s.challengesAndEvals.length ≠ 4 then .error (.value .challengeCount)
  else .ok (fill (layout z) s)

end PublicInputs
end FoldingVerifier
