import FoldingVerifier.Curve.Coords
import FoldingVerifier.Pairing.Basic

/-! Groth16: keys, proofs with their spellings, and the pairing equation that accepts them.
The public inputs are combined with the points `IC[1]`, `IC[2]`, …, to which the constant
`IC[0]` is added. -/
namespace FoldingVerifier

structure Groth16Key where
  alpha : G1
  beta : G2
  gamma : G2
  delta : G2
  constant : G1
  ic : List G1
deriving DecidableEq

namespace Groth16Key

def inputCount (k : Groth16Key) : Nat := k.ic.length

/-- The key with the given points, checked in the order in which they stand. The list of
input points has to hold the constant. -/
def ofCoords (alpha : G1Coords) (beta gamma delta : G2Coords) (ic : List G1Coords) :
    Except Fault Groth16Key :=
  match ic with
  | [] => throw (.value .emptyIC)
  | constant :: ic => do
      let alpha ← alpha.decode
      let beta ← beta.decode
      let gamma ← gamma.decode
      let delta ← delta.decode
      let constant ← constant.decode
      let ic ← ic.mapM G1Coords.decode
      return ⟨alpha, beta, gamma, delta, constant, ic⟩

/-- All points are read before any is checked. -/
def ofJson (v : Json) : Except Fault Groth16Key := do
  let alpha ← G1Coords.ofJson (← v.member "vk_alpha_1")
  let beta ← G2Coords.ofJson (← v.member "vk_beta_2")
  let gamma ← G2Coords.ofJson (← v.member "vk_gamma_2")
  let delta ← G2Coords.ofJson (← v.member "vk_delta_2")
  let ic ← (← (← v.member "IC").items).mapM G1Coords.ofJson
  ofCoords alpha beta gamma delta ic

def toJson (k : Groth16Key) : Json :=
  .record [("protocol", .ofString "groth16"), ("curve", .ofString "bn128"),
    ("nPublic", .int k.inputCount),
    ("vk_alpha_1", k.alpha.coords.toJson), ("vk_beta_2", k.beta.coords.toJson),
    ("vk_gamma_2", k.gamma.coords.toJson), ("vk_delta_2", k.delta.coords.toJson),
    ("IC", .arr ((k.constant :: k.ic).map fun P => P.coords.toJson))]

end Groth16Key

/-- The three points of a proof, as supplied. -/
structure Groth16Proof where
  a : G1Coords
  b : G2Coords
  c : G1Coords
deriving DecidableEq, Repr, Inhabited

namespace Groth16Proof

def toWords (p : Groth16Proof) : List Int := p.a.toList ++ p.b.toWords ++ p.c.toList

/-- Eight words, of which the middle four are the point of the second group. -/
def ofWords (v : Json) : Except Fault Groth16Proof := do
  let n ← v.size
  if n ≠ 8 then throw (.value (.groth16WordCount n))
  let a ← G1Coords.ofWordsAt 0 v
  let b ← G2Coords.ofWords (.arr (((← v.items).drop 2).take 4))
  let c ← G1Coords.ofWordsAt 6 v
  return ⟨a, b, c⟩

def ofJson (v : Json) : Except Fault Groth16Proof := do
  let a ← G1Coords.ofJson (← v.member "pi_a")
  let b ← G2Coords.ofJson (← v.member "pi_b")
  let c ← G1Coords.ofJson (← v.member "pi_c")
  return ⟨a, b, c⟩

def toJson (p : Groth16Proof) : Json :=
  .record [("pi_a", p.a.toJson), ("pi_b", p.b.toJson), ("pi_c", p.c.toJson)]

end Groth16Proof

namespace Groth16Key

/-- The constant plus the multiples of the input points. The shorter of inputs
and points decides how many terms there are. -/
def combine (k : Groth16Key) (inputs : List Int) : Point Fq :=
  (inputs.zip k.ic).foldl (fun acc term => acc + term.2.point.scale term.1) k.constant.point

/-- Whether `e(A, B) = e(α, β) · e(X, γ) · e(C, δ)`, where `X` combines the inputs. -/
def accepts (e : Pairing) (k : Groth16Key) (a : G1) (b : G2) (c : G1) (inputs : List Int) :
    Bool :=
  e.productIsOne [(-a.point, b.point), (k.alpha.point, k.beta.point),
    (k.combine inputs, k.gamma.point), (c.point, k.delta.point)]

/-- A wrong number of inputs is the caller's fault. Inputs that are no canonical
scalars are rejected before the points are looked at. -/
def verify (e : Pairing) (k : Groth16Key) (p : Groth16Proof) (inputs : List Int) :
    Except Fault Bool := do
  if inputs.length ≠ k.inputCount then
    throw (.value (.inputCount k.inputCount inputs.length))
  if inputs.all inScalarField then
    let a ← p.a.decode
    let b ← p.b.decode
    let c ← p.c.decode
    return k.accepts e a b c inputs
  else return false

end Groth16Key
end FoldingVerifier
