import FoldingVerifier.Curve.Jacobian
import FoldingVerifier.Field.Modulus

/-! The first source group: the points of `y² = x³ + 3` over the base field.
Callers supply coordinates as plain integers, the pair of zeros standing for the
identity; every operation on coordinates refuses those of no group element. -/
namespace FoldingVerifier

/-- Whether an integer is a canonical coordinate. -/
def inBaseField (v : Int) : Bool :=
  decide (0 ≤ v ∧ v < baseOrder)

/-- The constant of the curve equation. -/
def g1Coefficient : Fq := Residue.ofNat baseOrder 3

structure G1 where
  point : Point Fq
  onCurve : point.OnCurve g1Coefficient
deriving DecidableEq

instance : Zero G1 := ⟨⟨.infinity, trivial⟩⟩
instance : Inhabited G1 := ⟨0⟩

/-- Coordinates as supplied: any integers. -/
structure G1Coords where
  x : Int
  y : Int
deriving DecidableEq, Repr, Inhabited

/-- The canonical coordinates of a point. -/
def Point.coords : Point Fq → G1Coords
  | .infinity => ⟨0, 0⟩
  | .affine x y => ⟨x.val, y.val⟩

def G1.coords (P : G1) : G1Coords := P.point.coords

namespace G1Coords

def identity : G1Coords := ⟨0, 0⟩
def generator : G1Coords := ⟨1, 2⟩

def toList (P : G1Coords) : List Int := [P.x, P.y]

/-- The group element with the given coordinates. -/
def decode (P : G1Coords) : Except Fault G1 :=
  if inBaseField P.x && inBaseField P.y then
    if P = identity then .ok 0
    else
      let p := Point.affine (Residue.ofInt baseOrder P.x) (Residue.ofInt baseOrder P.y)
      if h : p.OnCurve g1Coefficient then .ok ⟨p, h⟩
      else .error (.point (.offCurve .g1))
  else .error (.point (.coordinateRange .g1))

def validate (P : G1Coords) : Except Fault G1Coords := do
  let _ ← P.decode
  return P

def negate (P : G1Coords) : Except Fault G1Coords := do
  let p ← P.decode
  return (-p.point).coords

def add (P Q : G1Coords) : Except Fault G1Coords := do
  let p ← P.decode
  let q ← Q.decode
  return (p.point + q.point).coords

end G1Coords

/-- The multiple by an integer, which counts modulo the group order. -/
def Point.scale (P : Point Fq) (s : Int) : Point Fq :=
  P.mul (Residue.ofInt scalarOrder s).val

def G1Coords.mulScalar (P : G1Coords) (s : Int) : Except Fault G1Coords := do
  let p ← P.decode
  return (p.point.scale s).coords

end FoldingVerifier
