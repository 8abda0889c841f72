import FoldingVerifier.Curve.G1
import FoldingVerifier.Field.Tower

/-! The second source group: the points of order dividing the scalar order on
the twist `y² = x³ + 3/(9 + i)`. The twist has many more points, so the order is
checked beside the equation. -/
namespace FoldingVerifier

/-- The quotient `3/(9 + i)`. -/
def twistCoefficient : Fq2 :=
  Fq2.ofNats
    19485874751759354771024239261021720505790618469301721065564631296452457478373
    266929791119991161246907387137283842545076965332900288569378510910307636690

structure G2 where
  point : Point Fq2
  onCurve : point.OnCurve twistCoefficient
  inSubgroup : point.Annihilated scalarOrder
deriving DecidableEq

instance : Zero G2 := ⟨⟨.infinity, trivial, trivial⟩⟩
instance : Inhabited G2 := ⟨0⟩

/-- Coordinates as supplied: any integers, each coordinate real part first. -/
structure G2Coords where
  x0 : Int
  x1 : Int
  y0 : Int
  y1 : Int
deriving DecidableEq, Repr, Inhabited

namespace G2Coords

def identity : G2Coords := ⟨0, 0, 0, 0⟩

def generator : G2Coords where
  x0 := 10857046999023057135944570762232829481370756359578518086990519993285655852781
  x1 := 11559732032986387107991004021392285783925812861821192530917403151452391805634
  y0 := 8495653923123431417604973247489272438418190587263600148770280649306958101930
  y1 := 4082367875863433681332203403145435568316851327593401208105741076214120093531

/-- On the wire each coordinate has its imaginary part first. -/
def toWords (Q : G2Coords) : List Int := [Q.x1, Q.x0, Q.y1, Q.y0]

/-- The group element with the given coordinates: they are looked at first, then
the curve equation, then the order. -/
def decode (Q : G2Coords) : Except Fault G2 :=
  if inBaseField Q.x0 && inBaseField Q.x1 && inBaseField Q.y0 && inBaseField Q.y1 then
    if Q = identity then .ok 0
    else
      let x : Fq2 := ⟨Residue.ofInt baseOrder Q.x0, Residue.ofInt baseOrder Q.x1⟩
      let y : Fq2 := ⟨Residue.ofInt baseOrder Q.y0, Residue.ofInt baseOrder Q.y1⟩
      if h : (Point.affine x y).OnCurve twistCoefficient then
        if ho : (Point.affine x y).Annihilated scalarOrder then .ok ⟨.affine x y, h, ho⟩
        else .error (.point .wrongSubgroup)
      else .error (.point (.offCurve .g2))
  else .error (.point (.coordinateRange .g2))

def validate (Q : G2Coords) : Except Fault G2Coords := do
  let _ ← Q.decode
  return Q

end G2Coords

def G2.coords (Q : G2) : G2Coords :=
  match Q.point with
  | .infinity => .identity
  | .affine x y => ⟨x.re.val, x.im.val, y.re.val, y.im.val⟩

end FoldingVerifier
