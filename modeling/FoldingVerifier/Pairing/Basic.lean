import FoldingVerifier.Curve.G2

/-! What a verifier asks of a pairing. Miller values are multiplied together
and reduced once; a product of pairings is one when that reduction is. -/
namespace FoldingVerifier

structure Pairing where
  Target : Type
  one : Target
  mul : Target → Target → Target
  /-- The unreduced value at a pair of points. -/
  miller : Point Fq → Point Fq2 → Target
  /-- The map that makes the values independent of how they were computed. -/
  reduce : Target → Target
  decEq : DecidableEq Target

namespace Pairing

instance (e : Pairing) : DecidableEq e.Target := e.decEq

/-- The pairing itself, fully reduced. -/
def value (e : Pairing) (P : Point Fq) (Q : Point Fq2) : e.Target :=
  e.reduce (e.miller P Q)

def product (e : Pairing) (pairs : List (Point Fq × Point Fq2)) : e.Target :=
  pairs.foldl (fun acc pair => e.mul acc (e.miller pair.1 pair.2)) e.one

/-- Whether the product of the pairings of all pairs is one. -/
def productIsOne (e : Pairing) (pairs : List (Point Fq × Point Fq2)) : Bool :=
  decide (e.reduce (e.product pairs) = e.one)

/-- The same for coordinates, which are all checked before any pairing is
computed: pair by pair, the first group before the second. -/
def check (e : Pairing) (pairs : List (G1Coords × G2Coords)) : Except Fault Bool := do
  let points ← pairs.mapM fun (P, Q) => do
    let p ← P.decode
    let q ← Q.decode
    return (p.point, q.point)
  return e.productIsOne points

end Pairing
end FoldingVerifier
