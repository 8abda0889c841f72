import FoldingVerifier.Curve.Coords
import FoldingVerifier.Pairing.Basic

/-! Openings of polynomial commitments at one place. A key holds both generators and the
second multiplied by the secret `t`. The claim is `(t - x)·π = C - y·g₁`, written so that all
multiples are taken in the first group. -/
namespace FoldingVerifier

structure KzgKey where
  g1 : G1
  g2 : G2
  secret : G2
deriving DecidableEq

namespace KzgKey

/-- The key with the given points, checked in the order in which they stand. -/
def ofCoords (g1 : G1Coords) (g2 secret : G2Coords) : Except Fault KzgKey := do
  let g1 ← g1.decode
  let g2 ← g2.decode
  let secret ← secret.decode
  return ⟨g1, g2, secret⟩

/-- All points are read before any is checked. -/
def ofJson (v : Json) : Except Fault KzgKey := do
  let g1 ← G1Coords.ofJson (← v.member "g1")
  let g2 ← G2Coords.ofJson (← v.member "g2")
  let secret ← G2Coords.ofJson (← v.member "vk")
  ofCoords g1 g2 secret

def toJson (k : KzgKey) : Json :=
  .record [("g1", k.g1.coords.toJson), ("g2", k.g2.coords.toJson), ("vk", k.secret.coords.toJson)]

/-- Whether `π` shows that the polynomial of `C` takes the value `y` at `x`. -/
def opens (e : Pairing) (k : KzgKey) (C π : Point Fq) (x y : Int) : Bool :=
  let rest := (π.scale (-x) + -C) + k.g1.point.scale y
  e.productIsOne [(π, k.secret.point), (rest, k.g2.point)]

/-- The same for coordinates; the opening is looked at before the commitment. -/
def check (e : Pairing) (k : KzgKey) (commitment opening : G1Coords) (x y : Int) :
    Except Fault Bool := do
  let π ← opening.decode
  let C ← commitment.decode
  return k.opens e C.point π.point x y

end KzgKey

/-- The value at a place of the polynomial with the given coefficients, the lowest first. -/
def evalPolynomial (coefficients : List Int) (x : Int) : Int :=
  (coefficients.foldr (fun c acc => Residue.ofInt scalarOrder c + acc * Residue.ofInt scalarOrder x)
    (0 : Fr)).val

end FoldingVerifier
