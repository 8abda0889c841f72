import FoldingVerifier.Pairing.Basic

/-! The optimal ate pairing. The Miller loop runs over the binary digits of
`6t + 2` for the curve parameter `t`, on Jacobian points of the twist; its lines
are evaluated at the argument from the first group, up to factors from the
quadratic subfield, which the final exponentiation removes. -/
namespace FoldingVerifier
namespace OptimalAte

/-- The parameter that the curve is built from. -/
def parameter : Nat := 4965661367192848881

def loopCount : Nat := 6 * parameter + 2

/-- The exponent that maps the target field onto its roots of unity of scalar order. -/
def finalExponent : Nat := (Nat.pow baseOrder 12 - 1) / scalarOrder

/-- A line through twist points, evaluated: `c0 + (c1 + c2·v)·w`. -/
def line (c0 c1 c2 : Fq2) : Fq12 := ⟨⟨c0, 0, 0⟩, ⟨c1, c2, 0⟩⟩

/-- The tangent at `T`, evaluated at `(xP, yP)`. -/
def tangent (xP yP : Fq) (T : Jacobian Fq2) : Fq12 :=
  let xx := T.x * T.x
  let xx3 := xx + xx + xx
  let yy := T.y * T.y
  let zz := T.z * T.z
  let yz3 := T.y * T.z * zz
  line ((yz3 + yz3).scaleBy yP) ((-(xx3 * zz)).scaleBy xP) (xx3 * T.x - (yy + yy))

/-- The chord through `T` and `(x, y)`, evaluated at `(xP, yP)`. -/
def chord (xP yP : Fq) (x y : Fq2) (T : Jacobian Fq2) : Fq12 :=
  let zz := T.z * T.z
  let h := x * zz - T.x
  let m := y * (zz * T.z) - T.y
  let zh := T.z * h
  line (zh.scaleBy yP) ((-m).scaleBy xP) (m * x - y * zh)

structure State where
  value : Fq12
  point : Jacobian Fq2

def double (xP yP : Fq) (s : State) : State :=
  ⟨s.value.square * tangent xP yP s.point, s.point.double⟩

def addTo (xP yP : Fq) (x y : Fq2) (s : State) : State :=
  ⟨s.value * chord xP yP x y s.point, s.point.addAffine x y⟩

/-- The factors by which the Frobenius map of the full field acts on the
coordinates of the twist. -/
def frobeniusX : Fq2 := Fq2.xi.pow ((baseOrder - 1) / 3)
def frobeniusY : Fq2 := Fq2.xi.pow ((baseOrder - 1) / 2)

/-- The Miller value; it is one where either point is infinity. -/
def miller : Point Fq → Point Fq2 → Fq12
  | .affine xP yP, .affine x y =>
      let looped := Ladder.climb (double xP yP) (addTo xP yP x y) ⟨1, .ofAffine x y⟩
        (Ladder.bits loopCount).tail
      let x₁ := x.conj * frobeniusX
      let y₁ := y.conj * frobeniusY
      let x₂ := x₁.conj * frobeniusX
      let y₂ := y₁.conj * frobeniusY
      (addTo xP yP x₂ (-y₂) (addTo xP yP x₁ y₁ looped)).value
  | _, _ => 1

end OptimalAte

/-- The pairing that the verifiers run with. -/
def optimalAte : Pairing where
  Target := Fq12
  one := 1
  mul := (· * ·)
  miller := OptimalAte.miller
  reduce := fun a => a.pow OptimalAte.finalExponent
  decEq := inferInstance

end FoldingVerifier
