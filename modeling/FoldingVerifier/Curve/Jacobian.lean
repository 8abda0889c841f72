import FoldingVerifier.Curve.Point
import FoldingVerifier.Field.Residue

/-! Jacobian coordinates: `(x, y, z)` stands for the affine point
`(x / z², y / z³)`, and for infinity where `z` is zero. Multiples are computed
in them with one inversion at the end. -/
namespace FoldingVerifier

universe u

structure Jacobian (F : Type u) where
  x : F
  y : F
  z : F
deriving DecidableEq

namespace Jacobian

variable {F : Type u}

def infinity [Zero F] [One F] : Jacobian F := ⟨1, 1, 0⟩

def ofAffine [One F] (x y : F) : Jacobian F := ⟨x, y, 1⟩

def IsInfinity [Zero F] (P : Jacobian F) : Prop := P.z = 0

instance [Zero F] [DecidableEq F] (P : Jacobian F) : Decidable P.IsInfinity :=
  inferInstanceAs (Decidable (P.z = 0))

/-- The point that the coordinates stand for. -/
def toPoint [Zero F] [Mul F] [Inv F] [DecidableEq F] (P : Jacobian F) : Point F :=
  if P.z = 0 then .infinity
  else
    let t := P.z⁻¹
    let tt := t * t
    .affine (P.x * tt) (P.y * (tt * t))

section Law

variable [Zero F] [One F] [Add F] [Sub F] [Mul F] [DecidableEq F]

/-- A point of order two has `y = 0`, which makes the new `z` vanish. -/
def double (P : Jacobian F) : Jacobian F :=
  let yy := P.y * P.y
  let s := P.x * yy
  let s2 := s + s
  let s4 := s2 + s2
  let xx := P.x * P.x
  let m := xx + xx + xx
  let x := m * m - s4 - s4
  let y4 := yy * yy
  let y4x2 := y4 + y4
  let y4x4 := y4x2 + y4x2
  let yz := P.y * P.z
  ⟨x, m * (s4 - x) - (y4x4 + y4x4), yz + yz⟩

/-- Adds the affine point `(x₂, y₂)`. -/
def addAffine (x₂ y₂ : F) (P : Jacobian F) : Jacobian F :=
  if P.z = 0 then ofAffine x₂ y₂
  else
    let zz := P.z * P.z
    let h := x₂ * zz - P.x
    let m := y₂ * (zz * P.z) - P.y
    if h = 0 then
      if m = 0 then double P else infinity
    else
      let hh := h * h
      let hhh := hh * h
      let v := P.x * hh
      let x := m * m - hhh - (v + v)
      ⟨x, m * (v - x) - P.y * hhh, P.z * h⟩

/-- The `n`-fold multiple of an affine point. -/
def multiple (x y : F) (n : Nat) : Jacobian F :=
  Ladder.run double (addAffine x y) infinity n

end Law

end Jacobian

namespace Point

variable {F : Type u} [Zero F] [One F] [Add F] [Sub F] [Mul F] [DecidableEq F]

/-- The `n`-fold multiple. -/
def mul [Inv F] (n : Nat) : Point F → Point F
  | infinity => infinity
  | affine x y => (Jacobian.multiple x y n).toPoint

/-- The `n`-fold multiple is infinity. -/
def Annihilated (n : Nat) : Point F → Prop
  | infinity => True
  | affine x y => (Jacobian.multiple x y n).IsInfinity

instance (n : Nat) : DecidablePred (Annihilated (F := F) n)
  | infinity => isTrue trivial
  | affine x y => inferInstanceAs (Decidable (Jacobian.multiple x y n).IsInfinity)

end Point
end FoldingVerifier
