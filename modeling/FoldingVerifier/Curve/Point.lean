/-! Affine points of the curves `y² = x³ + b` and their chord-and-tangent law. -/
namespace FoldingVerifier

universe u

inductive Point (F : Type u) where
  | infinity
  | affine (x y : F)
deriving DecidableEq

namespace Point

variable {F : Type u}

instance : Zero (Point F) := ⟨infinity⟩
instance : Inhabited (Point F) := ⟨infinity⟩

/-- The point at infinity lies on every curve. -/
def OnCurve [Add F] [Mul F] (b : F) : Point F → Prop
  | infinity => True
  | affine x y => y * y = x * x * x + b

instance [Add F] [Mul F] [DecidableEq F] (b : F) : DecidablePred (OnCurve b)
  | infinity => isTrue trivial
  | affine x y => inferInstanceAs (Decidable (y * y = x * x * x + b))

instance [Neg F] : Neg (Point F) := ⟨fun
  | infinity => infinity
  | affine x y => affine x (-y)⟩

section Law

variable [Zero F] [Add F] [Sub F] [Neg F] [Mul F] [Inv F] [DecidableEq F]

/-- The third point, reflected, of the line of slope `m` through `(x₁, y₁)` and
a point with abscissa `x₂`. -/
def third (m x₁ y₁ x₂ : F) : Point F :=
  let x := m * m - x₁ - x₂
  affine x (m * (x₁ - x) - y₁)

/-- Opposite points add to infinity; a point that is its own opposite does so
with itself. -/
def add : Point F → Point F → Point F
  | infinity, Q => Q
  | P, infinity => P
  | affine x₁ y₁, affine x₂ y₂ =>
      if x₁ = x₂ then
        if y₁ = -y₂ then infinity
        else third ((x₁ * x₁ + x₁ * x₁ + x₁ * x₁) * (y₁ + y₁)⁻¹) x₁ y₁ x₂
      else third ((y₁ - y₂) * (x₁ - x₂)⁻¹) x₁ y₁ x₂

instance : Add (Point F) := ⟨add⟩

/-- The `n`-fold sum, term by term. -/
def nsmul : Nat → Point F → Point F
  | 0, _ => infinity
  | n + 1, P => nsmul n P + P

end Law

end Point
end FoldingVerifier
