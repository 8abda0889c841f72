import FoldingVerifier.Field.Modulus

/-! Extensions of degree two and three by a root of a fixed element, and the
tower of them that the pairing takes its values in: degree two over the base
field, then three, then two. -/
namespace FoldingVerifier

universe u

/-- A ring with the element whose root the next extension adjoins. -/
class Radicand (R : Type u) where
  /-- The product with that element. -/
  scale : R → R

/-- The numbers `re + im·w`, where `w²` is the radicand. -/
structure Quadratic (R : Type u) where
  re : R
  im : R
deriving DecidableEq

/-- The numbers `c0 + c1·v + c2·v²`, where `v³` is the radicand. -/
structure Cubic (R : Type u) where
  c0 : R
  c1 : R
  c2 : R
deriving DecidableEq

namespace Quadratic

variable {R : Type u}

@[ext] theorem ext {a b : Quadratic R} (hr : a.re = b.re) (hi : a.im = b.im) : a = b := by
  cases a; cases b; cases hr; cases hi; rfl

instance [Zero R] : Zero (Quadratic R) := ⟨⟨0, 0⟩⟩
instance [Zero R] [One R] : One (Quadratic R) := ⟨⟨1, 0⟩⟩
instance [Add R] : Add (Quadratic R) := ⟨fun a b => ⟨a.re + b.re, a.im + b.im⟩⟩
instance [Sub R] : Sub (Quadratic R) := ⟨fun a b => ⟨a.re - b.re, a.im - b.im⟩⟩
instance [Neg R] : Neg (Quadratic R) := ⟨fun a => ⟨-a.re, -a.im⟩⟩

@[simp] theorem re_zero [Zero R] : (0 : Quadratic R).re = 0 := rfl
@[simp] theorem im_zero [Zero R] : (0 : Quadratic R).im = 0 := rfl
@[simp] theorem re_one [Zero R] [One R] : (1 : Quadratic R).re = 1 := rfl
@[simp] theorem im_one [Zero R] [One R] : (1 : Quadratic R).im = 0 := rfl
@[simp] theorem re_add [Add R] (a b : Quadratic R) : (a + b).re = a.re + b.re := rfl
@[simp] theorem im_add [Add R] (a b : Quadratic R) : (a + b).im = a.im + b.im := rfl
@[simp] theorem re_sub [Sub R] (a b : Quadratic R) : (a - b).re = a.re - b.re := rfl
@[simp] theorem im_sub [Sub R] (a b : Quadratic R) : (a - b).im = a.im - b.im := rfl
@[simp] theorem re_neg [Neg R] (a : Quadratic R) : (-a).re = -a.re := rfl
@[simp] theorem im_neg [Neg R] (a : Quadratic R) : (-a).im = -a.im := rfl

/-- Three products of the smaller ring instead of four. -/
protected def mul [Add R] [Sub R] [Mul R] [Radicand R] (a b : Quadratic R) : Quadratic R :=
  let low := a.re * b.re
  let high := a.im * b.im
  ⟨low + Radicand.scale high, (a.re + a.im) * (b.re + b.im) - low - high⟩

instance [Add R] [Sub R] [Mul R] [Radicand R] : Mul (Quadratic R) := ⟨Quadratic.mul⟩

/-- The square with two products of the smaller ring. -/
def square [Add R] [Sub R] [Mul R] [Radicand R] (a : Quadratic R) : Quadratic R :=
  let cross := a.re * a.im
  ⟨(a.re + a.im) * (a.re + Radicand.scale a.im) - cross - Radicand.scale cross, cross + cross⟩

/-- The other root of the radicand in place of `w`. -/
def conj [Neg R] (a : Quadratic R) : Quadratic R := ⟨a.re, -a.im⟩

/-- The product with the conjugate, a member of the smaller ring. -/
def norm [Sub R] [Mul R] [Radicand R] (a : Quadratic R) : R :=
  a.re * a.re - Radicand.scale (a.im * a.im)

instance [Sub R] [Mul R] [Neg R] [Inv R] [Radicand R] : Inv (Quadratic R) := ⟨fun a =>
  let t := a.norm⁻¹
  ⟨a.re * t, -(a.im * t)⟩⟩

/-- The product with a member of the smaller ring. -/
def scaleBy [Mul R] (a : Quadratic R) (k : R) : Quadratic R := ⟨a.re * k, a.im * k⟩

def pow [Zero R] [One R] [Add R] [Sub R] [Mul R] [Radicand R] (a : Quadratic R) (n : Nat) :
    Quadratic R :=
  Ladder.run square (· * a) 1 n

end Quadratic

namespace Cubic

variable {R : Type u}

@[ext] theorem ext {a b : Cubic R} (h0 : a.c0 = b.c0) (h1 : a.c1 = b.c1) (h2 : a.c2 = b.c2) :
    a = b := by
  cases a; cases b; cases h0; cases h1; cases h2; rfl

instance [Zero R] : Zero (Cubic R) := ⟨⟨0, 0, 0⟩⟩
instance [Zero R] [One R] : One (Cubic R) := ⟨⟨1, 0, 0⟩⟩
instance [Add R] : Add (Cubic R) := ⟨fun a b => ⟨a.c0 + b.c0, a.c1 + b.c1, a.c2 + b.c2⟩⟩
instance [Sub R] : Sub (Cubic R) := ⟨fun a b => ⟨a.c0 - b.c0, a.c1 - b.c1, a.c2 - b.c2⟩⟩
instance [Neg R] : Neg (Cubic R) := ⟨fun a => ⟨-a.c0, -a.c1, -a.c2⟩⟩

/-- Six products of the smaller ring instead of nine. -/
protected def mul [Add R] [Sub R] [Mul R] [Radicand R] (a b : Cubic R) : Cubic R :=
  let p0 := a.c0 * b.c0
  let p1 := a.c1 * b.c1
  let p2 := a.c2 * b.c2
  ⟨p0 + Radicand.scale ((a.c1 + a.c2) * (b.c1 + b.c2) - p1 - p2),
    (a.c0 + a.c1) * (b.c0 + b.c1) - p0 - p1 + Radicand.scale p2,
    (a.c0 + a.c2) * (b.c0 + b.c2) - p0 - p2 + p1⟩

instance [Add R] [Sub R] [Mul R] [Radicand R] : Mul (Cubic R) := ⟨Cubic.mul⟩

end Cubic

/-- The root `i` of `-1` is adjoined to the base field. -/
instance : Radicand Fq := ⟨fun a => -a⟩

abbrev Fq2 := Quadratic Fq

namespace Fq2

def ofNats (re im : Nat) : Fq2 := ⟨Residue.ofNat baseOrder re, Residue.ofNat baseOrder im⟩

/-- The element `9 + i`, neither a square nor a cube. -/
def xi : Fq2 := ofNats 9 1

end Fq2

/-- A cube root `v` of `9 + i` is adjoined. -/
instance : Radicand Fq2 := ⟨fun a =>
  let nine := Residue.ofNat baseOrder 9
  ⟨nine * a.re - a.im, nine * a.im + a.re⟩⟩

abbrev Fq6 := Cubic Fq2

/-- A square root `w` of `v` is adjoined. -/
instance : Radicand Fq6 := ⟨fun a => ⟨Radicand.scale a.c2, a.c0, a.c1⟩⟩

abbrev Fq12 := Quadratic Fq6

end FoldingVerifier
