import FoldingVerifier.Field.Tower
import FoldingVerifier.Proofs.Field.Primality
import Mathlib.Algebra.Ring.Parity
import Mathlib.NumberTheory.LegendreSymbol.Basic
import Mathlib.Tactic.LinearCombination
import Mathlib.Tactic.Ring

/-! The quadratic extension is a commutative ring when its radicand acts as a
multiplication, and a field when the radicand has no root. Over the base field the
radicand is `-1`, which has none because the modulus is three more than a multiple
of four. -/
namespace FoldingVerifier

/-- Scaling by the radicand is a multiplication. -/
class LawfulRadicand (R : Type*) [CommRing R] [Radicand R] : Prop where
  scale_eq : ∀ a : R, Radicand.scale a = Radicand.scale 1 * a

namespace Quadratic

/-- The extension has the pairs of components for elements. -/
def componentsEquiv (R : Type*) : Quadratic R ≃ R × R where
  toFun a := (a.re, a.im)
  invFun c := ⟨c.1, c.2⟩

section Ring

variable {R : Type*} [CommRing R] [Radicand R]

/-- The cross terms, from three products. -/
@[simp] theorem im_mul (a b : Quadratic R) : (a * b).im = a.re * b.im + a.im * b.re := by
  have h : (a * b).im = (a.re + a.im) * (b.re + b.im) - a.re * b.re - a.im * b.im := rfl
  rw [h]
  ring

variable [LawfulRadicand R]

@[simp] theorem re_mul (a b : Quadratic R) :
    (a * b).re = a.re * b.re + Radicand.scale 1 * (a.im * b.im) := by
  rw [← LawfulRadicand.scale_eq]
  rfl

instance : NatCast (Quadratic R) := ⟨fun n => ⟨n, 0⟩⟩
instance : IntCast (Quadratic R) := ⟨fun n => ⟨n, 0⟩⟩

instance : CommRing (Quadratic R) where
  add_assoc a b c := by ext <;> simp [add_assoc]
  zero_add a := by ext <;> simp
  add_zero a := by ext <;> simp
  add_comm a b := by ext <;> simp [add_comm]
  neg_add_cancel a := by ext <;> simp
  sub_eq_add_neg a b := by ext <;> simp [sub_eq_add_neg]
  zero_mul a := by ext <;> simp
  mul_zero a := by ext <;> simp
  one_mul a := by ext <;> simp
  mul_one a := by ext <;> simp
  mul_assoc a b c := by ext <;> simp only [re_mul, im_mul] <;> ring
  mul_comm a b := by ext <;> simp only [re_mul, im_mul] <;> ring
  left_distrib a b c := by ext <;> simp only [re_mul, im_mul, re_add, im_add] <;> ring
  right_distrib a b c := by ext <;> simp only [re_mul, im_mul, re_add, im_add] <;> ring
  natCast_zero := ext Nat.cast_zero rfl
  natCast_succ n := ext (Nat.cast_succ n) (add_zero 0).symm
  intCast_ofNat n := ext (Int.cast_natCast n) rfl
  intCast_negSucc n := ext (Int.cast_negSucc n) neg_zero.symm
  nsmul := nsmulRec
  zsmul := zsmulRec

end Ring

section Field

variable {K : Type*} [Field K] [Radicand K] [LawfulRadicand K]

theorem norm_eq (a : Quadratic K) : a.norm = a.re * a.re - Radicand.scale 1 * (a.im * a.im) := by
  rw [← LawfulRadicand.scale_eq]
  rfl

/-- A norm that vanishes would give the radicand a root. -/
theorem norm_ne_zero (hr : ¬IsSquare (Radicand.scale (1 : K))) {a : Quadratic K} (ha : a ≠ 0) :
    a.norm ≠ 0 := by
  intro h
  rw [norm_eq] at h
  have him : a.im ≠ 0 := by
    intro hi
    rw [hi, mul_zero, mul_zero, sub_zero, mul_self_eq_zero] at h
    exact ha (ext h hi)
  refine hr ⟨a.re / a.im, ?_⟩
  rw [div_mul_div_comm, eq_div_iff (mul_ne_zero him him)]
  linear_combination -h

theorem mul_inv_of_ne_zero (hr : ¬IsSquare (Radicand.scale (1 : K))) {a : Quadratic K}
    (ha : a ≠ 0) : a * a⁻¹ = 1 := by
  have hn := norm_ne_zero hr ha
  have hinv : a⁻¹ = ⟨a.re * a.norm⁻¹, -(a.im * a.norm⁻¹)⟩ := rfl
  have hc := mul_inv_cancel₀ hn
  rw [hinv]
  ext
  · rw [re_mul, re_one]
    linear_combination hc - a.norm⁻¹ * norm_eq a
  · rw [im_mul, im_one]
    ring

omit [LawfulRadicand K] in
theorem inv_zero_eq : (0 : Quadratic K)⁻¹ = 0 := by
  have h : (0 : Quadratic K)⁻¹ = ⟨0 * (0 : Quadratic K).norm⁻¹, -(0 * (0 : Quadratic K).norm⁻¹)⟩ :=
    rfl
  rw [h]
  ext <;> simp

/-- The extension by a root that the field lacks. -/
abbrev field (hr : ¬IsSquare (Radicand.scale (1 : K))) : Field (Quadratic K) where
  __ := (inferInstance : CommRing (Quadratic K))
  inv := fun a => a⁻¹
  exists_pair_ne := ⟨0, 1, fun h => zero_ne_one (congrArg re h)⟩
  mul_inv_cancel _ ha := mul_inv_of_ne_zero hr ha
  inv_zero := inv_zero_eq
  nnqsmul := _
  nnqsmul_def := fun _ _ => rfl
  qsmul := _
  qsmul_def := fun _ _ => rfl

end Field

end Quadratic

instance : LawfulRadicand Fq := ⟨fun a => by
  show -a = -1 * a
  rw [neg_one_mul]⟩

theorem not_isSquare_radicand : ¬IsSquare (Radicand.scale (1 : Fq)) := by
  rintro ⟨c, hc⟩
  have hsq : (-1 : ZMod baseOrder) = Residue.zmodEquiv baseOrder c *
      Residue.zmodEquiv baseOrder c := by
    rw [← map_mul, ← hc]
    show _ = Residue.zmodEquiv baseOrder (-1)
    rw [map_neg, map_one]
  exact absurd (ZMod.exists_sq_eq_neg_one_iff.mp ⟨_, hsq⟩) (by decide)

instance : Field Fq2 := Quadratic.field not_isSquare_radicand

instance : Finite Fq2 := Finite.of_equiv _ (Quadratic.componentsEquiv Fq).symm

theorem card_fq2 : Nat.card Fq2 = baseOrder ^ 2 := by
  rw [Nat.card_congr (Quadratic.componentsEquiv Fq), Nat.card_prod, Residue.card_residue, sq]

end FoldingVerifier
