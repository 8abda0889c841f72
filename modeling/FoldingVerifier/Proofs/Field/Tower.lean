import FoldingVerifier.Proofs.Field.Extension

/-! The tower over the base field is a commutative ring at every stage. The cubic extension
is one where its radicand acts as a multiplication, as the quadratic one is, and both
radicands further up, `9 + i` and its cube root, do so. Powers by ladder are the powers
of the ring. -/
namespace FoldingVerifier

namespace Cubic

section Components

variable {R : Type*}

@[simp] theorem c0_zero [Zero R] : (0 : Cubic R).c0 = 0 := rfl
@[simp] theorem c1_zero [Zero R] : (0 : Cubic R).c1 = 0 := rfl
@[simp] theorem c2_zero [Zero R] : (0 : Cubic R).c2 = 0 := rfl
@[simp] theorem c0_one [Zero R] [One R] : (1 : Cubic R).c0 = 1 := rfl
@[simp] theorem c1_one [Zero R] [One R] : (1 : Cubic R).c1 = 0 := rfl
@[simp] theorem c2_one [Zero R] [One R] : (1 : Cubic R).c2 = 0 := rfl
@[simp] theorem c0_add [Add R] (a b : Cubic R) : (a + b).c0 = a.c0 + b.c0 := rfl
@[simp] theorem c1_add [Add R] (a b : Cubic R) : (a + b).c1 = a.c1 + b.c1 := rfl
@[simp] theorem c2_add [Add R] (a b : Cubic R) : (a + b).c2 = a.c2 + b.c2 := rfl
@[simp] theorem c0_sub [Sub R] (a b : Cubic R) : (a - b).c0 = a.c0 - b.c0 := rfl
@[simp] theorem c1_sub [Sub R] (a b : Cubic R) : (a - b).c1 = a.c1 - b.c1 := rfl
@[simp] theorem c2_sub [Sub R] (a b : Cubic R) : (a - b).c2 = a.c2 - b.c2 := rfl
@[simp] theorem c0_neg [Neg R] (a : Cubic R) : (-a).c0 = -a.c0 := rfl
@[simp] theorem c1_neg [Neg R] (a : Cubic R) : (-a).c1 = -a.c1 := rfl
@[simp] theorem c2_neg [Neg R] (a : Cubic R) : (-a).c2 = -a.c2 := rfl

end Components

section Ring

variable {R : Type*} [CommRing R] [Radicand R] [LawfulRadicand R]

@[simp] theorem c0_mul (a b : Cubic R) :
    (a * b).c0 = a.c0 * b.c0 + Radicand.scale 1 * (a.c1 * b.c2 + a.c2 * b.c1) := by
  have h : (a * b).c0 = a.c0 * b.c0 +
      Radicand.scale ((a.c1 + a.c2) * (b.c1 + b.c2) - a.c1 * b.c1 - a.c2 * b.c2) := rfl
  rw [h, LawfulRadicand.scale_eq]
  ring

@[simp] theorem c1_mul (a b : Cubic R) :
    (a * b).c1 = a.c0 * b.c1 + a.c1 * b.c0 + Radicand.scale 1 * (a.c2 * b.c2) := by
  have h : (a * b).c1 = (a.c0 + a.c1) * (b.c0 + b.c1) - a.c0 * b.c0 - a.c1 * b.c1 +
      Radicand.scale (a.c2 * b.c2) := rfl
  rw [h, LawfulRadicand.scale_eq]
  ring

omit [LawfulRadicand R] in
@[simp] theorem c2_mul (a b : Cubic R) :
    (a * b).c2 = a.c0 * b.c2 + a.c1 * b.c1 + a.c2 * b.c0 := by
  have h : (a * b).c2 = (a.c0 + a.c2) * (b.c0 + b.c2) - a.c0 * b.c0 - a.c2 * b.c2 +
      a.c1 * b.c1 := rfl
  rw [h]
  ring

instance : NatCast (Cubic R) := ⟨fun n => ⟨n, 0, 0⟩⟩
instance : IntCast (Cubic R) := ⟨fun n => ⟨n, 0, 0⟩⟩

instance : CommRing (Cubic R) where
  add_assoc a b c := by ext <;> simp [add_assoc]
  zero_add a := by ext <;> simp
  add_zero a := by ext <;> simp
  add_comm a b := by ext <;> simp [add_comm]
  neg_add_cancel a := by ext <;> simp
  sub_eq_add_neg a b := by ext <;> simp [sub_eq_add_neg]
  zero_mul a := by ext <;> simp
  mul_zero a := by ext <;> simp
  one_mul a := by ext <;> simp
  mul_one a := by ext <;> simp
  mul_assoc a b c := by ext <;> simp only [c0_mul, c1_mul, c2_mul] <;> ring
  mul_comm a b := by ext <;> simp only [c0_mul, c1_mul, c2_mul] <;> ring
  left_distrib a b c := by
    ext <;> simp only [c0_mul, c1_mul, c2_mul, c0_add, c1_add, c2_add] <;> ring
  right_distrib a b c := by
    ext <;> simp only [c0_mul, c1_mul, c2_mul, c0_add, c1_add, c2_add] <;> ring
  natCast_zero := ext Nat.cast_zero rfl rfl
  natCast_succ n := ext (Nat.cast_succ n) (add_zero 0).symm (add_zero 0).symm
  intCast_ofNat n := ext (Int.cast_natCast n) rfl rfl
  intCast_negSucc n := ext (Int.cast_negSucc n) neg_zero.symm neg_zero.symm
  nsmul := nsmulRec
  zsmul := zsmulRec

end Ring

end Cubic

namespace Quadratic

variable {R : Type*} [CommRing R] [Radicand R] [LawfulRadicand R]

/-- Two products give the cross term and the sum of the squares. -/
theorem square_eq (a : Quadratic R) : a.square = a * a := by
  have hre : a.square.re = (a.re + a.im) * (a.re + Radicand.scale a.im) - a.re * a.im -
      Radicand.scale (a.re * a.im) := rfl
  have him : a.square.im = a.re * a.im + a.re * a.im := rfl
  ext
  · rw [hre, re_mul, LawfulRadicand.scale_eq a.im, LawfulRadicand.scale_eq (a.re * a.im)]
    ring
  · rw [him, im_mul]
    ring

theorem pow_eq (a : Quadratic R) (n : ℕ) : a.pow n = a ^ n := by
  refine Ladder.run_induction (R := fun v x => x = a ^ v) ?_ ?_ ?_ n
  · rintro v x rfl
    rw [square_eq, two_mul, pow_add]
  · rintro v x rfl
    rw [pow_succ]
  · rw [pow_zero]

end Quadratic

instance : LawfulRadicand Fq2 := ⟨fun a => by
  have hscale (c : Fq2) : (Radicand.scale c : Fq2) = ⟨9 * c.re - c.im, 9 * c.im + c.re⟩ := rfl
  have hradicand : Radicand.scale (1 : Fq) = -1 := rfl
  rw [hscale, hscale]
  ext : 1
  · simp only [Quadratic.re_mul, Quadratic.re_one, Quadratic.im_one, hradicand]
    ring
  · simp only [Quadratic.im_mul, Quadratic.re_one, Quadratic.im_one]
    ring⟩

instance : LawfulRadicand Fq6 := ⟨fun a => by
  have hscale (c : Fq6) : (Radicand.scale c : Fq6) = ⟨Radicand.scale c.c2, c.c0, c.c1⟩ := rfl
  have hzero : Radicand.scale (0 : Fq2) = 0 := by rw [LawfulRadicand.scale_eq, mul_zero]
  rw [hscale, hscale]
  ext : 1
  · simp [LawfulRadicand.scale_eq a.c2, hzero]
  · simp [hzero]
  · simp [hzero]⟩

end FoldingVerifier
