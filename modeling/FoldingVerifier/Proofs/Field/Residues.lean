import FoldingVerifier.Field.Modulus
import Mathlib.Algebra.Field.Basic
import Mathlib.Algebra.Ring.InjSurj
import Mathlib.Data.ZMod.Basic
import Mathlib.FieldTheory.Finite.Basic
import Mathlib.Tactic

/-! Residues form a commutative ring, and a field when the modulus is an odd prime. Everything
is carried over from the integers modulo `p` along the map that forgets the choice of
representative. Powers are what their ladders compute: the binary digits of a number denote
it, so that a climb along them keeps a relation between numbers and values up to that number. -/
namespace FoldingVerifier
namespace Ladder

/-- The number that digits denote behind a number `v`. -/
def value (v : Nat) (digits : List Bool) : Nat :=
  digits.foldl (fun v d => 2 * v + d.toNat) v

theorem value_low_bits (n k v : Nat) :
    value v ((List.range k).reverse.map n.testBit) = v * 2 ^ k + n % 2 ^ k := by
  induction k generalizing v with
  | zero => simp [value, Nat.mod_one]
  | succ k ih =>
    have hstep : value v ((List.range (k + 1)).reverse.map n.testBit) =
        value (2 * v + (n.testBit k).toNat) ((List.range k).reverse.map n.testBit) := by
      simp [value, List.range_succ]
    rw [hstep, ih, Nat.mod_pow_succ, Nat.toNat_testBit, Nat.add_mul, Nat.pow_succ]
    rw [show 2 * v * 2 ^ k = v * (2 ^ k * 2) by
      rw [Nat.mul_comm 2 v, Nat.mul_assoc, Nat.mul_comm 2]]
    rw [Nat.mul_comm (n / 2 ^ k % 2)]
    omega

theorem value_bits (n : Nat) : value 0 (bits n) = n := by
  rw [bits, value_low_bits, Nat.zero_mul, Nat.zero_add]
  exact Nat.mod_eq_of_lt Nat.lt_log2_self

variable {α : Type*} {double add : α → α} {R : ℕ → α → Prop}

/-- A climb keeps a relation to the number denoted so far. -/
theorem climb_induction (hd : ∀ v a, R v a → R (2 * v) (double a))
    (ha : ∀ v a, R v a → R (v + 1) (add a)) {v : ℕ} {a : α} (h : R v a) (digits : List Bool) :
    R (value v digits) (climb double add a digits) := by
  induction digits generalizing v a with
  | nil => exact h
  | cons d ds ih =>
    cases d with
    | false => exact ih (hd v a h)
    | true => exact ih (ha _ _ (hd v a h))

theorem run_induction (hd : ∀ v a, R v a → R (2 * v) (double a))
    (ha : ∀ v a, R v a → R (v + 1) (add a)) {a : α} (h : R 0 a) (n : ℕ) :
    R n (run double add a n) := by
  have hr := climb_induction hd ha h (bits n)
  rwa [value_bits] at hr

end Ladder

namespace Residue

variable {p : Nat}

instance [Positive p] : NeZero p := ⟨Positive.pos.ne'⟩
instance (n : Nat) : Positive (n + 1) := ⟨n.succ_pos⟩

/-- The class of a representative. -/
def toZMod (a : Residue p) : ZMod p := (a.val : ZMod p)

theorem toZMod_ofNat [Positive p] (n : Nat) : toZMod (ofNat p n) = (n : ZMod p) :=
  ZMod.natCast_mod n p

theorem toZMod_ofInt [Positive p] (z : Int) : toZMod (ofInt p z) = (z : ZMod p) := by
  have h := val_ofInt (p := p) z
  have hc : ((((ofInt p z).val : Int)) : ZMod p) = ((z % p : Int) : ZMod p) := congrArg _ h
  rw [ZMod.intCast_mod, Int.cast_natCast] at hc
  exact hc

theorem toZMod_injective : Function.Injective (toZMod (p := p)) := by
  intro a b h
  have h' : a.val ≡ b.val [MOD p] := (ZMod.natCast_eq_natCast_iff _ _ _).mp h
  exact ext (Nat.ModEq.eq_of_lt_of_lt h' a.isLt b.isLt)

instance [Positive p] : NatCast (Residue p) := ⟨ofNat p⟩
instance [Positive p] : IntCast (Residue p) := ⟨ofInt p⟩
instance [Positive p] : SMul ℕ (Residue p) := ⟨fun n a => ofNat p n * a⟩
instance [Positive p] : SMul ℤ (Residue p) := ⟨fun n a => ofInt p n * a⟩
instance [Positive p] : Pow (Residue p) ℕ := ⟨pow⟩

theorem toZMod_zero [Positive p] : toZMod (0 : Residue p) = 0 := by
  rw [show (0 : Residue p) = ofNat p 0 from rfl, toZMod_ofNat, Nat.cast_zero]

theorem toZMod_one [Positive p] : toZMod (1 : Residue p) = 1 := by
  rw [show (1 : Residue p) = ofNat p 1 from rfl, toZMod_ofNat, Nat.cast_one]

theorem ofInt_eq_zero_iff [Positive p] (z : ℤ) : ofInt p z = 0 ↔ (p : ℤ) ∣ z := by
  rw [← toZMod_injective.eq_iff, toZMod_ofInt, toZMod_zero, ZMod.intCast_zmod_eq_zero_iff_dvd]

theorem toZMod_mul (a b : Residue p) : toZMod (a * b) = toZMod a * toZMod b := by
  simp only [toZMod, val_mul, ZMod.natCast_mod, Nat.cast_mul]

theorem toZMod_add (a b : Residue p) : toZMod (a + b) = toZMod a + toZMod b := by
  simp only [toZMod, val_add, ZMod.natCast_mod, Nat.cast_add]

theorem toZMod_neg (a : Residue p) : toZMod (-a) = -toZMod a := by
  simp only [toZMod, val_neg, ZMod.natCast_mod, Nat.cast_sub a.isLt.le, CharP.cast_eq_zero,
    zero_sub]

theorem toZMod_sub (a b : Residue p) : toZMod (a - b) = toZMod a - toZMod b := by
  simp only [toZMod, val_sub, ZMod.natCast_mod, Nat.cast_add, Nat.cast_sub b.isLt.le,
    CharP.cast_eq_zero, zero_sub]
  rw [sub_eq_add_neg]

/-- The ladder for powers climbs through the powers of the representative. -/
theorem pow_eq_ofNat [Positive p] (a : Residue p) (n : Nat) : a.pow n = ofNat p (a.val ^ n) := by
  have hd : ∀ v x, x = ofNat p (a.val ^ v) → x * x = ofNat p (a.val ^ (2 * v)) := by
    intro v x hx
    apply ext
    rw [hx, val_mul, val_ofNat, val_ofNat, ← Nat.mul_mod, two_mul, pow_add]
  have ha : ∀ v x, x = ofNat p (a.val ^ v) → x * a = ofNat p (a.val ^ (v + 1)) := by
    intro v x hx
    apply ext
    rw [hx, val_mul, val_ofNat, val_ofNat, Nat.mod_mul_mod, pow_succ]
  exact Ladder.run_induction hd ha rfl n

theorem toZMod_pow [Positive p] (a : Residue p) (n : Nat) : toZMod (a.pow n) = toZMod a ^ n := by
  rw [pow_eq_ofNat, toZMod_ofNat, Nat.cast_pow]
  rfl

instance [Positive p] : CommRing (Residue p) :=
  toZMod_injective.commRing toZMod toZMod_zero toZMod_one toZMod_add toZMod_mul toZMod_neg
    toZMod_sub
    (fun n a => by
      rw [show n • a = ofNat p n * a from rfl, toZMod_mul, toZMod_ofNat, nsmul_eq_mul])
    (fun n a => by
      rw [show n • a = ofInt p n * a from rfl, toZMod_mul, toZMod_ofInt, zsmul_eq_mul])
    toZMod_pow toZMod_ofNat toZMod_ofInt

/-- The ring of residues is the ring of integers modulo `p`. -/
def zmodEquiv (p : Nat) [Positive p] : Residue p ≃+* ZMod p where
  toFun := toZMod
  invFun z := ⟨z.val, ZMod.val_lt z⟩
  left_inv a := ext (ZMod.val_natCast_of_lt a.isLt)
  right_inv z := ZMod.natCast_zmod_val z
  map_mul' := toZMod_mul
  map_add' := toZMod_add

instance [Positive p] : Finite (Residue p) := Finite.of_equiv _ (zmodEquiv p).symm.toEquiv

theorem card_residue (p : Nat) [Positive p] : Nat.card (Residue p) = p := by
  rw [Nat.card_congr (zmodEquiv p).toEquiv, Nat.card_zmod]

/-- Fermat: the power `p - 2` inverts every residue but zero. -/
theorem mul_inv_of_prime [Positive p] (hp : p.Prime) {a : Residue p} (ha : a ≠ 0) :
    a * a⁻¹ = 1 := by
  have : Fact p.Prime := ⟨hp⟩
  have hz : toZMod a ≠ 0 := by
    intro h
    exact ha (toZMod_injective (h.trans toZMod_zero.symm))
  have hexp : p - 1 = p - 2 + 1 := by have := hp.two_le; omega
  apply toZMod_injective
  rw [toZMod_mul, show a⁻¹ = a.pow (p - 2) from rfl, toZMod_pow, toZMod_one, ← pow_succ', ← hexp]
  exact ZMod.pow_card_sub_one_eq_one hz

theorem inv_zero_of_two_lt [Positive p] (hp : 2 < p) : (0 : Residue p)⁻¹ = 0 := by
  apply toZMod_injective
  rw [show (0 : Residue p)⁻¹ = (0 : Residue p).pow (p - 2) from rfl, toZMod_pow, toZMod_zero]
  exact zero_pow (by omega)

/-- The field of residues modulo an odd prime, with the inverse by ladder. -/
abbrev field (p : Nat) [Positive p] (hp : p.Prime) (h2 : 2 < p) : Field (Residue p) where
  __ := (inferInstance : CommRing (Residue p))
  inv := fun a => a⁻¹
  exists_pair_ne := by
    refine ⟨0, 1, fun h => ?_⟩
    have h1 := congrArg Residue.val h
    rw [val_zero, val_one, Nat.mod_eq_of_lt (by omega)] at h1
    omega
  mul_inv_cancel _ ha := mul_inv_of_prime hp ha
  inv_zero := inv_zero_of_two_lt h2
  nnqsmul := _
  nnqsmul_def := fun _ _ => rfl
  qsmul := _
  qsmul_def := fun _ _ => rfl

end Residue
end FoldingVerifier
