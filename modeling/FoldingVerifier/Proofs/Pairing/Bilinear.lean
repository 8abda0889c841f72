import FoldingVerifier.Pairing.Basic
import FoldingVerifier.Proofs.Curve.FirstGroup
import FoldingVerifier.Proofs.Curve.SecondGroup
import Mathlib.GroupTheory.SpecificGroups.Cyclic

/-! What the verifiers rely on in a pairing: its values multiply as in a commutative monoid,
reduction respects that, and the reduced values are bilinear on the two source groups.
Whatever else a pairing does at points outside of the groups is left open. One pairing that
meets all this is the one that is computed by who knows all discrete logarithms: its target
is written additively, and a value is the product of the logarithms of its arguments. -/
namespace FoldingVerifier
namespace Pairing

variable {e : Pairing}

/-- The pairing on group elements. -/
def pair (e : Pairing) (P : G1) (Q : G2) : e.Target := e.value P.point Q.point

structure Bilinear (e : Pairing) : Prop where
  mul_assoc : ∀ a b c : e.Target, e.mul (e.mul a b) c = e.mul a (e.mul b c)
  mul_comm : ∀ a b : e.Target, e.mul a b = e.mul b a
  one_mul : ∀ a : e.Target, e.mul e.one a = a
  reduce_one : e.reduce e.one = e.one
  reduce_mul : ∀ a b : e.Target, e.reduce (e.mul a b) = e.mul (e.reduce a) (e.reduce b)
  /-- The identity pairs with everything to one. -/
  zero_left : ∀ Q : G2, e.pair 0 Q = e.one
  zero_right : ∀ P : G1, e.pair P 0 = e.one
  add_left : ∀ (P P' : G1) (Q : G2), e.pair (P + P') Q = e.mul (e.pair P Q) (e.pair P' Q)
  add_right : ∀ (P : G1) (Q Q' : G2), e.pair P (Q + Q') = e.mul (e.pair P Q) (e.pair P Q')

/-- Some value is not one. -/
def Nondegenerate (e : Pairing) : Prop := ∃ P Q, e.pair P Q ≠ e.one

namespace Bilinear

variable (h : e.Bilinear)

include h

theorem mul_one (a : e.Target) : e.mul a e.one = a := by rw [h.mul_comm, h.one_mul]

theorem mul_pair_neg_left (P : G1) (Q : G2) : e.mul (e.pair P Q) (e.pair (-P) Q) = e.one := by
  rw [← h.add_left, add_neg_cancel, h.zero_left]

theorem mul_pair_neg_right (P : G1) (Q : G2) : e.mul (e.pair P Q) (e.pair P (-Q)) = e.one := by
  rw [← h.add_right, add_neg_cancel, h.zero_right]

/-- The values at group elements have inverses, so they cancel. -/
theorem mul_pair_cancel {a b : e.Target} {P : G1} {Q : G2} :
    e.mul a (e.pair P Q) = e.mul b (e.pair P Q) ↔ a = b := by
  refine ⟨fun heq => ?_, fun heq => by rw [heq]⟩
  have hm := congrArg (fun c => e.mul c (e.pair (-P) Q)) heq
  simpa only [h.mul_assoc, h.mul_pair_neg_left, h.mul_one] using hm

theorem mul_pair_neg_eq_one_iff {a : e.Target} {P : G1} {Q : G2} :
    e.mul a (e.pair (-P) Q) = e.one ↔ a = e.pair P Q := by
  rw [← h.mul_pair_neg_left P Q, h.mul_pair_cancel]

theorem neg_comm (P : G1) (Q : G2) : e.pair (-P) Q = e.pair P (-Q) := by
  have hl := h.mul_pair_neg_left P Q
  rw [← h.mul_pair_neg_right P Q, h.mul_comm _ (e.pair (-P) Q),
    h.mul_comm _ (e.pair P (-Q))] at hl
  exact h.mul_pair_cancel.mp hl

/-- Multiples move from one argument to the other. -/
theorem zsmul_comm (n : ℤ) (P : G1) (Q : G2) : e.pair (n • P) Q = e.pair P (n • Q) := by
  induction n with
  | zero => rw [zero_zsmul, zero_zsmul, h.zero_left, h.zero_right]
  | succ n ih => rw [add_one_zsmul, add_one_zsmul, h.add_left, h.add_right, ih]
  | pred n ih =>
    rw [sub_one_zsmul, sub_one_zsmul, h.add_left, h.add_right, ih, h.neg_comm]

/-- Multipliers of both arguments multiply. -/
theorem pair_zsmul_zsmul (m n : ℤ) (P : G1) (Q : G2) :
    e.pair (m • P) (n • Q) = e.pair ((m * n) • P) Q := by
  rw [← h.zsmul_comm, smul_smul, Int.mul_comm]

/-- A product of Miller values is one after reduction when the product of the reduced
values is. -/
theorem reduce_product (pairs : List (G1 × G2)) (a : e.Target) :
    e.reduce ((pairs.map fun pair => (pair.1.point, pair.2.point)).foldl
        (fun acc pair => e.mul acc (e.miller pair.1 pair.2)) a) =
      pairs.foldl (fun acc pair => e.mul acc (e.pair pair.1 pair.2)) (e.reduce a) := by
  induction pairs generalizing a with
  | nil => rfl
  | cons pair pairs ih =>
    rw [List.map_cons, List.foldl_cons, List.foldl_cons, ih, h.reduce_mul]
    rfl

theorem productIsOne_iff (pairs : List (G1 × G2)) :
    e.productIsOne (pairs.map fun pair => (pair.1.point, pair.2.point)) = true ↔
      pairs.foldl (fun acc pair => e.mul acc (e.pair pair.1 pair.2)) e.one = e.one := by
  rw [productIsOne, decide_eq_true_iff, product, h.reduce_product, h.reduce_one]

/-- The elements that pair with `P` to one. -/
def rightKernel (P : G1) : AddSubgroup G2 where
  carrier := {Q | e.pair P Q = e.one}
  zero_mem' := h.zero_right P
  add_mem' := fun {Q Q'} hQ hQ' => by
    rw [Set.mem_ofPred_eq] at hQ hQ' ⊢
    rw [h.add_right, hQ, hQ', h.one_mul]
  neg_mem' := fun {Q} hQ => by
    rw [Set.mem_ofPred_eq] at hQ ⊢
    rw [← h.one_mul (e.pair P (-Q)), ← hQ, h.mul_pair_neg_right, hQ]

/-- The elements that pair with `Q` to one. -/
def leftKernel (Q : G2) : AddSubgroup G1 where
  carrier := {P | e.pair P Q = e.one}
  zero_mem' := h.zero_left Q
  add_mem' := fun {P P'} hP hP' => by
    rw [Set.mem_ofPred_eq] at hP hP' ⊢
    rw [h.add_left, hP, hP', h.one_mul]
  neg_mem' := fun {P} hP => by
    rw [Set.mem_ofPred_eq] at hP ⊢
    rw [← h.one_mul (e.pair (-P) Q), ← hP, h.mul_pair_neg_left, hP]

theorem pair_right_eq_one {P : G1} {Q : G2} (hQ : Q ≠ 0) (hone : e.pair P Q = e.one) (Q' : G2) :
    e.pair P Q' = e.one := by
  have hp : Fact (Nat.card G2).Prime := ⟨G2.card_eq ▸ scalarOrder_prime⟩
  have hmem : Q ∈ h.rightKernel P := hone
  rcases (h.rightKernel P).eq_bot_or_eq_top_of_prime_card with hb | ht
  · rw [hb, AddSubgroup.mem_bot] at hmem
    exact absurd hmem hQ
  · exact (ht ▸ AddSubgroup.mem_top Q' : Q' ∈ h.rightKernel P)

theorem pair_left_eq_one {P : G1} {Q : G2} (hP : P ≠ 0) (hone : e.pair P Q = e.one) (P' : G1) :
    e.pair P' Q = e.one := by
  have hp : Fact (Nat.card G1).Prime := ⟨G1.card_eq ▸ scalarOrder_prime⟩
  have hmem : P ∈ h.leftKernel Q := hone
  rcases (h.leftKernel Q).eq_bot_or_eq_top_of_prime_card with hb | ht
  · rw [hb, AddSubgroup.mem_bot] at hmem
    exact absurd hmem hP
  · exact (ht ▸ AddSubgroup.mem_top P' : P' ∈ h.leftKernel Q)

/-- As both groups have prime order, one value other than one leaves no room for a
kernel. -/
theorem pair_eq_one_iff (hn : e.Nondegenerate) {P : G1} {Q : G2} :
    e.pair P Q = e.one ↔ P = 0 ∨ Q = 0 := by
  constructor
  · intro hone
    by_contra hne
    obtain ⟨hP, hQ⟩ := not_or.mp hne
    obtain ⟨P', Q', hne'⟩ := hn
    exact hne' (h.pair_left_eq_one hP (h.pair_right_eq_one hQ hone Q') P')
  · rintro (rfl | rfl)
    · exact h.zero_left Q
    · exact h.zero_right P

theorem left_injective (hn : e.Nondegenerate) {P P' : G1} {Q : G2} (hQ : Q ≠ 0)
    (heq : e.pair P Q = e.pair P' Q) : P = P' := by
  have hone : e.pair (P + -P') Q = e.one := by
    rw [h.add_left]
    exact h.mul_pair_neg_eq_one_iff.mpr heq
  exact add_neg_eq_zero.mp (((h.pair_eq_one_iff hn).mp hone).resolve_right hQ)

theorem right_injective (hn : e.Nondegenerate) {P : G1} {Q Q' : G2} (hP : P ≠ 0)
    (heq : e.pair P Q = e.pair P Q') : Q = Q' := by
  have hone : e.pair P (Q + -Q') = e.one := by
    rw [h.add_right, ← h.neg_comm]
    exact h.mul_pair_neg_eq_one_iff.mpr heq
  exact add_neg_eq_zero.mp (((h.pair_eq_one_iff hn).mp hone).resolve_left hP)

end Bilinear
end Pairing

/-- The logarithm to the base of the generator. -/
noncomputable def G1.logarithm : G1 ≃+ ZMod scalarOrder :=
  (zmodAddEquivOfGenerator
    (fun _ => mem_zmultiples_of_prime_card G1.card_eq G1.generator_ne_zero) G1.card_eq).symm

noncomputable def G2.logarithm : G2 ≃+ ZMod scalarOrder :=
  (zmodAddEquivOfGenerator
    (fun _ => mem_zmultiples_of_prime_card G2.card_eq G2.generator_ne_zero) G2.card_eq).symm

open Classical in
/-- Bare points outside of the groups get the logarithm of the identity. -/
noncomputable def Pairing.logarithmic : Pairing where
  Target := ZMod scalarOrder
  one := 0
  mul := fun a b => a + b
  miller := fun P Q =>
    if h : P.OnCurve g1Coefficient ∧ Q.OnCurve twistCoefficient ∧ Q.Annihilated scalarOrder then
      G1.logarithm ⟨P, h.1⟩ * G2.logarithm ⟨Q, h.2.1, h.2.2⟩
    else 0
  reduce := id
  decEq := inferInstance

namespace Pairing

theorem pair_logarithmic (P : G1) (Q : G2) :
    logarithmic.pair P Q = G1.logarithm P * G2.logarithm Q :=
  dif_pos ⟨P.onCurve, Q.onCurve, Q.inSubgroup⟩

theorem bilinear_logarithmic : logarithmic.Bilinear where
  mul_assoc := fun a b c => add_assoc (G := ZMod scalarOrder) a b c
  mul_comm := fun a b => add_comm (G := ZMod scalarOrder) a b
  one_mul := fun a => zero_add (M := ZMod scalarOrder) a
  reduce_one := rfl
  reduce_mul := fun _ _ => rfl
  zero_left := fun Q => by
    rw [pair_logarithmic, map_zero, zero_mul]
    rfl
  zero_right := fun P => by
    rw [pair_logarithmic, map_zero, mul_zero]
    rfl
  add_left := fun P P' Q => by
    rw [pair_logarithmic, pair_logarithmic, pair_logarithmic, map_add, add_mul]
    rfl
  add_right := fun P Q Q' => by
    rw [pair_logarithmic, pair_logarithmic, pair_logarithmic, map_add, mul_add]
    rfl

theorem nondegenerate_logarithmic : logarithmic.Nondegenerate := by
  refine ⟨G1.generator, G2.generator, ?_⟩
  rw [pair_logarithmic]
  intro h
  have h0 : G1.logarithm G1.generator * G2.logarithm G2.generator = 0 := h
  rcases mul_eq_zero.mp h0 with h1 | h2
  · exact G1.generator_ne_zero ((map_eq_zero_iff _ G1.logarithm.injective).mp h1)
  · exact G2.generator_ne_zero ((map_eq_zero_iff _ G2.logarithm.injective).mp h2)

end Pairing
end FoldingVerifier
