import FoldingVerifier.Proofs.Kzg
import Mathlib.Algebra.Polynomial.OfFn

/-! Evaluation of polynomials that are given by lists of coefficients, the lowest first. The
operations on polynomials are operations on such lists; evaluation takes them to those of the
scalars, and it is the same for lists that denote one polynomial over the scalars. Division by
the difference to a place is synthetic: the quotient lists the values, at that place, of what
stands above each coefficient. -/
namespace FoldingVerifier

namespace Coefficients

/-- Entry by entry; what the shorter list lacks counts as zero. -/
def sum : List ℤ → List ℤ → List ℤ
  | [], ds => ds
  | cs, [] => cs
  | c :: cs, d :: ds => (c + d) :: sum cs ds

/-- An entry sums the products of the entries whose places add up to its own. -/
def convolution (cs ds : List ℤ) : List ℤ :=
  (List.range (cs.length + ds.length - 1)).map fun k =>
    ∑ i ∈ Finset.range (k + 1), cs.getD i 0 * ds.getD (k - i) 0

/-- The values at `x` of all proper tails, the longest first. -/
def quotient (x : ℤ) : List ℤ → List ℤ
  | [] => []
  | [_] => []
  | _ :: c :: cs => polynomialValue (c :: cs) x :: quotient x (c :: cs)

theorem polynomialValue_sum (cs ds : List ℤ) (x : ℤ) :
    polynomialValue (sum cs ds) x = polynomialValue cs x + polynomialValue ds x := by
  induction cs, ds using sum.induct with
  | case1 ds => rw [sum, polynomialValue_nil, zero_add]
  | case2 cs hne =>
    rw [sum, polynomialValue_nil, add_zero]
    exact hne
  | case3 c cs d ds ih =>
    rw [sum, polynomialValue_cons, polynomialValue_cons, polynomialValue_cons, ih]
    ring

theorem polynomialValue_append_zeros (cs : List ℤ) (n : ℕ) (x : ℤ) :
    polynomialValue (cs ++ List.replicate n 0) x = polynomialValue cs x := by
  induction cs with
  | nil =>
    induction n with
    | zero => rfl
    | succ n ih =>
      rw [List.nil_append] at ih ⊢
      rw [List.replicate_succ, polynomialValue_cons, ih, polynomialValue_nil]
      ring
  | cons c cs ih => rw [List.cons_append, polynomialValue_cons, polynomialValue_cons, ih]

theorem polynomialValue_modEq {n x y : ℤ} {cs ds : List ℤ}
    (h : List.Forall₂ (fun c d => c ≡ d [ZMOD n]) cs ds) (hxy : x ≡ y [ZMOD n]) :
    polynomialValue cs x ≡ polynomialValue ds y [ZMOD n] := by
  induction h with
  | nil => rfl
  | cons hcd _ ih =>
    rw [polynomialValue_cons, polynomialValue_cons]
    exact hcd.add (ih.mul hxy)

/-- The polynomial with these coefficients. -/
noncomputable def toPolynomial (cs : List ℤ) : Polynomial ℤ := Polynomial.ofFn cs.length cs.get

theorem coeff_toPolynomial (cs : List ℤ) (k : ℕ) : (toPolynomial cs).coeff k = cs.getD k 0 := by
  by_cases hk : k < cs.length
  · rw [toPolynomial, Polynomial.ofFn_coeff_eq_val_of_lt _ hk, List.getD_eq_getElem _ _ hk]
    rfl
  · rw [not_lt] at hk
    rw [toPolynomial, Polynomial.ofFn_coeff_eq_zero_of_ge _ hk, List.getD_eq_default _ _ hk]

theorem eval_toPolynomial (cs : List ℤ) (x : ℤ) :
    (toPolynomial cs).eval x = polynomialValue cs x := by
  rw [toPolynomial, Polynomial.ofFn_eq_sum_monomial, Polynomial.eval_finsetSum]
  simp only [Polynomial.eval_monomial]
  rfl

/-- Beyond its length a convolution would have nothing but zeros. -/
theorem sum_products_eq_zero {cs ds : List ℤ} {k : ℕ} (hk : cs.length + ds.length - 1 ≤ k) :
    ∑ i ∈ Finset.range (k + 1), cs.getD i 0 * ds.getD (k - i) 0 = 0 := by
  apply Finset.sum_eq_zero
  intro i hi
  have hplace := Finset.mem_range.mp hi
  by_cases hlt : i < cs.length
  · rw [List.getD_eq_default ds 0 (by omega), mul_zero]
  · rw [List.getD_eq_default cs 0 (by omega), zero_mul]

theorem toPolynomial_convolution (cs ds : List ℤ) :
    toPolynomial (convolution cs ds) = toPolynomial cs * toPolynomial ds := by
  ext k
  rw [Polynomial.coeff_mul, coeff_toPolynomial,
    Finset.Nat.sum_antidiagonal_eq_sum_range_succ_mk]
  simp only [coeff_toPolynomial, Nat.succ_eq_add_one]
  have hlen : (convolution cs ds).length = cs.length + ds.length - 1 := by
    rw [convolution, List.length_map, List.length_range]
  by_cases hk : k < cs.length + ds.length - 1
  · rw [List.getD_eq_getElem _ _ (hlen ▸ hk)]
    simp only [convolution, List.getElem_map, List.getElem_range]
  · rw [not_lt] at hk
    rw [List.getD_eq_default _ _ (hlen ▸ hk), sum_products_eq_zero hk]

theorem polynomialValue_convolution (cs ds : List ℤ) (x : ℤ) :
    polynomialValue (convolution cs ds) x = polynomialValue cs x * polynomialValue ds x := by
  rw [← eval_toPolynomial, toPolynomial_convolution, Polynomial.eval_mul, eval_toPolynomial,
    eval_toPolynomial]

theorem length_quotient (x : ℤ) (cs : List ℤ) : (quotient x cs).length = cs.length - 1 := by
  induction cs using quotient.induct with
  | case1 => rfl
  | case2 => rfl
  | case3 c d ds ih =>
    rw [quotient, List.length_cons, ih]
    rfl

/-- The difference of two values has that of the places for a factor. -/
theorem polynomialValue_sub (cs : List ℤ) (x t : ℤ) :
    polynomialValue cs t - polynomialValue cs x =
      (t - x) * polynomialValue (quotient x cs) t := by
  induction cs using quotient.induct with
  | case1 =>
    simp only [quotient, polynomialValue_nil]
    ring
  | case2 c =>
    simp only [quotient, polynomialValue_cons, polynomialValue_nil]
    ring
  | case3 c d ds ih =>
    rw [quotient, polynomialValue_cons c, polynomialValue_cons c,
      polynomialValue_cons (polynomialValue (d :: ds) x)]
    linear_combination t * ih

end Coefficients

open Coefficients

theorem evalPolynomial_modEq (cs : List ℤ) (x : ℤ) :
    evalPolynomial cs x ≡ polynomialValue cs x [ZMOD scalarOrder] := by
  rw [evalPolynomial_eq]
  exact Int.mod_modEq _ _

theorem evalPolynomial_eq_iff {cs ds : List ℤ} {x y : ℤ} :
    evalPolynomial cs x = evalPolynomial ds y ↔
      polynomialValue cs x ≡ polynomialValue ds y [ZMOD scalarOrder] := by
  rw [evalPolynomial_eq, evalPolynomial_eq]
  rfl

/-- Evaluation yields the canonical scalar of the value. It does not see trailing zeros or which
representatives are given, takes sums and convolutions of lists to sums and products of scalars,
and for each place there is a quotient, shorter by one, that serves for all others. -/
theorem evalPolynomial_homomorphism (cs ds : List ℤ) (x : ℤ) :
    (0 ≤ evalPolynomial cs x ∧ evalPolynomial cs x < scalarOrder ∧
      evalPolynomial cs x ≡ polynomialValue cs x [ZMOD scalarOrder]) ∧
    (∀ n, evalPolynomial (cs ++ List.replicate n 0) x = evalPolynomial cs x) ∧
    (∀ (cs' : List ℤ) (x' : ℤ), List.Forall₂ (fun c c' => c ≡ c' [ZMOD scalarOrder]) cs cs' →
      x ≡ x' [ZMOD scalarOrder] → evalPolynomial cs' x' = evalPolynomial cs x) ∧
    evalPolynomial (Coefficients.sum cs ds) x =
      (evalPolynomial cs x + evalPolynomial ds x) % scalarOrder ∧
    evalPolynomial (Coefficients.convolution cs ds) x =
      evalPolynomial cs x * evalPolynomial ds x % scalarOrder ∧
    ∃ q : List ℤ, q.length = cs.length - 1 ∧ ∀ t,
      evalPolynomial cs t - evalPolynomial cs x ≡ (t - x) * evalPolynomial q t
        [ZMOD scalarOrder] := by
  obtain ⟨hnonneg, hlt⟩ := evalPolynomial_inRange cs x
  refine ⟨⟨hnonneg, hlt, evalPolynomial_modEq cs x⟩, ?_, ?_, ?_, ?_,
    quotient x cs, length_quotient x cs, ?_⟩
  · intro n
    rw [evalPolynomial_eq_iff, polynomialValue_append_zeros]
  · intro cs' x' hcs hx
    exact evalPolynomial_eq_iff.mpr (polynomialValue_modEq hcs hx).symm
  · rw [evalPolynomial_eq, polynomialValue_sum, Int.add_emod, ← evalPolynomial_eq,
      ← evalPolynomial_eq]
  · rw [evalPolynomial_eq, polynomialValue_convolution, Int.mul_emod, ← evalPolynomial_eq,
      ← evalPolynomial_eq]
  · intro t
    calc evalPolynomial cs t - evalPolynomial cs x
        ≡ polynomialValue cs t - polynomialValue cs x [ZMOD scalarOrder] :=
          (evalPolynomial_modEq cs t).sub (evalPolynomial_modEq cs x)
      _ = (t - x) * polynomialValue (quotient x cs) t := polynomialValue_sub cs x t
      _ ≡ (t - x) * evalPolynomial (quotient x cs) t [ZMOD scalarOrder] :=
          (evalPolynomial_modEq (quotient x cs) t).symm.mul_left (t - x)

/-- The polynomial `1 + 2x + 3x²` at two, given by other representatives and with zeros, and its
product with `x - 1`. -/
theorem evalPolynomial_homomorphism_quadratic :
    List.Forall₂ (fun c c' : ℤ => c ≡ c' [ZMOD scalarOrder]) [1, 2, 3]
      [1 - scalarOrder, 2 + 5 * scalarOrder, 3] ∧
    (2 : ℤ) ≡ 2 - 7 * scalarOrder [ZMOD scalarOrder] ∧
    evalPolynomial [1 - scalarOrder, 2 + 5 * scalarOrder, 3] (2 - 7 * scalarOrder) = 17 ∧
    evalPolynomial [1, 2, 3, 0, 0] 2 = 17 ∧
    evalPolynomial [-1, -1, -1, 3] 2 = 17 := by
  obtain ⟨-, hzeros, hclass, -, hproduct, -⟩ := evalPolynomial_homomorphism [1, 2, 3] [-1, 1] 2
  have hvalue : evalPolynomial [1, 2, 3] 2 = 17 := by decide
  have hconvolution : convolution [1, 2, 3] [-1, 1] = [-1, -1, -1, 3] := by decide
  have hcoefficients : List.Forall₂ (fun c c' : ℤ => c ≡ c' [ZMOD scalarOrder]) [1, 2, 3]
      [1 - scalarOrder, 2 + 5 * scalarOrder, 3] := by
    simp [Int.ModEq]
  have hplace : (2 : ℤ) ≡ 2 - 7 * scalarOrder [ZMOD scalarOrder] := by
    simp [Int.ModEq]
  refine ⟨hcoefficients, hplace, (hclass _ _ hcoefficients hplace).trans hvalue,
    (hzeros 2).trans hvalue, ?_⟩
  rw [← hconvolution, hproduct, hvalue]
  decide

end FoldingVerifier
