import FoldingVerifier.Kzg
import FoldingVerifier.Proofs.Curve.Decoding
import FoldingVerifier.Proofs.Pairing.Bilinear

/-! The rearranged opening equation is the usual one: the pairing of the opening with
`t - x` is that of `C - y·g₁` with the second generator. Commitment and opening determine
each other, and the quotient of a polynomial opens it at every place but the secret. -/
namespace FoldingVerifier
namespace KzgKey

variable {e : Pairing}

theorem ofCoords_coords (k : KzgKey) :
    ofCoords k.g1.coords k.g2.coords k.secret.coords = .ok k := by
  simp only [ofCoords, G1Coords.decode_of_coords, G2Coords.decode_of_coords]
  rfl

theorem opens_eq (e : Pairing) (k : KzgKey) (C π : G1) (x y : ℤ) :
    k.opens e C.point π.point x y =
      e.productIsOne ([(π, k.secret), ((-x) • π + -C + y • k.g1, k.g2)].map
        fun pair => (pair.1.point, pair.2.point)) := by
  rw [List.map_cons, List.map_cons, List.map_nil, G1.point_add, G1.point_add, G1.point_zsmul,
    G1.point_zsmul, G1.point_neg]
  rfl

theorem opens_iff (h : e.Bilinear) (k : KzgKey) (C π : G1) (x y : ℤ) :
    k.opens e C.point π.point x y = true ↔
      e.pair π (k.secret - x • k.g2) = e.pair (C - y • k.g1) k.g2 := by
  rw [opens_eq, h.productIsOne_iff, List.foldl_cons, List.foldl_cons, List.foldl_nil, h.one_mul]
  have hrest : (-x) • π + -C + y • k.g1 = (-x) • π + -(C - y • k.g1) := by abel
  have hleft : e.pair π (k.secret - x • k.g2) =
      e.mul (e.pair π k.secret) (e.pair ((-x) • π) k.g2) := by
    rw [sub_eq_add_neg, ← neg_zsmul, h.add_right, h.zsmul_comm]
  rw [hrest, h.add_left, ← h.mul_assoc, ← hleft]
  exact h.mul_pair_neg_eq_one_iff

section Uniqueness

variable (h : e.Bilinear) (hn : e.Nondegenerate) {k : KzgKey} {C C' π π' : G1} {x y : ℤ}

include h hn

theorem commitment_unique (hg : k.g2 ≠ 0) (ho : k.opens e C.point π.point x y = true)
    (ho' : k.opens e C'.point π.point x y = true) : C = C' := by
  rw [opens_iff h] at ho ho'
  exact sub_left_injective (h.left_injective hn hg (ho.symm.trans ho'))

/-- At the secret itself every point opens the commitment, or none. -/
theorem opening_unique (hx : x • k.g2 ≠ k.secret) (ho : k.opens e C.point π.point x y = true)
    (ho' : k.opens e C.point π'.point x y = true) : π = π' := by
  rw [opens_iff h] at ho ho'
  have hne : k.secret - x • k.g2 ≠ 0 := sub_ne_zero.mpr hx.symm
  exact h.left_injective hn hne (ho.trans ho'.symm)

end Uniqueness

end KzgKey

/-- The value of the polynomial with the given coefficients over the integers. -/
def polynomialValue (coefficients : List ℤ) (x : ℤ) : ℤ :=
  ∑ i : Fin coefficients.length, coefficients.get i * x ^ (i : ℕ)

theorem polynomialValue_nil (x : ℤ) : polynomialValue [] x = 0 := rfl

theorem polynomialValue_cons (c : ℤ) (cs : List ℤ) (x : ℤ) :
    polynomialValue (c :: cs) x = c + polynomialValue cs x * x := by
  simp [polynomialValue, Fin.sum_univ_succ, Finset.sum_mul, pow_succ, mul_assoc]

/-- Evaluation yields the canonical scalar of the value. -/
theorem evalPolynomial_eq (coefficients : List ℤ) (x : ℤ) :
    evalPolynomial coefficients x = polynomialValue coefficients x % scalarOrder := by
  have hfold : coefficients.foldr (fun c acc => Residue.ofInt scalarOrder c +
      acc * Residue.ofInt scalarOrder x) (0 : Fr) =
        Residue.ofInt scalarOrder (polynomialValue coefficients x) := by
    induction coefficients with
    | nil => rfl
    | cons c cs ih =>
      apply Residue.toZMod_injective
      simp only [List.foldr_cons, ih, polynomialValue_cons, Residue.toZMod_add, Residue.toZMod_mul,
        Residue.toZMod_ofInt, Int.cast_add, Int.cast_mul]
  rw [evalPolynomial, hfold]
  exact Residue.val_ofInt _

theorem evalPolynomial_inRange (coefficients : List ℤ) (x : ℤ) :
    0 ≤ evalPolynomial coefficients x ∧ evalPolynomial coefficients x < scalarOrder :=
  ⟨Int.natCast_nonneg _, Int.ofNat_lt.mpr (Residue.isLt _)⟩

namespace KzgKey

variable {e : Pairing}

/-- With the multiplier of the secret known, an equation in the first group is enough. -/
theorem opens_of_zsmul_eq (h : e.Bilinear) {k : KzgKey} {τ : ℤ} (hk : k.secret = τ • k.g2)
    {C π : G1} {x y : ℤ} (heq : (τ - x) • π = C - y • k.g1) :
    k.opens e C.point π.point x y = true := by
  rw [opens_iff h, hk, ← sub_smul, ← h.zsmul_comm, heq]

/-- The quotient of the differences of values and of places. -/
def openingScalar (coefficients : List ℤ) (τ x : ℤ) : ℤ :=
  (Residue.ofInt scalarOrder (polynomialValue coefficients τ - polynomialValue coefficients x) *
    (Residue.ofInt scalarOrder (τ - x))⁻¹).val

theorem mul_openingScalar {τ x : ℤ} (hx : ¬x ≡ τ [ZMOD scalarOrder]) (coefficients : List ℤ) :
    (τ - x) * openingScalar coefficients τ x ≡
      polynomialValue coefficients τ - polynomialValue coefficients x [ZMOD scalarOrder] := by
  have hne : Residue.ofInt scalarOrder (τ - x) ≠ 0 := by
    intro h0
    exact hx (Int.modEq_iff_dvd.mpr ((Residue.ofInt_eq_zero_iff _).mp h0))
  have hinv := congrArg Residue.toZMod (Residue.mul_inv_of_prime scalarOrder_prime hne)
  rw [Residue.toZMod_mul, Residue.toZMod_one, Residue.toZMod_ofInt] at hinv
  have hval : (openingScalar coefficients τ x : ZMod scalarOrder) =
      Residue.toZMod (Residue.ofInt scalarOrder
        (polynomialValue coefficients τ - polynomialValue coefficients x)) *
          Residue.toZMod (Residue.ofInt scalarOrder (τ - x))⁻¹ := by
    rw [openingScalar, Int.cast_natCast]
    exact Residue.toZMod_mul _ _
  rw [← ZMod.intCast_eq_intCast_iff, Int.cast_mul, hval, Residue.toZMod_ofInt]
  linear_combination ((polynomialValue coefficients τ - polynomialValue coefficients x : ℤ) :
    ZMod scalarOrder) * hinv

theorem opens_honest (h : e.Bilinear) {k : KzgKey} {τ x : ℤ} (hk : k.secret = τ • k.g2)
    (hx : ¬x ≡ τ [ZMOD scalarOrder]) (coefficients : List ℤ) :
    k.opens e (polynomialValue coefficients τ • k.g1).point
      (openingScalar coefficients τ x • k.g1).point x (evalPolynomial coefficients x) = true := by
  apply opens_of_zsmul_eq h hk
  rw [smul_smul, evalPolynomial_eq, G1.emod_zsmul, ← sub_smul]
  exact G1.zsmul_congr (mul_openingScalar hx coefficients) k.g1

end KzgKey
end FoldingVerifier
