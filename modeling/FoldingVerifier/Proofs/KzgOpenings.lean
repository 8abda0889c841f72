import FoldingVerifier.Proofs.Kzg
import FoldingVerifier.Proofs.MalformedPoints
import FoldingVerifier.Proofs.Pairing.Bilinear

/-! What a key with a known multiplier of the secret accepts. The pairing equation is an
equation in the first group, so that the quotient of a polynomial opens its commitment, no
commitment opens to two canonical values at one place, and place and value count modulo the
group order only. -/
namespace FoldingVerifier

/-- A multiple depends on the residue of its multiplier. -/
theorem Point.scale_congr (P : Point Fq) {s t : ℤ} (h : s ≡ t [ZMOD scalarOrder]) :
    P.scale s = P.scale t := by
  have hres : Residue.ofInt scalarOrder s = Residue.ofInt scalarOrder t := by
    rw [Residue.ofInt, Residue.ofInt, h]
  rw [scale, scale, hres]

namespace KzgKey

variable {e : Pairing} {k : KzgKey} {τ : ℤ}

theorem check_congr (e : Pairing) (k : KzgKey) (C π : G1Coords) {x x' y y' : ℤ}
    (hx : x ≡ x' [ZMOD scalarOrder]) (hy : y ≡ y' [ZMOD scalarOrder]) :
    k.check e C π x y = k.check e C π x' y' := by
  simp only [check, opens, Point.scale_congr _ hx.neg, Point.scale_congr _ hy]

theorem check_of_valid (e : Pairing) (k : KzgKey) {C π : G1Coords} (hC : C.Valid)
    (hπ : π.Valid) (x y : ℤ) :
    k.check e C π x y = .ok (k.opens e C.element.point π.element.point x y) := by
  rw [check, G1Coords.decode_of_valid hπ, G1Coords.decode_of_valid hC]
  rfl

/-- Points that are malformed open nothing. -/
theorem valid_of_check_eq_ok {C π : G1Coords} {x y : ℤ} {b : Bool}
    (h : k.check e C π x y = .ok b) : π.Valid ∧ C.Valid := by
  have hboth := (guarded_check e k C π x y).returns_iff.mp ⟨b, h⟩
  tauto

section Secret

variable (h : e.Bilinear) (hn : e.Nondegenerate) (hg : k.g2 ≠ 0) (hτ : k.secret = τ • k.g2)

include h hn hg hτ

theorem opens_iff_zsmul_eq (C π : G1) (x y : ℤ) :
    k.opens e C.point π.point x y = true ↔ (τ - x) • π = C - y • k.g1 := by
  constructor
  · intro ho
    rw [opens_iff h, hτ, ← sub_smul, ← h.zsmul_comm] at ho
    exact h.left_injective hn hg ho
  · exact opens_of_zsmul_eq h hτ

/-- One opening proof leaves no choice of the value, up to the group order. -/
theorem value_modEq (hg1 : k.g1 ≠ 0) {C π : G1} {x y y' : ℤ}
    (ho : k.opens e C.point π.point x y = true) (ho' : k.opens e C.point π.point x y' = true) :
    y ≡ y' [ZMOD scalarOrder] := by
  rw [opens_iff_zsmul_eq h hn hg hτ] at ho ho'
  have hmultiples : (y' - y) • k.g1 = 0 := by
    rw [sub_smul, sub_eq_zero]
    exact sub_right_injective (ho'.symm.trans ho)
  exact Int.modEq_iff_dvd.mpr ((G1.zsmul_eq_zero_iff hg1).mp hmultiples)

/-- The check decides the equation of the openings. It passes for every polynomial and place
with the quotient as the proof, whatever representative of it is taken, and it binds: with
one proof a commitment is opened to one canonical value at most. -/
theorem check_complete_and_binding :
    (∀ C π : G1Coords, C.Valid → π.Valid → ∀ x y : ℤ,
      k.check e C π x y =
        .ok (decide ((τ - x) • π.element = C.element - y • k.g1))) ∧
    (∀ (coefficients : List ℤ) (x : ℤ), ¬x ≡ τ [ZMOD scalarOrder] →
      (∃ d, (τ - x) * d ≡ polynomialValue coefficients τ - polynomialValue coefficients x
        [ZMOD scalarOrder]) ∧
      ∀ d, (τ - x) * d ≡ polynomialValue coefficients τ - polynomialValue coefficients x
          [ZMOD scalarOrder] →
        k.check e (polynomialValue coefficients τ • k.g1).coords (d • k.g1).coords x
          (evalPolynomial coefficients x) = .ok true) ∧
    (k.g1 ≠ 0 → ∀ (C π : G1Coords) (x y y' : ℤ), 0 ≤ y → y < scalarOrder → 0 ≤ y' →
      y' < scalarOrder → k.check e C π x y = .ok true → k.check e C π x y' = .ok true →
        y = y') ∧
    ∀ (C π : G1Coords) (x x' y y' : ℤ), x ≡ x' [ZMOD scalarOrder] →
      y ≡ y' [ZMOD scalarOrder] → k.check e C π x y = k.check e C π x' y' := by
  refine ⟨?_, ?_, ?_, fun C π _ _ _ _ hx hy => check_congr e k C π hx hy⟩
  · intro C π hC hπ x y
    rw [check_of_valid e k hC hπ, Except.ok.injEq, Bool.eq_iff_iff, decide_eq_true_iff]
    exact opens_iff_zsmul_eq h hn hg hτ C.element π.element x y
  · intro coefficients x hx
    refine ⟨⟨_, mul_openingScalar hx coefficients⟩, ?_⟩
    intro d hd
    rw [check_of_valid e k (G1Coords.valid_coords _) (G1Coords.valid_coords _),
      G1Coords.element_coords, G1Coords.element_coords, Except.ok.injEq,
      opens_iff_zsmul_eq h hn hg hτ, smul_smul, evalPolynomial_eq, G1.emod_zsmul, ← sub_smul]
    exact G1.zsmul_congr hd k.g1
  · intro hg1 C π x y y' hy hlt hy' hlt' hcheck hcheck'
    obtain ⟨hπ, hC⟩ := valid_of_check_eq_ok hcheck
    rw [check_of_valid e k hC hπ, Except.ok.injEq] at hcheck hcheck'
    have hmod := value_modEq h hn hg hτ hg1 hcheck hcheck'
    rwa [Int.ModEq, Int.emod_eq_of_lt hy hlt, Int.emod_eq_of_lt hy' hlt'] at hmod

end Secret

end KzgKey

/-- The secret of this key is known to be five. -/
def openKey : KzgKey := ⟨G1.generator, G2.generator, (5 : ℤ) • G2.generator⟩

/-- The polynomial `1 + 2x + 3x²` at two, where its value is 17, and not 18. -/
theorem KzgKey.check_complete_and_binding_openKey :
    openKey.g2 ≠ 0 ∧ openKey.secret = (5 : ℤ) • openKey.g2 ∧
    openKey.check .logarithmic ((86 : ℤ) • G1.generator).coords
      ((23 : ℤ) • G1.generator).coords 2 17 = .ok true ∧
    openKey.check .logarithmic ((86 : ℤ) • G1.generator).coords
      ((23 : ℤ) • G1.generator).coords 2 18 ≠ .ok true := by
  have hg2 : openKey.g2 ≠ 0 := G2.generator_ne_zero
  obtain ⟨-, hcomplete, hbinding, -⟩ := KzgKey.check_complete_and_binding
    Pairing.bilinear_logarithmic Pairing.nondegenerate_logarithmic hg2 rfl
  have hplace : ¬(2 : ℤ) ≡ 5 [ZMOD scalarOrder] := by decide
  have hopens := (hcomplete [1, 2, 3] 2 hplace).2 23 (by decide)
  have hvalue : evalPolynomial [1, 2, 3] 2 = 17 := by decide
  rw [hvalue] at hopens
  refine ⟨hg2, rfl, hopens, ?_⟩
  intro hother
  have heq := hbinding G1.generator_ne_zero _ _ 2 17 18 (by decide) (by decide) (by decide)
    (by decide) hopens hother
  cases heq

end FoldingVerifier
