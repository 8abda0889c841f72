import FoldingVerifier.Proofs.Curve.Law
import Mathlib.GroupTheory.PGroup

/-! Over a finite field a curve has at most two points to each abscissa, and one at
infinity. A subgroup of prime exponent whose order squared does not divide the
number of points has exactly that order. -/
namespace FoldingVerifier

variable {F : Type*} [Field F] [DecidableEq F] {b : F}

/-- The solutions of the curve equation. -/
def solutions [Fintype F] (b : F) : Finset (F × F) :=
  Finset.univ.filter fun c => (Point.affine c.1 c.2).OnCurve b

/-- An abscissa has one ordinate and its opposite. -/
theorem card_solutions_le [Fintype F] : (solutions b).card ≤ 2 * Fintype.card F := by
  have hmaps : ∀ c ∈ solutions b, c.1 ∈ (Finset.univ : Finset F) := fun _ _ => Finset.mem_univ _
  refine Finset.card_le_mul_card_image_of_maps_to hmaps 2 ?_
  intro x _
  rcases ((solutions b).filter fun c => c.1 = x).eq_empty_or_nonempty with he | ⟨⟨x', y⟩, hy⟩
  · simp [he]
  · have hsub : ((solutions b).filter fun c => c.1 = x) ⊆ {(x', y), (x', -y)} := by
      rintro ⟨x'', y'⟩ hy'
      simp only [solutions, Finset.mem_filter, Finset.mem_univ, true_and] at hy hy'
      obtain ⟨hc, rfl⟩ := hy
      obtain ⟨hc', rfl⟩ := hy'
      have hsq : y' * y' = y * y := hc'.trans hc.symm
      rcases mul_self_eq_mul_self_iff.mp hsq with rfl | rfl <;> simp
    exact (Finset.card_le_card hsub).trans Finset.card_le_two

/-- The solution that an affine point is. -/
def solutionOf [Fintype F] : (weierstrass b).Point → Option (solutions b)
  | .zero => none
  | .some x y h => some ⟨(x, y), by
      simpa [solutions] using equation_iff_onCurve.mp h.1⟩

theorem solutionOf_injective [Fintype F] : Function.Injective (solutionOf (b := b)) := by
  intro S T h
  cases S <;> cases T <;> simp_all [solutionOf]

instance [Finite F] : Finite (weierstrass b).Point := by
  have := Fintype.ofFinite F
  exact Finite.of_injective _ (solutionOf_injective (b := b))

theorem card_curve_le [Finite F] : Nat.card (weierstrass b).Point ≤ 2 * Nat.card F + 1 := by
  have := Fintype.ofFinite F
  have hc := card_solutions_le (b := b)
  have hi := Nat.card_le_card_of_injective _ (solutionOf_injective (b := b))
  rw [Finite.card_option, Nat.card_eq_fintype_card (α := solutions b), Fintype.card_coe] at hi
  rw [Nat.card_eq_fintype_card (α := F)]
  omega

section Torsion

variable {A : Type*} [AddCommGroup A] {r : ℕ}

/-- The elements that `r` annihilates. -/
def torsion (A : Type*) [AddCommGroup A] (r : ℕ) : AddSubgroup A :=
  (nsmulAddMonoidHom (α := A) r).ker

theorem mem_torsion_iff {a : A} : a ∈ torsion A r ↔ r • a = 0 := Iff.rfl

/-- All orders in it are one or the prime, so its own order is a power of the prime. -/
theorem exists_card_torsion_eq_pow [Finite A] (hr : r.Prime) :
    ∃ k, Nat.card (torsion A r) = r ^ k := by
  have : Fact r.Prime := ⟨hr⟩
  have hp : IsPGroup r (Multiplicative (torsion A r)) := by
    intro a
    refine ⟨1, ?_⟩
    rw [pow_one]
    have h : r • a.toAdd = 0 := Subtype.ext a.toAdd.2
    exact Multiplicative.toAdd.injective h
  obtain ⟨k, hk⟩ := IsPGroup.iff_card.mp hp
  exact ⟨k, hk⟩

theorem card_torsion_eq [Finite A] (hr : r.Prime) {g : A} (hg : r • g = 0) (hne : g ≠ 0)
    (hsq : ¬r ^ 2 ∣ Nat.card A) : Nat.card (torsion A r) = r := by
  obtain ⟨k, hk⟩ := exists_card_torsion_eq_pow (A := A) hr
  have hd : r ^ k ∣ Nat.card A := hk ▸ AddSubgroup.card_addSubgroup_dvd_card _
  have hk2 : k < 2 := by
    by_contra h
    exact hsq ((pow_dvd_pow r (not_lt.mp h)).trans hd)
  have hk0 : k ≠ 0 := by
    rintro rfl
    rw [pow_zero, AddSubgroup.card_eq_one] at hk
    exact hne (AddSubgroup.mem_bot.mp (hk ▸ mem_torsion_iff.mpr hg))
  have hk1 : k = 1 := by omega
  rw [hk, hk1, pow_one]

/-- The order of an element divides the order of the group. -/
theorem dvd_card_of_annihilated (hr : r.Prime) {g : A} (hg : r • g = 0) (hne : g ≠ 0) :
    r ∣ Nat.card A := by
  have : Fact r.Prime := ⟨hr⟩
  rw [← addOrderOf_eq_prime hg hne]
  exact addOrderOf_dvd_natCard g

end Torsion

end FoldingVerifier
