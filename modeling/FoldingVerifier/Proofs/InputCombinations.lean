import FoldingVerifier.Proofs.Decider.Revalidation

/-! The combination of the public inputs is a sum of multiples in the first group. It is
affine in the inputs, which count modulo the group order; terms may be reordered, inputs
that are missing count as zero and those without a point are ignored. None of this asks
for canonical inputs, or for the right number of them. -/
namespace FoldingVerifier
namespace Groth16Key

section Sums

variable (xs : List ℤ) (ic : List G1)

theorem sum_zipWith_eq_range : (List.zipWith (fun x P => x • P) xs ic).sum =
    ∑ i ∈ Finset.range (min xs.length ic.length), xs.getD i 0 • ic.getD i 0 := by
  induction xs generalizing ic with
  | nil => simp
  | cons x xs ih =>
    cases ic with
    | nil => simp
    | cons P ic =>
      simp only [List.zipWith_cons_cons, List.sum_cons, List.length_cons, Nat.succ_min_succ,
        Finset.sum_range_succ', List.getD_cons_succ, List.getD_cons_zero, ih]
      exact add_comm _ _

theorem sum_zipWith_zeros (n : ℕ) :
    (List.zipWith (fun x P => x • P) (List.replicate n (0 : ℤ)) ic).sum = 0 := by
  induction n generalizing ic with
  | zero => simp
  | succ n ih => cases ic <;> simp [List.replicate_succ, ih]

theorem sum_zipWith_append_zeros (n : ℕ) :
    (List.zipWith (fun x P => x • P) (xs ++ List.replicate n 0) ic).sum =
      (List.zipWith (fun x P => x • P) xs ic).sum := by
  induction xs generalizing ic with
  | nil => simp [sum_zipWith_zeros]
  | cons x xs ih => cases ic <;> simp [ih]

theorem zipWith_take : List.zipWith (fun x P => x • P) (xs.take ic.length) ic =
    List.zipWith (fun x P => x • P) xs ic := by
  induction xs generalizing ic with
  | nil => simp
  | cons x xs ih => cases ic <;> simp [ih]

variable {xs} {ys : List ℤ}

theorem zipWith_congr (h : List.Forall₂ (fun x y => x ≡ y [ZMOD scalarOrder]) xs ys) :
    List.zipWith (fun x P => x • P) xs ic = List.zipWith (fun x P => x • P) ys ic := by
  induction h generalizing ic with
  | nil => rfl
  | cons hxy _ ih => cases ic <;> simp [G1.zsmul_congr hxy, ih]

theorem sum_zipWith_add (hlen : xs.length = ys.length) :
    (List.zipWith (fun x P => x • P) (List.zipWith (fun x y => x + y) xs ys) ic).sum =
      (List.zipWith (fun x P => x • P) xs ic).sum +
        (List.zipWith (fun x P => x • P) ys ic).sum := by
  induction xs generalizing ys ic with
  | nil => cases ys <;> simp_all
  | cons x xs ih =>
    cases ys with
    | nil => simp at hlen
    | cons y ys =>
      cases ic with
      | nil => simp
      | cons P ic =>
        simp only [List.zipWith_cons_cons, List.sum_cons, ih ic (Nat.succ.inj hlen), add_zsmul]
        abel

end Sums

variable {k : Groth16Key} {xs ys : List ℤ}

theorem combine_eq_of_combination_eq {k' : Groth16Key}
    (h : k'.combination ys = k.combination xs) : k'.combine ys = k.combine xs := by
  rw [combine_eq, combine_eq, h]

/-- The terms may stand in any order. -/
theorem combination_perm {k' : Groth16Key} (hconstant : k'.constant = k.constant)
    (hperm : (ys.zip k'.ic).Perm (xs.zip k.ic)) : k'.combination ys = k.combination xs := by
  have hterms (zs : List ℤ) (ic : List G1) : List.zipWith (fun x P => x • P) zs ic =
      (zs.zip ic).map fun term => term.1 • term.2 :=
    (List.map_zip_eq_zipWith (f := fun term : ℤ × G1 => term.1 • term.2)).symm
  rw [combination, combination, hconstant, hterms, hterms, (hperm.map _).sum_eq]

theorem combination_add (hlen : xs.length = ys.length) :
    k.combination xs + k.combination ys =
      k.combination (List.zipWith (fun x y => x + y) xs ys) + k.constant := by
  simp only [combination, sum_zipWith_add k.ic hlen]
  abel

/-- The combination of any number of inputs of any size is never refused. It is the constant
plus the multiples of the points by the residues of the inputs, for as many as there are of
both; zeros may be appended, what is beyond the points left off, an input exchanged for any
other of its class, and the terms put in another order; and it is affine in the inputs. -/
theorem combine_affine (k : Groth16Key) (xs : List ℤ) :
    k.combineCoords xs = .ok (k.combine xs).coords ∧
    k.combine xs = (k.constant + ∑ i ∈ Finset.range (min xs.length k.inputCount),
      (xs.getD i 0 % scalarOrder) • k.ic.getD i 0).point ∧
    (∀ n, k.combine (xs ++ List.replicate n 0) = k.combine xs) ∧
    k.combine (xs.take k.inputCount) = k.combine xs ∧
    (∀ ys, List.Forall₂ (fun x y => x ≡ y [ZMOD scalarOrder]) xs ys →
      k.combine ys = k.combine xs) ∧
    (∀ (k' : Groth16Key) (ys : List ℤ), k'.constant = k.constant →
      (ys.zip k'.ic).Perm (xs.zip k.ic) → k'.combine ys = k.combine xs) ∧
    ∀ ys, xs.length = ys.length → (k.combine xs).coords.add (k.combine ys).coords =
      (k.combine (List.zipWith (fun x y => x + y) xs ys)).coords.add k.constant.coords := by
  refine ⟨?_, ?_, ?_, ?_, ?_, ?_, ?_⟩
  · rw [combineCoords_eq, combine_eq]
    rfl
  · rw [combine_eq, combination, sum_zipWith_eq_range]
    simp only [G1.emod_zsmul, inputCount]
  · intro n
    exact combine_eq_of_combination_eq (by rw [combination, sum_zipWith_append_zeros]; rfl)
  · exact combine_eq_of_combination_eq (by rw [combination, inputCount, zipWith_take]; rfl)
  · intro ys hmod
    exact combine_eq_of_combination_eq (by rw [combination, ← zipWith_congr k.ic hmod]; rfl)
  · intro k' ys hconstant hperm
    exact combine_eq_of_combination_eq (combination_perm hconstant hperm)
  · intro ys hlen
    have hcoords (zs : List ℤ) : (k.combine zs).coords = (k.combination zs).coords := by
      rw [combine_eq]
      rfl
    rw [hcoords, hcoords, hcoords, G1Coords.coords_add_coords, G1Coords.coords_add_coords,
      combination_add hlen]

/-- Two inputs, with different points. -/
def weightedKey : Groth16Key where
  alpha := G1.generator
  beta := G2.generator
  gamma := G2.generator
  delta := G2.generator
  constant := 2 • G1.generator
  ic := [3 • G1.generator, 5 • G1.generator]

/-- The inputs `4` and `-1`, and further inputs that come to the same. -/
theorem combine_affine_weightedKey :
    weightedKey.combineCoords [4, -1] = .ok ((9 : ℤ) • G1.generator).coords ∧
    weightedKey.combine [4, -1, 7] = weightedKey.combine [4, -1] ∧
    weightedKey.combine [4 + scalarOrder, -1 - 2 * scalarOrder] = weightedKey.combine [4, -1] ∧
    ({ weightedKey with ic := weightedKey.ic.reverse } : Groth16Key).combine [-1, 4] =
      weightedKey.combine [4, -1] ∧
    weightedKey.combine [4, 0, 0] = weightedKey.combine [4] ∧
    (weightedKey.combine [4, -1]).coords.add (weightedKey.combine [-3, 2]).coords =
      (weightedKey.combine [1, 1]).coords.add weightedKey.constant.coords := by
  obtain ⟨hreturns, -, -, -, hmod, hperm, hadd⟩ := combine_affine weightedKey [4, -1]
  obtain ⟨-, -, hzeros, -⟩ := combine_affine weightedKey [4]
  obtain ⟨-, -, -, hsurplus, -⟩ := combine_affine weightedKey [4, -1, 7]
  refine ⟨?_, ?_, ?_, ?_, hzeros 2, hadd [-3, 2] rfl⟩
  · have hnine : weightedKey.combination [4, -1] = (9 : ℤ) • G1.generator := by
      change 2 • G1.generator +
        ((4 : ℤ) • 3 • G1.generator + ((-1 : ℤ) • 5 • G1.generator + 0)) = _
      abel
    rw [hreturns, combine_eq, hnine]
    rfl
  · rw [← hsurplus]
    rfl
  · exact hmod _ (by simp [Int.ModEq])
  · exact hperm _ _ rfl (List.Perm.swap _ _ [])

end Groth16Key
end FoldingVerifier
