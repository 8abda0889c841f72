import FoldingVerifier.Groth16
import FoldingVerifier.Proofs.Curve.Decoding
import FoldingVerifier.Proofs.Pairing.Bilinear

/-! Groth16 in group elements: the loop over the public inputs computes their linear
combination, and the product of four pairings is one when the equation of the proof
holds. The equation determines each point of the proof and each single input. -/
namespace FoldingVerifier
namespace Groth16Key

variable {e : Pairing}

theorem mapM_decode_coords (Ps : List G1) :
    (Ps.map G1.coords).mapM G1Coords.decode = .ok Ps := by
  induction Ps with
  | nil => rfl
  | cons P Ps ih =>
    rw [List.map_cons, List.mapM_cons, G1Coords.decode_of_coords, ih]
    rfl

theorem ofCoords_coords (k : Groth16Key) :
    ofCoords k.alpha.coords k.beta.coords k.gamma.coords k.delta.coords
      ((k.constant :: k.ic).map G1.coords) = .ok k := by
  simp only [ofCoords, List.map_cons, G1Coords.decode_of_coords, G2Coords.decode_of_coords,
    mapM_decode_coords]
  rfl

/-- The constant plus the multiples of the input points. -/
def combination (k : Groth16Key) (xs : List ℤ) : G1 :=
  k.constant + (List.zipWith (fun x P => x • P) xs k.ic).sum

theorem foldl_scale (xs : List ℤ) (ic : List G1) (P : G1) :
    (xs.zip ic).foldl (fun acc term => acc + term.2.point.scale term.1) P.point =
      (P + (List.zipWith (fun x Q => x • Q) xs ic).sum).point := by
  induction xs generalizing ic P with
  | nil => rw [List.zip_nil_left, List.zipWith_nil_left, List.sum_nil, add_zero]; rfl
  | cons x xs ih =>
    cases ic with
    | nil => rw [List.zip_nil_right, List.zipWith_nil_right, List.sum_nil, add_zero]; rfl
    | cons Q ic =>
      rw [List.zip_cons_cons, List.foldl_cons, List.zipWith_cons_cons, List.sum_cons, ← add_assoc,
        ← ih ic (P + x • Q), G1.point_add, G1.point_zsmul]

theorem combine_eq (k : Groth16Key) (xs : List ℤ) : k.combine xs = (k.combination xs).point :=
  foldl_scale xs k.ic k.constant

theorem accepts_eq (e : Pairing) (k : Groth16Key) (a : G1) (b : G2) (c : G1) (xs : List ℤ) :
    k.accepts e a b c xs =
      e.productIsOne ([(-a, b), (k.alpha, k.beta), (k.combination xs, k.gamma), (c, k.delta)].map
        fun pair => (pair.1.point, pair.2.point)) := by
  rw [accepts, combine_eq]
  rfl

theorem accepts_iff (h : e.Bilinear) (k : Groth16Key) (a : G1) (b : G2) (c : G1) (xs : List ℤ) :
    k.accepts e a b c xs = true ↔
      e.pair a b = e.mul (e.mul (e.pair k.alpha k.beta) (e.pair (k.combination xs) k.gamma))
        (e.pair c k.delta) := by
  rw [accepts_eq, h.productIsOne_iff, List.foldl_cons, List.foldl_cons, List.foldl_cons,
    List.foldl_cons, List.foldl_nil, h.one_mul, h.mul_assoc, h.mul_assoc, h.mul_comm,
    h.mul_pair_neg_eq_one_iff, ← h.mul_assoc]
  exact eq_comm

/-- What is left of a call whose inputs are in order. -/
theorem verify_of_inScalarField (e : Pairing) (k : Groth16Key) (p : Groth16Proof) {xs : List ℤ}
    (hlen : xs.length = k.inputCount) (hin : xs.all inScalarField = true) :
    k.verify e p xs = (do
      let a ← p.a.decode
      let b ← p.b.decode
      let c ← p.c.decode
      return k.accepts e a b c xs) := by
  unfold verify
  rw [if_neg (not_not.mpr hlen), if_pos hin]

section Uniqueness

variable (h : e.Bilinear) (hn : e.Nondegenerate) {k : Groth16Key} {a a' : G1} {b b' : G2}
  {c c' : G1} {xs xs' : List ℤ} (ha : k.accepts e a b c xs = true)

include h hn ha

theorem combination_unique (hγ : k.gamma ≠ 0) (ha' : k.accepts e a b c xs' = true) :
    k.combination xs = k.combination xs' := by
  rw [accepts_iff h] at ha ha'
  rw [ha', h.mul_pair_cancel, h.mul_comm _ (e.pair _ k.gamma),
    h.mul_comm _ (e.pair _ k.gamma), h.mul_pair_cancel] at ha
  exact (h.left_injective hn hγ ha).symm

theorem c_unique (hδ : k.delta ≠ 0) (ha' : k.accepts e a b c' xs = true) : c = c' := by
  rw [accepts_iff h] at ha ha'
  rw [ha', h.mul_comm _ (e.pair _ k.delta), h.mul_comm _ (e.pair _ k.delta), ← h.mul_assoc,
    ← h.mul_assoc, h.mul_pair_cancel, h.mul_pair_cancel] at ha
  exact (h.left_injective hn hδ ha).symm

theorem a_unique (hb : b ≠ 0) (ha' : k.accepts e a' b c xs = true) : a = a' := by
  rw [accepts_iff h] at ha ha'
  exact h.left_injective hn hb (ha.trans ha'.symm)

theorem b_unique (hne : a ≠ 0) (ha' : k.accepts e a b' c xs = true) : b = b' := by
  rw [accepts_iff h] at ha ha'
  exact h.right_injective hn hne (ha.trans ha'.symm)

end Uniqueness

theorem sum_zipWith_replace {l r : List ℤ} {a : ℤ} (b : ℤ) (ic : List G1)
    (hlen : (l ++ a :: r).length = ic.length) :
    ∃ P ∈ ic, (List.zipWith (fun x Q => x • Q) (l ++ b :: r) ic).sum =
      (List.zipWith (fun x Q => x • Q) (l ++ a :: r) ic).sum + (b - a) • P := by
  induction l generalizing ic with
  | nil =>
    cases ic with
    | nil => cases hlen
    | cons Q ic =>
      refine ⟨Q, List.mem_cons_self, ?_⟩
      simp only [List.nil_append, List.zipWith_cons_cons, List.sum_cons]
      rw [sub_zsmul]
      abel
  | cons x l ih =>
    cases ic with
    | nil => cases hlen
    | cons Q ic =>
      obtain ⟨P, hP, hsum⟩ := ih ic (Nat.succ.inj hlen)
      refine ⟨P, List.mem_cons_of_mem Q hP, ?_⟩
      simp only [List.cons_append, List.zipWith_cons_cons, List.sum_cons]
      rw [hsum, add_assoc]

/-- Without identities among the input points the combination determines the class of a
single input. -/
theorem modEq_of_combination_eq {k : Groth16Key} (hk : ∀ P ∈ k.ic, P ≠ 0) {l r : List ℤ} {a b : ℤ}
    (hlen : (l ++ a :: r).length = k.ic.length)
    (heq : k.combination (l ++ a :: r) = k.combination (l ++ b :: r)) :
    a ≡ b [ZMOD scalarOrder] := by
  obtain ⟨P, hP, hsum⟩ := sum_zipWith_replace b k.ic hlen
  rw [combination, combination, hsum, ← add_assoc, left_eq_add] at heq
  exact Int.modEq_iff_dvd.mpr ((G1.zsmul_eq_zero_iff (hk P hP)).mp heq)

theorem sum_zipWith_zsmul (xs ys : List ℤ) (P : G1) :
    (List.zipWith (fun x Q => x • Q) xs (ys.map fun y => y • P)).sum =
      (List.zipWith (fun x y => x * y) xs ys).sum • P := by
  induction xs generalizing ys with
  | nil => simp
  | cons x xs ih =>
    cases ys with
    | nil => simp
    | cons y ys =>
      simp only [List.map_cons, List.zipWith_cons_cons, List.sum_cons, ih, add_smul, smul_smul]

/-- The equation of a proof, as one between the multipliers. -/
theorem accepts_of_modEq (h : e.Bilinear) {P : G1} {Q : G2} {α β γ δ ι a b c : ℤ}
    {ιs xs : List ℤ} (heq : a * b ≡ α * β + (ι + (List.zipWith (fun x y => x * y) xs ιs).sum) * γ +
      c * δ [ZMOD scalarOrder]) :
    accepts e ⟨α • P, β • Q, γ • Q, δ • Q, ι • P, ιs.map fun y => y • P⟩ (a • P) (b • Q) (c • P)
      xs = true := by
  rw [accepts_iff h, combination, sum_zipWith_zsmul, ← add_smul]
  simp only [h.pair_zsmul_zsmul, ← h.add_left, ← add_smul]
  rw [G1.zsmul_congr heq]

end Groth16Key
end FoldingVerifier
