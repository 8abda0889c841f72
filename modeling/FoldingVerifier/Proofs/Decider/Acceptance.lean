import FoldingVerifier.Proofs.Decider.FirstFailure
import FoldingVerifier.Proofs.Pairing.Bilinear

/-! Acceptance is three pairing equations between group elements, and conditions on the
form of the proof: lengths, ranges, and coordinates that are those of points. -/
namespace FoldingVerifier

open DeciderProof

/-- What acceptance means: the proof has the right form, both folded commitments open as
claimed, and the Groth16 equation holds of the public inputs. -/
structure Accepted (e : Pairing) (k : DeciderKey) (p : DeciderProof) : Prop where
  initialState_length : p.initialState.length = k.stateLength
  finalState_length : p.finalState.length = k.stateLength
  steps_inRange : 2 ≤ p.steps ∧ p.steps < scalarOrder
  initialState_inRange : ∀ n ∈ p.initialState, 0 ≤ n ∧ n < scalarOrder
  finalState_inRange : ∀ n ∈ p.finalState, 0 ≤ n ∧ n < scalarOrder
  challengesAndEvals_inRange : ∀ n ∈ [p.challengeW, p.challengeE, p.evalW, p.evalE],
    0 ≤ n ∧ n < scalarOrder
  points_valid : ∀ part : PointPart, (part.get p).Valid
  pointB_valid : p.groth16.b.Valid
  opens_witness : e.pair (p.element .openingW) (k.kzg.secret - p.challengeW • k.kzg.g2) =
    e.pair (p.folded .witness - p.evalW • k.kzg.g1) k.kzg.g2
  opens_errorTerm : e.pair (p.element .openingE) (k.kzg.secret - p.challengeE • k.kzg.g2) =
    e.pair (p.folded .errorTerm - p.evalE • k.kzg.g1) k.kzg.g2
  groth16 : e.pair (p.element .groth16A) p.groth16.b.element =
    e.mul (e.mul (e.pair k.groth16.alpha k.groth16.beta)
        (e.pair (k.groth16.combination (p.inputs k.hash.val)) k.groth16.gamma))
      (e.pair (p.element .groth16C) k.groth16.delta)

theorem DeciderProof.forall_scalars_iff {p : DeciderProof} {C : ℤ → Prop} :
    (∀ n ∈ p.scalars, C n) ↔ C p.steps ∧ (∀ n ∈ p.initialState, C n) ∧
      (∀ n ∈ p.finalState, C n) ∧ ∀ n ∈ [p.challengeW, p.challengeE, p.evalW, p.evalE], C n := by
  rw [scalars, stepsAndStates, List.cons_append, List.cons_append, List.forall_mem_cons,
    List.forall_mem_append, List.forall_mem_append, and_assoc]

namespace Decider

theorem verify_eq_ok_iff_accepted {e : Pairing} (h : e.Bilinear) (k : DeciderKey)
    (p : DeciderProof) : (ofKey k).verify e p = .ok () ↔ Accepted e k p := by
  rw [verify_eq_ok_iff]
  constructor
  · intro hpass
    have hz : p.stateLength = k.stateLength := Check.stateLength_passes_iff.mp (hpass .stateLength)
    have hr : ∀ n ∈ p.scalars, 0 ≤ n ∧ n < scalarOrder :=
      Check.scalars_passes_iff.mp (hpass .scalars)
    rw [forall_scalars_iff] at hr
    obtain ⟨hs, hi, hf, hxy⟩ := hr
    have hW := Check.opening_passes_iff.mp (hpass (.opening .witness))
    have hE := Check.opening_passes_iff.mp (hpass (.opening .errorTerm))
    have hG := Check.groth16_passes_iff.mp (hpass .groth16)
    exact {
      initialState_length := hz
      finalState_length := p.same_length.symm.trans hz
      steps_inRange := ⟨Check.steps_passes_iff.mp (hpass .steps), hs.2⟩
      initialState_inRange := hi
      finalState_inRange := hf
      challengesAndEvals_inRange := hxy
      points_valid := fun part => Check.point_passes_iff.mp (hpass (.point part))
      pointB_valid := Check.pointB_passes_iff.mp (hpass .pointB)
      opens_witness := (KzgKey.opens_iff h k.kzg _ _ _ _).mp hW
      opens_errorTerm := (KzgKey.opens_iff h k.kzg _ _ _ _).mp hE
      groth16 := (Groth16Key.accepts_iff h k.groth16 _ _ _ _).mp hG }
  · intro ha c
    cases c with
    | stateLength => exact Check.stateLength_passes_iff.mpr ha.initialState_length
    | steps => exact Check.steps_passes_iff.mpr ha.steps_inRange.1
    | point part => exact Check.point_passes_iff.mpr (ha.points_valid part)
    | opening c =>
      rw [Check.opening_passes_iff, KzgKey.opens_iff h]
      cases c with
      | witness => exact ha.opens_witness
      | errorTerm => exact ha.opens_errorTerm
    | scalars =>
      have hs : 0 ≤ p.steps ∧ p.steps < scalarOrder :=
        ⟨by linarith [ha.steps_inRange.1], ha.steps_inRange.2⟩
      exact Check.scalars_passes_iff.mpr (forall_scalars_iff.mpr
        ⟨hs, ha.initialState_inRange, ha.finalState_inRange, ha.challengesAndEvals_inRange⟩)
    | pointB => exact Check.pointB_passes_iff.mpr ha.pointB_valid
    | groth16 =>
      rw [Check.groth16_passes_iff, Groth16Key.accepts_iff h]
      exact ha.groth16

end Decider

theorem sampleProof_folded (c : Commitment) : sampleProof.folded c = 0 := by
  cases c with
  | witness =>
    change G1.generator.coords.element + (1 : ℤ) • (-G1.generator).coords.element = 0
    rw [G1Coords.element_coords, G1Coords.element_coords, one_zsmul, add_neg_cancel]
  | errorTerm =>
    change (-G1.generator).coords.element + (1 : ℤ) • G1.generator.coords.element = 0
    rw [G1Coords.element_coords, G1Coords.element_coords, one_zsmul, neg_add_cancel]

theorem sampleProof_inputs : sampleProof.inputs 2 =
    [2, 2, 3, 4] ++ List.replicate 20 0 ++ [2, 2, 1, 1] ++ [1, 0, 0, 0, 0, 2, 0, 0, 0, 0] := by
  rw [inputs, sampleProof_folded, sampleProof_folded]
  decide

theorem sum_zipWith_replicate (xs : List ℤ) (P : G1) :
    (List.zipWith (fun x Q => x • Q) xs (List.replicate xs.length P)).sum = xs.sum • P := by
  induction xs with
  | nil => rw [List.sum_nil, zero_zsmul]; rfl
  | cons x xs ih =>
    rw [List.length_cons, List.replicate_succ, List.zipWith_cons_cons, List.sum_cons, ih,
      List.sum_cons, add_zsmul]

theorem sampleKey_combination :
    sampleKey.groth16.combination (sampleProof.inputs 2) = -G1.generator := by
  have hsum := sum_zipWith_replicate (sampleProof.inputs 2) G1.generator
  rw [sampleProof_inputs] at hsum ⊢
  have h20 : (([2, 2, 3, 4] ++ List.replicate 20 0 ++ [2, 2, 1, 1] ++
      [1, 0, 0, 0, 0, 2, 0, 0, 0, 0] : List ℤ)).sum = 20 := by decide
  rw [h20] at hsum
  change -(21 • G1.generator) + (List.zipWith _ _ (List.replicate 38 G1.generator)).sum = _
  rw [show (38 : ℕ) = ([2, 2, 3, 4] ++ List.replicate 20 0 ++ [2, 2, 1, 1] ++
    [1, 0, 0, 0, 0, 2, 0, 0, 0, 0] : List ℤ).length from rfl, hsum]
  abel

theorem verify_sampleProof {e : Pairing} (h : e.Bilinear) :
    (Decider.ofKey sampleKey).verify e sampleProof = .ok () := by
  rw [Decider.verify_eq_ok_iff]
  intro c
  cases c with
  | stateLength => exact Check.stateLength_passes_iff.mpr rfl
  | steps => exact Check.steps_passes_iff.mpr (by decide)
  | point part =>
    rw [Check.point_passes_iff]
    cases part with
    | freshWitness | runningErrorTerm => exact G1Coords.valid_coords (-G1.generator)
    | _ => exact G1Coords.valid_coords G1.generator
  | opening c =>
    rw [Check.opening_passes_iff, KzgKey.opens_iff h, sampleProof_folded]
    have hopening : sampleProof.element c.opening = G1.generator := by
      cases c <;> exact G1Coords.element_coords G1.generator
    have hchallenge : c.challenge.get sampleProof = 2 := by cases c <;> rfl
    have hevaluation : c.evaluation.get sampleProof = 1 := by cases c <;> rfl
    rw [hopening, hchallenge, hevaluation]
    change e.pair G1.generator (G2.generator - (2 : ℤ) • G2.generator) =
      e.pair (0 - (1 : ℤ) • G1.generator) G2.generator
    rw [two_zsmul, sub_add_cancel_left, one_zsmul, zero_sub, h.neg_comm]
  | scalars => exact Check.scalars_passes_iff.mpr (by decide)
  | pointB => exact Check.pointB_passes_iff.mpr (G2Coords.valid_coords G2.generator)
  | groth16 =>
    rw [Check.groth16_passes_iff, Groth16Key.accepts_iff h]
    have ha : sampleProof.element .groth16A = G1.generator := G1Coords.element_coords G1.generator
    have hb : sampleProof.groth16.b.element = G2.generator := G2Coords.element_coords G2.generator
    have hc : sampleProof.element .groth16C = G1.generator := G1Coords.element_coords G1.generator
    rw [ha, hb, hc]
    change _ = e.mul (e.mul (e.pair G1.generator G2.generator)
      (e.pair (sampleKey.groth16.combination (sampleProof.inputs 2)) G2.generator))
        (e.pair G1.generator G2.generator)
    rw [sampleKey_combination, h.mul_pair_neg_left, h.one_mul]

theorem accepted_sampleProof : Pairing.logarithmic.Bilinear ∧
    (Decider.ofKey sampleKey).verify .logarithmic sampleProof = .ok () ∧
      Accepted .logarithmic sampleKey sampleProof :=
  ⟨Pairing.bilinear_logarithmic, verify_sampleProof Pairing.bilinear_logarithmic,
    (Decider.verify_eq_ok_iff_accepted Pairing.bilinear_logarithmic sampleKey sampleProof).mp
      (verify_sampleProof Pairing.bilinear_logarithmic)⟩

end FoldingVerifier
