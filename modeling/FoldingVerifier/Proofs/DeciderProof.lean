import FoldingVerifier.DeciderProof
import FoldingVerifier.Proofs.Flat

/-! Proofs and their words. Grouped arguments and word arrays hold exactly what the proof
holds, and every array of the right length is that of a proof. -/
namespace FoldingVerifier
namespace DeciderProof

theorem length_stepsAndStates (p : DeciderProof) :
    p.stepsAndStates.length = 1 + 2 * p.stateLength := by
  rw [stepsAndStates, List.cons_append, List.length_cons, List.length_append, ← p.same_length,
    stateLength]
  omega

theorem length_toOpaque (p : DeciderProof) : p.toOpaque.length = Flat.proofLength := rfl

theorem length_toWords (p : DeciderProof) : p.toWords.length = 26 + 2 * p.stateLength := by
  rw [toWords, List.length_append, length_stepsAndStates, length_toOpaque, Flat.proofLength]
  omega

/-- The packers put the same words in a row. -/
theorem packProof_groups (p : DeciderProof) :
    Flat.packProof p.groups.arguments = .ok p.toOpaque := rfl

theorem pack_stepsAndStates (p : DeciderProof) :
    Flat.pack (.int p.steps) (.ints p.initialState) (.ints p.finalState) (.ints p.toOpaque) =
      .ok p.toWords := by
  rw [Flat.pack_ints, if_neg (not_not.mpr p.same_length), if_pos (length_toOpaque p)]
  rfl

theorem ofWords_toOpaque (p : DeciderProof) : ProofGroups.ofWords p.toOpaque = p.groups := rfl

theorem ofGrouped_groups (p : DeciderProof) (h : 0 < p.stateLength) :
    ofGrouped (.ints p.stepsAndStates) p.groups.arguments = .ok p := by
  have hn : ¬(p.stepsAndStates.length < 3 ∨ p.stepsAndStates.length % 2 = 0) := by
    rw [length_stepsAndStates]
    omega
  have hz : (p.stepsAndStates.length - 1) / 2 = p.stateLength := by
    rw [length_stepsAndStates]
    omega
  have hinitial : ((p.stepsAndStates.map Json.int).tail.take p.stateLength).mapM Json.integer =
      .ok p.initialState := by
    rw [← List.map_tail, ← List.map_take, Json.mapM_integer, stepsAndStates, List.cons_append,
      List.tail_cons, stateLength, List.take_left]
  have hfinal : ((p.stepsAndStates.map Json.int).tail.drop p.stateLength).mapM Json.integer =
      .ok p.finalState := by
    rw [← List.map_tail, ← List.map_drop, Json.mapM_integer, stepsAndStates, List.cons_append,
      List.tail_cons, stateLength, List.drop_left]
  rw [ofGrouped, Json.size_ints]
  change (if _ then _ else _) = _
  rw [if_neg hn]
  -- the groups have fixed sizes, so that all steps but those of the states are evaluated
  change (do
    let initialState ← ((p.stepsAndStates.map Json.int).tail.take
      ((p.stepsAndStates.length - 1) / 2)).mapM Json.integer
    let finalState ← ((p.stepsAndStates.map Json.int).tail.drop
      ((p.stepsAndStates.length - 1) / 2)).mapM Json.integer
    if same_length : initialState.length = finalState.length then
      return ({ p with initialState, finalState, same_length } : DeciderProof)
    else Except.error (Fault.value .stateLengthsDiffer)) = _
  rw [hz, hinitial, hfinal]
  exact dif_pos p.same_length

theorem ofGrouped_of_stateLength_eq_zero (p : DeciderProof) (h : p.stateLength = 0)
    (a : ProofArguments) :
    ofGrouped (.ints p.stepsAndStates) a = .error (.value (.stepsAndStatesCount 1)) := by
  have hlen : p.stepsAndStates.length = 1 := by simp [length_stepsAndStates, h]
  rw [ofGrouped, Json.size_ints, hlen]
  rfl

/-- Any 25 words are those that stand beside some step count and states. -/
theorem exists_toOpaque (steps : ℤ) {initial final : List ℤ} (h : initial.length = final.length)
    {ws : List ℤ} (hws : ws.length = 25) : ∃ p : DeciderProof,
      p.stepsAndStates = steps :: initial ++ final ∧ p.stateLength = initial.length ∧
        p.toOpaque = ws := by
  match ws, hws with
  | [w0, w1, w2, w3, w4, w5, w6, w7, w8, w9, w10, w11, w12, w13, w14, w15, w16, w17, w18, w19,
      w20, w21, w22, w23, w24], _ =>
    refine ⟨{ steps, initialState := initial, finalState := final, running := ⟨⟨w0, w1⟩, ⟨w2, w3⟩⟩,
              freshWitness := ⟨w4, w5⟩, crossTerm := ⟨w6, w7⟩, randomness := w8,
              groth16 := ⟨⟨w9, w10⟩, ⟨w12, w11, w14, w13⟩, ⟨w15, w16⟩⟩, challengeW := w17,
              challengeE := w18, evalW := w19, evalE := w20, openingW := ⟨w21, w22⟩,
              openingE := ⟨w23, w24⟩, same_length := h }, rfl, rfl, rfl⟩

/-- Any words in the right number are those of a proof. -/
theorem exists_toWords {z : ℕ} {ws : List ℤ} (h : ws.length = 26 + 2 * z) :
    ∃ p : DeciderProof, p.stateLength = z ∧ p.toWords = ws := by
  obtain ⟨n, ws, rfl⟩ := List.exists_cons_of_length_pos (by omega : 0 < ws.length)
  rw [List.length_cons] at h
  have hinitial : (ws.take z).length = z := by rw [List.length_take]; omega
  have hfinal : ((ws.drop z).take z).length = z := by
    rw [List.length_take, List.length_drop]
    omega
  have hopaque : (ws.drop (2 * z)).length = 25 := by rw [List.length_drop]; omega
  obtain ⟨p, hstates, hz, hp⟩ := exists_toOpaque n (hinitial.trans hfinal.symm) hopaque
  refine ⟨p, hz.trans hinitial, ?_⟩
  rw [toWords, hstates, hp, two_mul, ← List.drop_drop, List.cons_append, List.cons_append,
    List.append_assoc, List.take_append_drop, List.take_append_drop]

theorem split_toWords (p : DeciderProof) : Flat.split p.stateLength (.ints p.toWords) =
    .ok ⟨p.steps, p.initialState, p.finalState, p.toOpaque⟩ :=
  Flat.split_row p.steps p.same_length (length_toOpaque p)

theorem ofWords_toWords (p : DeciderProof) (h : 0 < p.stateLength) :
    ofWords p.stateLength (.ints p.toWords) = .ok p := by
  rw [ofWords, split_toWords]
  change (do
    let groups ← Flat.splitProof (.ints p.toOpaque)
    ofGrouped (.ints p.stepsAndStates) groups.arguments) = _
  rw [Flat.splitProof_ints, if_pos (length_toOpaque p), ofWords_toOpaque]
  exact ofGrouped_groups p h

end DeciderProof
end FoldingVerifier
