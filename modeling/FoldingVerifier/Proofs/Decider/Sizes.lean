import FoldingVerifier.Proofs.Decider.Verdict
import FoldingVerifier.Proofs.WordFormats

/-! Sizes of arguments. A wrong size is found before any step count, word or point is looked
at: which fault it is depends on the sizes alone. Where all sizes are right no fault of this
kind is possible. -/
namespace FoldingVerifier

/-- How many words each group of the arguments has. -/
structure ArgumentSizes where
  stepsAndStates : ℕ
  folded : ℕ
  freshWitness : ℕ
  crossTermAndRandomness : ℕ
  groth16 : ℕ
  challengesAndEvals : ℕ
  openings : List ℕ
deriving DecidableEq, Repr

namespace ArgumentSizes

def ofArguments (states : List ℤ) (g : ProofGroups) : ArgumentSizes where
  stepsAndStates := states.length
  folded := g.folded.length
  freshWitness := g.freshWitness.length
  crossTermAndRandomness := g.crossTermAndRandomness.length
  groth16 := g.groth16.length
  challengesAndEvals := g.challengesAndEvals.length
  openings := g.openings.map List.length

/-- The sizes for states of `z` words. -/
def required (z : ℕ) : ArgumentSizes where
  stepsAndStates := 1 + 2 * z
  folded := 4
  freshWitness := 2
  crossTermAndRandomness := 3
  groth16 := 8
  challengesAndEvals := 4
  openings := [2, 2]

/-- What is found first where the sizes are those of no proof. -/
def shapeFault (s : ArgumentSizes) : Option ValueFault :=
  if s.stepsAndStates < 3 ∨ s.stepsAndStates % 2 = 0 then
    some (.stepsAndStatesCount s.stepsAndStates)
  else if s.freshWitness ≠ 2 ∨ s.crossTermAndRandomness ≠ 3 ∨ s.challengesAndEvals ≠ 4 then
    some .groupSizes
  else if s.openings ≠ [2, 2] then some .openingPairs
  else if s.folded ≠ 4 then some (.commitmentWordCount s.folded)
  else if s.groth16 ≠ 8 then some (.groth16WordCount s.groth16)
  else none

/-- What is found first where the sizes are not those for states of `z` words. -/
def fault (z : ℕ) (s : ArgumentSizes) : Option ValueFault :=
  match s.shapeFault with
  | some c => some c
  | none =>
      if (s.stepsAndStates - 1) / 2 ≠ z then
        some (.proofStateLength ((s.stepsAndStates - 1) / 2) z)
      else none

theorem shapeFault_eq_none_iff (s : ArgumentSizes) :
    s.shapeFault = none ↔ ∃ z, 1 ≤ z ∧ s = required z := by
  obtain ⟨states, folded, fresh, cross, groth16, challenges, openings⟩ := s
  simp only [shapeFault, required, mk.injEq]
  constructor
  · intro h
    split_ifs at h
    exact ⟨(states - 1) / 2, by omega, by omega, by omega, by omega, by omega, by omega, by omega,
      by tauto⟩
  · rintro ⟨z, hz, rfl, rfl, rfl, rfl, rfl, rfl, rfl⟩
    have hstates : ¬(1 + 2 * z < 3 ∨ (1 + 2 * z) % 2 = 0) := by omega
    rw [if_neg hstates]
    rfl

theorem fault_eq_none_iff {z : ℕ} (hz : 1 ≤ z) (s : ArgumentSizes) :
    s.fault z = none ↔ s = required z := by
  rw [fault]
  cases hshape : s.shapeFault with
  | some c =>
    refine iff_of_false (by simp) ?_
    rintro rfl
    have hnone := (shapeFault_eq_none_iff (required z)).mpr ⟨z, hz, rfl⟩
    rw [hshape] at hnone
    cases hnone
  | none =>
    obtain ⟨z', hz', rfl⟩ := (shapeFault_eq_none_iff s).mp hshape
    by_cases h : z' = z <;> simp [required, h]

theorem sized_of_eq_required {states : List ℤ} {g : ProofGroups} {z : ℕ}
    (h : ofArguments states g = required z) : states.length = 1 + 2 * z ∧ g.Sized := by
  simp only [ofArguments, required, mk.injEq] at h
  obtain ⟨hstates, hfolded, hfresh, hcross, hgroth16, hchallenges, hopenings⟩ := h
  refine ⟨hstates, hfolded, hfresh, hcross, hgroth16, hchallenges, ?_⟩
  match hg : g.openings with
  | [w, e] => simpa [hg] using hopenings
  | [] | [_] | _ :: _ :: _ :: _ => simp [hg] at hopenings

end ArgumentSizes

theorem CommitmentPair.ofWords_of_length_ne {ns : List ℤ} (h : ns.length ≠ 4) :
    ofWords (.ints ns) = .error (.value (.commitmentWordCount ns.length)) := by
  rw [ofWords, Json.size_ints]
  exact if_pos h

theorem Groth16Proof.ofWords_of_length_ne {ns : List ℤ} (h : ns.length ≠ 8) :
    ofWords (.ints ns) = .error (.value (.groth16WordCount ns.length)) := by
  rw [ofWords, Json.size_ints]
  exact if_pos h

namespace Json

theorem requireSize_ints_of_eq {ns : List ℤ} {n : ℕ} (h : ns.length = n) (c : ValueFault) :
    (ints ns).requireSize n c = pure () :=
  (requireSize_ints ns n c).trans (if_pos h)

theorem requireSize_ints_of_ne {ns : List ℤ} {n : ℕ} (h : ns.length ≠ n) (c : ValueFault) :
    (ints ns).requireSize n c = .error (.value c) :=
  (requireSize_ints ns n c).trans (if_neg h)

theorem mapM_integer_take (ns : List ℤ) (m : ℕ) :
    ((ns.map int).take m).mapM integer = .ok (ns.take m) := by
  rw [← List.map_take, mapM_integer]

theorem mapM_integer_drop (ns : List ℤ) (m : ℕ) :
    ((ns.map int).drop m).mapM integer = .ok (ns.drop m) := by
  rw [← List.map_drop, mapM_integer]

end Json

namespace DeciderProof

/-- What is left of the reading of grouped arguments whose sizes have been found right: the
words of the two groups that check their own size. -/
theorem ofGrouped_of_groupSizes {n f₀ f₁ t₀ t₁ r x₀ x₁ y₀ y₁ a₀ a₁ b₀ b₁ : ℤ}
    {ws folded groth16 : List ℤ} (hn : ¬((n :: ws).length < 3 ∨ (n :: ws).length % 2 = 0)) :
    ofGrouped (.ints (n :: ws)) (ProofGroups.arguments ⟨folded, [f₀, f₁], [t₀, t₁, r], groth16,
      [x₀, x₁, y₀, y₁], [[a₀, a₁], [b₀, b₁]]⟩) = (do
        let initialState ← ((ws.map Json.int).take (((n :: ws).length - 1) / 2)).mapM Json.integer
        let finalState ← ((ws.map Json.int).drop (((n :: ws).length - 1) / 2)).mapM Json.integer
        let running ← CommitmentPair.ofWords (.ints folded)
        let groth16 ← Groth16Proof.ofWords (.ints groth16)
        if same_length : initialState.length = finalState.length then
          return { steps := n, initialState, finalState, running, freshWitness := ⟨f₀, f₁⟩,
                   crossTerm := ⟨t₀, t₁⟩, randomness := r, groth16, challengeW := x₀,
                   challengeE := x₁, evalW := y₀, evalE := y₁, openingW := ⟨a₀, a₁⟩,
                   openingE := ⟨b₀, b₁⟩, same_length }
        else throw (.value .stateLengthsDiffer)) := by
  rw [ofGrouped, Json.size_ints]
  exact if_neg hn

variable {states : List ℤ} {g : ProofGroups}

theorem ofGrouped_of_groupSizes_ne (hn : ¬(states.length < 3 ∨ states.length % 2 = 0))
    (h : g.freshWitness.length ≠ 2 ∨ g.crossTermAndRandomness.length ≠ 3 ∨
      g.challengesAndEvals.length ≠ 4) :
    ofGrouped (.ints states) g.arguments = .error (.value .groupSizes) := by
  rw [ofGrouped, Json.size_ints]
  refine (if_neg hn).trans ?_
  change (Json.ints g.freshWitness).requireSize 2 .groupSizes >>= _ = _
  by_cases hfresh : g.freshWitness.length = 2
  · rw [Json.requireSize_ints_of_eq hfresh]
    change (Json.ints g.crossTermAndRandomness).requireSize 3 .groupSizes >>= _ = _
    by_cases hcross : g.crossTermAndRandomness.length = 3
    · have hchallenges : g.challengesAndEvals.length ≠ 4 := by tauto
      rw [Json.requireSize_ints_of_eq hcross]
      change (Json.ints g.challengesAndEvals).requireSize 4 .groupSizes >>= _ = _
      rw [Json.requireSize_ints_of_ne hchallenges]
      rfl
    · rw [Json.requireSize_ints_of_ne hcross]
      rfl
  · rw [Json.requireSize_ints_of_ne hfresh]
    rfl

/-- The openings are two, or their number is refused; of two the sizes are looked at in turn. -/
theorem requireOpenings_of_ne {α : Type} {vs : List (List ℤ)} (h : vs.map List.length ≠ [2, 2])
    (c : ValueFault) (next : PUnit → Except Fault α) :
    (do
      (Json.arr (vs.map .ints)).requireSize 2 c
      let items ← (Json.arr (vs.map .ints)).items
      next (← items.forM (·.requireSize 2 c))) = .error (.value c) := by
  match vs with
  | [w, e] =>
    change ((Json.ints w).requireSize 2 c >>= fun _ => (Json.ints e).requireSize 2 c >>= fun _ =>
      pure ()) >>= next = _
    by_cases hw : w.length = 2
    · have he : e.length ≠ 2 := by
        rintro he
        simp [hw, he] at h
      rw [Json.requireSize_ints_of_eq hw, Json.requireSize_ints_of_ne he]
      rfl
    · rw [Json.requireSize_ints_of_ne hw]
      rfl
  | [] | [_] | _ :: _ :: _ :: _ =>
    simp [Json.requireSize, Json.size]
    rfl

theorem ofGrouped_of_openings_ne (hn : ¬(states.length < 3 ∨ states.length % 2 = 0))
    (h : ¬(g.freshWitness.length ≠ 2 ∨ g.crossTermAndRandomness.length ≠ 3 ∨
      g.challengesAndEvals.length ≠ 4)) (hopenings : g.openings.map List.length ≠ [2, 2]) :
    ofGrouped (.ints states) g.arguments = .error (.value .openingPairs) := by
  rw [ofGrouped, Json.size_ints]
  refine (if_neg hn).trans ?_
  change ((Json.ints g.freshWitness).requireSize 2 .groupSizes >>= fun _ =>
    (Json.ints g.crossTermAndRandomness).requireSize 3 .groupSizes >>= fun _ =>
      (Json.ints g.challengesAndEvals).requireSize 4 .groupSizes >>= _) = _
  rw [Json.requireSize_ints_of_eq (by tauto), Json.requireSize_ints_of_eq (by tauto),
    Json.requireSize_ints_of_eq (by tauto)]
  exact requireOpenings_of_ne hopenings .openingPairs _

/-- The two groups that check their own size do so after all others. -/
theorem ofGrouped_of_ownSizes (hn : ¬(states.length < 3 ∨ states.length % 2 = 0))
    (h : ¬(g.freshWitness.length ≠ 2 ∨ g.crossTermAndRandomness.length ≠ 3 ∨
      g.challengesAndEvals.length ≠ 4)) (hopenings : g.openings.map List.length = [2, 2]) :
    (g.folded.length ≠ 4 → ofGrouped (.ints states) g.arguments =
      .error (.value (.commitmentWordCount g.folded.length))) ∧
    (g.folded.length = 4 → g.groth16.length ≠ 8 → ofGrouped (.ints states) g.arguments =
      .error (.value (.groth16WordCount g.groth16.length))) := by
  obtain ⟨folded, fresh, cross, groth16, challenges, openings⟩ := g
  simp only [not_or, not_not] at h
  obtain ⟨hfresh, hcross, hchallenges⟩ := h
  -- with all these words named, the reading runs up to the groups that check themselves
  obtain ⟨f₀, f₁, rfl⟩ := List.length_eq_two.mp hfresh
  obtain ⟨t₀, t₁, r, rfl⟩ := List.length_eq_three.mp hcross
  obtain ⟨x₀, x₁, y₀, y₁, rfl⟩ := List.length_eq_four.mp hchallenges
  match states, openings, hn, hopenings with
  | n :: ws, [[a₀, a₁], [b₀, b₁]], hn, _ =>
    rw [ofGrouped_of_groupSizes hn, Json.mapM_integer_take, Json.mapM_integer_drop]
    constructor
    · intro hfolded
      rw [CommitmentPair.ofWords_of_length_ne hfolded]
      rfl
    · intro hfolded hgroth16
      obtain ⟨w₀, w₁, e₀, e₁, rfl⟩ := List.length_eq_four.mp hfolded
      rw [Groth16Proof.ofWords_of_length_ne hgroth16]
      rfl

theorem ofGrouped_of_shapeFault {c : ValueFault}
    (h : (ArgumentSizes.ofArguments states g).shapeFault = some c) :
    ofGrouped (.ints states) g.arguments = .error (.value c) := by
  rw [ArgumentSizes.shapeFault] at h
  split_ifs at h with hn hgroups hopenings hfolded hgroth16 <;> cases h
  · rw [ofGrouped, Json.size_ints]
    exact if_pos hn
  · exact ofGrouped_of_groupSizes_ne hn hgroups
  · exact ofGrouped_of_openings_ne hn hgroups hopenings
  · exact (ofGrouped_of_ownSizes hn hgroups (not_not.mp hopenings)).1 hfolded
  · exact (ofGrouped_of_ownSizes hn hgroups (not_not.mp hopenings)).2 (not_not.mp hfolded) hgroth16

end DeciderProof

/-- What is found first where the states or the words beside them have the wrong size. -/
def opaqueSizeFault (z initial final proof : ℕ) : Option ValueFault :=
  if initial ≠ z ∨ final ≠ z then some (.stateVectorLength z)
  else if proof ≠ 25 then some (.arrayShape .opaqueProof 25 [proof])
  else none

def flatSizeFault (z words : ℕ) : Option ValueFault :=
  if words ≠ 26 + 2 * z then some (.arrayShape .flatProof (Flat.length z) [words]) else none

namespace Decider

variable (e : Pairing) (k : DeciderKey)

/-- A call that looks at the sizes of its arguments first. Which fault of theirs it ends with
is known beforehand; without one it is the verification of a proof that fits the key. -/
structure SizesFirst (fault : Option ValueFault) (r : Except Fault Unit) : Prop where
  refused : ∀ c, fault = some c → r = .error (.value c)
  verified : fault = none → ∃ p : DeciderProof, p.stateLength = k.stateLength ∧
    r = (ofKey k).verify e p

variable {e k}

theorem SizesFirst.value_iff {fault : Option ValueFault} {r : Except Fault Unit}
    (h : SizesFirst e k fault r) : (∃ c, r = .error (.value c)) ↔ fault ≠ none := by
  constructor
  · rintro ⟨c, hr⟩ hnone
    obtain ⟨p, hz, hp⟩ := h.verified hnone
    have hverdict : Verdict p ((ofKey k).verify e p) := verify_verdict e hz
    exact hverdict.ne_value c (hp.symm.trans hr)
  · intro hsome
    obtain ⟨c, hc⟩ := Option.ne_none_iff_exists'.mp hsome
    exact ⟨c, h.refused c hc⟩

variable (e k)

theorem sizesFirst_grouped (states : List ℤ) (g : ProofGroups) :
    SizesFirst e k ((ArgumentSizes.ofArguments states g).fault k.stateLength)
      ((ofKey k).verifyGrouped e (.ints states) g.arguments) := by
  rw [ArgumentSizes.fault]
  cases hshape : (ArgumentSizes.ofArguments states g).shapeFault with
  | some c =>
    refine ⟨?_, by simp⟩
    rintro _ ⟨⟩
    rw [verifyGrouped, DeciderProof.ofGrouped_of_shapeFault hshape]
    rfl
  | none =>
    obtain ⟨z, hz, hsizes⟩ := (ArgumentSizes.shapeFault_eq_none_iff _).mp hshape
    obtain ⟨hstates, hsized⟩ := ArgumentSizes.sized_of_eq_required hsizes
    have hcount : 3 ≤ states.length ∧ states.length % 2 = 1 := by omega
    obtain ⟨p, hpos, rfl, rfl⟩ := DeciderProof.exists_groups hcount hsized
    have hlen : (p.stepsAndStates.length - 1) / 2 = p.stateLength := by
      rw [p.length_stepsAndStates]
      omega
    simp only [ArgumentSizes.ofArguments, hlen]
    rw [verifyGrouped_groups e p hpos]
    by_cases hz : p.stateLength = k.stateLength
    · exact ⟨by simp [hz], fun _ => ⟨p, hz, rfl⟩⟩
    · rw [verify_of_stateLength_ne e k p hz]
      simp only [if_pos hz]
      exact ⟨by simp, by simp⟩

theorem sizesFirst_opaque (steps : ℤ) (initial final proof : List ℤ) :
    SizesFirst e k (opaqueSizeFault k.stateLength initial.length final.length proof.length)
      ((ofKey k).verifyOpaque e steps (.ints initial) (.ints final) (.ints proof)) := by
  have hkey : (ofKey k).key.stateLength = k.stateLength := rfl
  unfold opaqueSizeFault
  by_cases hinitial : initial.length = k.stateLength
  · by_cases hfinal : final.length = k.stateLength
    · by_cases hproof : proof.length = 25
      · obtain ⟨p, hstates, hz, rfl⟩ :=
          DeciderProof.exists_toOpaque steps (hinitial.trans hfinal.symm) hproof
        simp only [DeciderProof.stepsAndStates, List.cons_append, List.cons.injEq] at hstates
        obtain ⟨rfl, hstates⟩ := hstates
        obtain ⟨rfl, rfl⟩ := List.append_inj hstates hz
        rw [verifyOpaque_toOpaque e k p hinitial]
        exact ⟨by simp [hinitial, hfinal, hproof], fun _ => ⟨p, hinitial, rfl⟩⟩
      · refine ⟨?_, by simp [hinitial, hfinal, hproof]⟩
        simp [verifyOpaque, hkey, hinitial, hfinal, hproof, Json.requireSize_ints,
          Flat.splitProof_ints, Flat.proofLength]
        rfl
    · refine ⟨?_, by simp [hinitial, hfinal]⟩
      simp [verifyOpaque, hkey, hinitial, hfinal, Json.requireSize_ints]
      rfl
  · refine ⟨?_, by simp [hinitial]⟩
    simp [verifyOpaque, hkey, hinitial, Json.requireSize_ints]
    rfl

theorem sizesFirst_flat (ws : List ℤ) : SizesFirst e k (flatSizeFault k.stateLength ws.length)
    ((ofKey k).verifyFlat e (.ints ws)) := by
  unfold flatSizeFault
  by_cases hlen : ws.length = 26 + 2 * k.stateLength
  · obtain ⟨p, hz, rfl⟩ := DeciderProof.exists_toWords hlen
    exact ⟨by simp [hlen], fun _ => ⟨p, hz, verifyFlat_toWords e k p hz⟩⟩
  · rw [verifyFlat_of_length_ne e k hlen]
    exact ⟨by simp [hlen], by simp [hlen]⟩

/-- Wrong sizes are calling errors before anything else, and only they are. -/
theorem calls_refused_iff_sizes :
    (∀ (states : List ℤ) (g : ProofGroups),
      let sizes := ArgumentSizes.ofArguments states g
      let r := (ofKey k).verifyGrouped e (.ints states) g.arguments
      ((∃ c, r = .error (.value c)) ↔ sizes ≠ .required k.stateLength) ∧
        SizesFirst e k (sizes.fault k.stateLength) r) ∧
    (∀ (steps : ℤ) (initial final proof : List ℤ),
      let r := (ofKey k).verifyOpaque e steps (.ints initial) (.ints final) (.ints proof)
      ((∃ c, r = .error (.value c)) ↔ initial.length ≠ k.stateLength ∨
        final.length ≠ k.stateLength ∨ proof.length ≠ 25) ∧
        SizesFirst e k (opaqueSizeFault k.stateLength initial.length final.length proof.length) r) ∧
    ∀ ws : List ℤ,
      let r := (ofKey k).verifyFlat e (.ints ws)
      ((∃ c, r = .error (.value c)) ↔ ws.length ≠ 26 + 2 * k.stateLength) ∧
        SizesFirst e k (flatSizeFault k.stateLength ws.length) r := by
  refine ⟨?_, ?_, ?_⟩
  · intro states g
    have h := sizesFirst_grouped e k states g
    exact ⟨h.value_iff.trans (ArgumentSizes.fault_eq_none_iff k.stateLength_pos _).not, h⟩
  · intro steps initial final proof
    have h := sizesFirst_opaque e k steps initial final proof
    refine ⟨h.value_iff.trans ?_, h⟩
    unfold opaqueSizeFault
    split_ifs <;> simp <;> tauto
  · intro ws
    have h := sizesFirst_flat e k ws
    refine ⟨h.value_iff.trans ?_, h⟩
    unfold flatSizeFault
    split_ifs with hlen <;> simp [hlen]

/-- No step was folded and no point lies on the curve, yet it is the missing word that is
found; with it the step count is. -/
theorem calls_refused_countingProof :
    (∃ c, (ofKey sampleKey).verifyFlat optimalAte
      (.ints DeciderProof.countingProof.toWords.dropLast) = .error (.value c)) ∧
    (ofKey sampleKey).verifyFlat optimalAte (.ints DeciderProof.countingProof.toWords) =
      .error (.rejected .tooFewSteps) := by
  obtain ⟨-, -, hflat⟩ := calls_refused_iff_sizes optimalAte sampleKey
  exact ⟨(hflat _).1.mpr (by decide),
    verifyFlat_toWords optimalAte sampleKey DeciderProof.countingProof rfl⟩

end Decider
end FoldingVerifier
