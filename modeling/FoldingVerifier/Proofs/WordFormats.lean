import FoldingVerifier.Proofs.DeciderProof

/-! Grouped arguments and word arrays as formats. A reader accepts only what the writer makes
of the proof that it returns, and every array of the right length is accepted, so that the
formats are bijections. Proofs without a state are written, but not read. -/
namespace FoldingVerifier

theorem CommitmentPair.length_of_ofWords {ns : List ℤ} {c : CommitmentPair}
    (h : ofWords (.ints ns) = .ok c) : ns.length = 4 := by
  rw [ofWords, Json.size_ints] at h
  exact not_not.mp (of_guard_eq_ok h).1

theorem Groth16Proof.length_of_ofWords {ns : List ℤ} {p : Groth16Proof}
    (h : ofWords (.ints ns) = .ok p) : ns.length = 8 := by
  rw [ofWords, Json.size_ints] at h
  exact not_not.mp (of_guard_eq_ok h).1

namespace ProofGroups

/-- The sizes that the groups of a proof have. -/
structure Sized (g : ProofGroups) : Prop where
  folded : g.folded.length = 4
  freshWitness : g.freshWitness.length = 2
  crossTermAndRandomness : g.crossTermAndRandomness.length = 3
  groth16 : g.groth16.length = 8
  challengesAndEvals : g.challengesAndEvals.length = 4
  openings : ∃ w e, g.openings = [w, e] ∧ w.length = 2 ∧ e.length = 2

variable {g : ProofGroups}

theorem Sized.length_toWords (h : g.Sized) : g.toWords.length = 25 := by
  obtain ⟨w, e, hopenings, hw, he⟩ := h.openings
  simp [toWords, h.folded, h.freshWitness, h.crossTermAndRandomness, h.groth16,
    h.challengesAndEvals, hopenings, hw, he]

theorem Sized.ofWords_toWords (h : g.Sized) : ofWords g.toWords = g := by
  obtain ⟨folded, fresh, cross, groth16, challenges, openings⟩ := g
  obtain ⟨hfolded, hfresh, hcross, hgroth16, hchallenges, w, e, hopenings, hw, he⟩ := h
  simp_all [ofWords, toWords, List.drop_append, List.drop_eq_nil_of_le]

end ProofGroups

/-- Two openings of two words each. -/
theorem openings_of_sizes {vs : List (List ℤ)} {items : List Json} {c c' : ValueFault}
    (hcount : (Json.arr (vs.map .ints)).requireSize 2 c = .ok ())
    (hitems : (Json.arr (vs.map .ints)).items = .ok items)
    (hsizes : items.forM (fun v => v.requireSize 2 c') = .ok ()) :
    ∃ w e, vs = [w, e] ∧ w.length = 2 ∧ e.length = 2 := by
  cases hitems
  have hlen := not_not.mp (of_guard_eq_ok hcount).1
  rw [List.length_map] at hlen
  obtain ⟨w, e, rfl⟩ := List.length_eq_two.mp hlen
  obtain ⟨_, hw, hrest⟩ := exists_of_bind_eq_ok hsizes
  obtain ⟨_, he, -⟩ := exists_of_bind_eq_ok hrest
  exact ⟨w, e, rfl, Json.length_of_requireSize hw, Json.length_of_requireSize he⟩

namespace DeciderProof

variable {p : DeciderProof} {states : List ℤ} {g : ProofGroups}

theorem sized_of_ofGrouped (h : ofGrouped (.ints states) g.arguments = .ok p) :
    (3 ≤ states.length ∧ states.length % 2 = 1) ∧ g.Sized := by
  rw [ofGrouped, Json.size_ints] at h
  obtain ⟨hn, h⟩ := of_guard_eq_ok h
  refine ⟨by omega, ?_⟩
  -- the checks of the sizes, and the words of the challenges
  obtain ⟨_, hfresh, h⟩ := exists_of_bind_eq_ok h
  obtain ⟨_, hcross, h⟩ := exists_of_bind_eq_ok h
  obtain ⟨_, hchallenges, h⟩ := exists_of_bind_eq_ok h
  obtain ⟨_, hcount, h⟩ := exists_of_bind_eq_ok h
  obtain ⟨items, hitems, h⟩ := exists_of_bind_eq_ok h
  obtain ⟨_, hsizes, h⟩ := exists_of_bind_eq_ok h
  obtain ⟨_, -, h⟩ := exists_of_bind_eq_ok h
  obtain ⟨w, e, hopenings, hw, he⟩ := openings_of_sizes hcount hitems hsizes
  split at h
  · -- the step count and both states, and then the groups that check their size themselves
    obtain ⟨_, -, h⟩ := exists_of_bind_eq_ok h
    obtain ⟨_, -, h⟩ := exists_of_bind_eq_ok h
    obtain ⟨_, -, h⟩ := exists_of_bind_eq_ok h
    obtain ⟨_, -, h⟩ := exists_of_bind_eq_ok h
    obtain ⟨_, hrunning, h⟩ := exists_of_bind_eq_ok h
    obtain ⟨_, -, h⟩ := exists_of_bind_eq_ok h
    obtain ⟨_, -, h⟩ := exists_of_bind_eq_ok h
    obtain ⟨_, -, h⟩ := exists_of_bind_eq_ok h
    obtain ⟨_, hgroth16, -⟩ := exists_of_bind_eq_ok h
    exact {
      folded := CommitmentPair.length_of_ofWords hrunning
      freshWitness := Json.length_of_requireSize hfresh
      crossTermAndRandomness := Json.length_of_requireSize hcross
      groth16 := Groth16Proof.length_of_ofWords hgroth16
      challengesAndEvals := Json.length_of_requireSize hchallenges
      openings := ⟨w, e, hopenings, hw, he⟩ }
  · cases h

/-- Words of a proof are those of one proof only, which the right groups and counts make. -/
theorem exists_groups (hstates : 3 ≤ states.length ∧ states.length % 2 = 1) (hg : g.Sized) :
    ∃ p : DeciderProof, 0 < p.stateLength ∧ p.stepsAndStates = states ∧ p.groups = g := by
  obtain ⟨n, words, rfl⟩ := List.exists_cons_of_length_pos (by omega : 0 < states.length)
  rw [List.length_cons] at hstates
  have hhalf : (words.take (words.length / 2)).length = (words.drop (words.length / 2)).length := by
    rw [List.length_take, List.length_drop]
    omega
  obtain ⟨p, hp, hz, hopaque⟩ := exists_toOpaque n hhalf hg.length_toWords
  refine ⟨p, ?_, ?_, ?_⟩
  · rw [hz, List.length_take]
    omega
  · rw [hp, List.cons_append, List.take_append_drop]
  · rw [← ofWords_toOpaque, hopaque, hg.ofWords_toWords]

theorem ofGrouped_eq_ok_iff : ofGrouped (.ints states) g.arguments = .ok p ↔
    0 < p.stateLength ∧ p.stepsAndStates = states ∧ p.groups = g := by
  constructor
  · intro h
    obtain ⟨hstates, hg⟩ := sized_of_ofGrouped h
    obtain ⟨p', hz, rfl, rfl⟩ := exists_groups hstates hg
    have hp : p' = p := by simpa [ofGrouped_groups p' hz] using h
    subst hp
    exact ⟨hz, rfl, rfl⟩
  · rintro ⟨hz, rfl, rfl⟩
    exact ofGrouped_groups p hz

theorem ofWords_eq_ok_iff {z : ℕ} (hz : 0 < z) {ws : List ℤ} :
    ofWords z (.ints ws) = .ok p ↔ p.stateLength = z ∧ p.toWords = ws := by
  constructor
  · intro h
    by_cases hlen : ws.length = 26 + 2 * z
    · obtain ⟨p', rfl, rfl⟩ := exists_toWords hlen
      have hp : p' = p := by simpa [ofWords_toWords p' hz] using h
      exact ⟨congrArg stateLength hp.symm, congrArg toWords hp.symm⟩
    · rw [ofWords, Flat.split_ints_of_length_ne z ws (by omega)] at h
      cases h
  · rintro ⟨rfl, rfl⟩
    exact ofWords_toWords p hz

/-- Another state length than zero does not fit the words, and zero none that are read. -/
theorem ofWords_of_stateLength_eq_zero (h : p.stateLength = 0) (z : ℤ) :
    ∃ c, ofWords z (.ints p.toWords) = .error (.value c) := by
  by_cases hz : z = 0
  · have hsplit := split_toWords p
    rw [h] at hsplit
    refine ⟨.stepsAndStatesCount 1, ?_⟩
    subst hz
    rw [ofWords]
    change Flat.split ((0 : ℕ) : ℤ) _ >>= _ = _
    rw [hsplit]
    change (do
      let groups ← Flat.splitProof (.ints p.toOpaque)
      ofGrouped (.ints p.stepsAndStates) groups.arguments) = _
    rw [Flat.splitProof_ints, if_pos (length_toOpaque p)]
    exact ofGrouped_of_stateLength_eq_zero p h _
  · have hlen : (p.toWords.length : ℤ) ≠ 26 + 2 * z := by
      rw [length_toWords, h]
      omega
    exact ⟨_, by rw [ofWords, Flat.split_ints_of_length_ne z _ hlen]; rfl⟩

/-- Both formats hold all of a proof with states of one word or more and nothing else. What
holds the words of one with empty states is refused. -/
theorem wordFormats_bijective :
    (∀ p : DeciderProof, Flat.packProof p.groups.arguments = .ok p.toOpaque ∧
      Flat.pack (.int p.steps) (.ints p.initialState) (.ints p.finalState) (.ints p.toOpaque) =
        .ok p.toWords) ∧
    (∀ p : DeciderProof, 1 ≤ p.stateLength →
      ofGrouped (.ints p.stepsAndStates) p.groups.arguments = .ok p ∧
        p.toWords.length = 26 + 2 * p.stateLength ∧
        ofWords p.stateLength (.ints p.toWords) = .ok p) ∧
    (∀ (z : ℤ) (ws : List ℤ), 1 ≤ z → ws.length = 26 + 2 * z →
      ∃ p, ofWords z (.ints ws) = .ok p ∧ p.toWords = ws) ∧
    (∀ (states : List ℤ) (g : ProofGroups) (p : DeciderProof),
      ofGrouped (.ints states) g.arguments = .ok p → p.stepsAndStates = states ∧ p.groups = g) ∧
    ∀ p : DeciderProof, p.stateLength = 0 → p.toWords.length = 26 ∧
      (∃ c, ofGrouped (.ints p.stepsAndStates) p.groups.arguments = .error (.value c)) ∧
        ∀ z, ∃ c, ofWords z (.ints p.toWords) = .error (.value c) := by
  refine ⟨?_, ?_, ?_, ?_, ?_⟩
  · intro p
    exact ⟨packProof_groups p, pack_stepsAndStates p⟩
  · intro p hz
    exact ⟨ofGrouped_groups p hz, length_toWords p, ofWords_toWords p hz⟩
  · intro z ws hz hlen
    lift z to ℕ using by omega
    have hlen' : ws.length = 26 + 2 * z := by omega
    obtain ⟨p, rfl, hp⟩ := exists_toWords hlen'
    exact ⟨p, (ofWords_eq_ok_iff (by omega)).mpr ⟨rfl, hp⟩, hp⟩
  · intro states g p h
    exact (ofGrouped_eq_ok_iff.mp h).2
  · intro p h
    refine ⟨?_, ⟨_, ofGrouped_of_stateLength_eq_zero p h _⟩, ofWords_of_stateLength_eq_zero h⟩
    rw [length_toWords, h]

/-- The words of this proof count upwards. On the wire the second group has its imaginary
parts first. -/
def countingProof : DeciderProof where
  steps := 0
  initialState := [1]
  finalState := [2]
  running := ⟨⟨3, 4⟩, ⟨5, 6⟩⟩
  freshWitness := ⟨7, 8⟩
  crossTerm := ⟨9, 10⟩
  randomness := 11
  groth16 := ⟨⟨12, 13⟩, ⟨15, 14, 17, 16⟩, ⟨18, 19⟩⟩
  challengeW := 20
  challengeE := 21
  evalW := 22
  evalE := 23
  openingW := ⟨24, 25⟩
  openingE := ⟨26, 27⟩
  same_length := rfl

def statelessProof : DeciderProof :=
  { countingProof with initialState := [], finalState := [], same_length := rfl }

theorem wordFormats_bijective_countingProof :
    countingProof.toWords = (List.range 28).map Int.ofNat ∧
      ofGrouped (.ints [0, 1, 2]) countingProof.groups.arguments = .ok countingProof ∧
      ofWords 1 (.ints ((List.range 28).map Int.ofNat)) = .ok countingProof ∧
      (∃ p, ofWords 1 (.ints (List.replicate 28 (-1))) = .ok p ∧
        p.toWords = List.replicate 28 (-1)) ∧
      countingProof.stepsAndStates = [0, 1, 2] ∧
      (∃ c, ofGrouped (.ints [0]) statelessProof.groups.arguments = .error (.value c)) ∧
      ∃ c, ofWords 0 (.ints statelessProof.toWords) = .error (.value c) := by
  obtain ⟨-, hread, hwrite, hgrouped, hstateless⟩ := wordFormats_bijective
  obtain ⟨hgroups, -, hwords⟩ := hread countingProof (by decide)
  obtain ⟨-, hrefused, hrefused'⟩ := hstateless statelessProof rfl
  exact ⟨by decide, hgroups, hwords, hwrite 1 _ (by decide) (by decide),
    (hgrouped _ _ _ hgroups).1, hrefused, hrefused' 0⟩

end DeciderProof
end FoldingVerifier
