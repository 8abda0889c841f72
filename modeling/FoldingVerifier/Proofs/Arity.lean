import FoldingVerifier.Proofs.Reshaping

/-! One state length for every array of words. The length of the array names the state length
under which it can be read, and under no other is a proof returned: below zero, where the parts
overlap, what is left for the proof itself is too short. In what is read every word has one
field that it belongs to. -/
namespace FoldingVerifier
namespace DeciderProof

variable {z : ℤ} {ws : List ℤ} {p : DeciderProof}

/-- Reading cuts the array, groups the last part and puts the others together. -/
theorem exists_parts_of_ofWords (h : ofWords z (.ints ws) = .ok p) :
    ∃ parts, Flat.split z (.ints ws) = .ok parts ∧ parts.proof.length = 25 ∧
      3 ≤ (parts.steps :: parts.initialState ++ parts.finalState).length := by
  obtain ⟨parts, hparts, h⟩ := exists_of_bind_eq_ok h
  obtain ⟨g, hg, h⟩ := exists_of_bind_eq_ok h
  obtain ⟨hsized, hwords⟩ := ProofGroups.splitProof_eq_ok_iff.mp hg
  exact ⟨parts, hparts, hwords ▸ hsized.length_toWords, (sized_of_ofGrouped h).1.1⟩

/-- Where the last part has 25 words, there are none for the states unless the state length is
positive. -/
theorem arity_of_ofWords (h : ofWords z (.ints ws) = .ok p) :
    1 ≤ z ∧ (ws.length : ℤ) = 26 + 2 * z := by
  obtain ⟨parts, hparts, hproof, hstates⟩ := exists_parts_of_ofWords h
  obtain ⟨hlen, -, hinitial, hfinal, hrest⟩ := Flat.split_ints_eq_ok_iff.mp hparts
  refine ⟨?_, hlen⟩
  have hpos := Flat.length_pos_of_split hparts
  rw [hrest, Flat.length_between] at hproof
  rw [List.length_append, List.length_cons, hinitial, hfinal, Flat.length_between,
    Flat.length_between] at hstates
  by_contra hz
  simp only [Flat.position] at hproof hstates
  split_ifs at hproof hstates <;> omega

theorem exists_ofWords_eq_ok_iff :
    (∃ p, ofWords z (.ints ws) = .ok p) ↔ 1 ≤ z ∧ (ws.length : ℤ) = 26 + 2 * z := by
  constructor
  · rintro ⟨p, h⟩
    exact arity_of_ofWords h
  · rintro ⟨hz, hlen⟩
    lift z to ℕ using by omega
    have hlen' : ws.length = 26 + 2 * z := by omega
    obtain ⟨p, rfl, rfl⟩ := exists_toWords hlen'
    exact ⟨p, ofWords_toWords p (by omega)⟩

theorem toWords_of_ofWords (h : ofWords z (.ints ws) = .ok p) :
    p.stateLength = z ∧ p.toWords = ws := by
  obtain ⟨hz, -⟩ := arity_of_ofWords h
  lift z to ℕ using by omega
  obtain ⟨hlen, hwords⟩ := (ofWords_eq_ok_iff (by omega)).mp h
  exact ⟨congrArg Nat.cast hlen, hwords⟩

/-- The words of every field, in the order of the array. -/
def fields (p : DeciderProof) : List (List ℤ) :=
  [[p.steps], p.initialState, p.finalState, p.running.witness.toList, p.running.errorTerm.toList,
    p.freshWitness.toList, p.crossTerm.toList, [p.randomness], p.groth16.a.toList,
    p.groth16.b.toWords, p.groth16.c.toList, [p.challengeW], [p.challengeE], [p.evalW], [p.evalE],
    p.openingW.toList, p.openingE.toList]

theorem flatten_fields (p : DeciderProof) : p.fields.flatten = p.toWords := by
  simp [fields, toWords, stepsAndStates, toOpaque, ProofGroups.toWords, groups,
    CommitmentPair.toWords, Groth16Proof.toWords]

theorem lengths_fields (p : DeciderProof) : p.fields.map List.length =
    [1, p.stateLength, p.stateLength, 2, 2, 2, 2, 1, 2, 4, 2, 1, 1, 1, 1, 2, 2] := by
  have hfinal : p.finalState.length = p.stateLength := p.same_length.symm
  simp [fields, hfinal, stateLength, G1Coords.toList, G2Coords.toWords]

end DeciderProof

/-- Where lists of the same lengths differ in one item of the row that they form, they differ in
one of the lists. -/
theorem existsUnique_of_flatten_set {α : Type} {v w : α} (hne : v ≠ w) {as bs : List (List α)}
    (hlengths : as.map List.length = bs.map List.length) {i : ℕ} (hi : as.flatten[i]? = some w)
    (hset : bs.flatten = as.flatten.set i v) : ∃! j : ℕ, as[j]? ≠ bs[j]? := by
  induction as generalizing bs i with
  | nil => simp at hi
  | cons a as ih =>
    obtain ⟨b, bs, rfl⟩ : ∃ b bs', bs = b :: bs' := by
      cases bs with
      | nil => simp at hlengths
      | cons b bs => exact ⟨b, bs, rfl⟩
    simp only [List.map_cons, List.cons.injEq] at hlengths
    rw [List.flatten_cons] at hi hset
    rw [List.flatten_cons, List.set_append] at hset
    by_cases hhere : i < a.length
    · -- the item is one of the first list, and all that follows is the same
      rw [if_pos hhere] at hset
      obtain ⟨rfl, hrest⟩ := List.append_inj hset (by simp [hlengths.1])
      have hsame : bs = as := List.eq_iff_flatten_eq.mpr ⟨hrest, hlengths.2.symm⟩
      rw [List.getElem?_append_left hhere] at hi
      refine ⟨0, ?_, ?_⟩
      · intro h
        have hitem : a[i]? = (a.set i v)[i]? := congrArg (·[i]?) (Option.some.inj h)
        rw [hi, List.getElem?_set_self hhere, Option.some.injEq] at hitem
        exact hne hitem.symm
      · intro j hj
        cases j with
        | zero => rfl
        | succ j => simp [hsame] at hj
    · rw [if_neg hhere] at hset
      obtain ⟨rfl, hrest⟩ := List.append_inj hset hlengths.1.symm
      rw [List.getElem?_append_right (not_lt.mp hhere)] at hi
      obtain ⟨j, hj, hunique⟩ := ih hlengths.2 hi hrest
      refine ⟨j + 1, by simpa using hj, ?_⟩
      intro k hk
      cases k with
      | zero => simp at hk
      | succ k => rw [hunique k (by simpa using hk)]

namespace DeciderProof

/-- Exactly the arrays of 26 words and twice a positive state length are read. None is read under
two state lengths, and each word is the word of one field: changed, it changes that field only. -/
theorem ofWords_iff_arity :
    (∀ (z : ℤ) (ws : List ℤ),
      (∃ p, ofWords z (.ints ws) = .ok p) ↔ 1 ≤ z ∧ (ws.length : ℤ) = 26 + 2 * z) ∧
    (∀ (z z' : ℤ) (ws : List ℤ) (p p' : DeciderProof), ofWords z (.ints ws) = .ok p →
      ofWords z' (.ints ws) = .ok p' → z = z' ∧ p = p') ∧
    ∀ (z : ℤ) (ws : List ℤ) (p : DeciderProof), ofWords z (.ints ws) = .ok p →
      p.fields.flatten = ws ∧
        ∀ (i : ℕ) (v w : ℤ), ws[i]? = some w → v ≠ w →
          ∃ p', ofWords z (.ints (ws.set i v)) = .ok p' ∧
            ∃! j : ℕ, p.fields[j]? ≠ p'.fields[j]? := by
  refine ⟨fun z ws => exists_ofWords_eq_ok_iff, ?_, ?_⟩
  · intro z z' ws p p' h h'
    obtain ⟨-, hlen⟩ := arity_of_ofWords h
    obtain ⟨-, hlen'⟩ := arity_of_ofWords h'
    obtain rfl : z = z' := by omega
    exact ⟨rfl, Except.ok.inj (h.symm.trans h')⟩
  · intro z ws p h
    obtain ⟨hz, hwords⟩ := toWords_of_ofWords h
    have hfields : p.fields.flatten = ws := p.flatten_fields.trans hwords
    refine ⟨hfields, ?_⟩
    intro i v w hi hne
    obtain ⟨p', h'⟩ : ∃ p', ofWords z (.ints (ws.set i v)) = .ok p' := by
      rw [exists_ofWords_eq_ok_iff, List.length_set]
      exact arity_of_ofWords h
    obtain ⟨hz', hwords'⟩ := toWords_of_ofWords h'
    have hlengths : p.fields.map List.length = p'.fields.map List.length := by
      rw [lengths_fields, lengths_fields, Int.ofNat_inj.mp (hz.trans hz'.symm)]
    refine ⟨p', h', existsUnique_of_flatten_set hne hlengths (hfields ▸ hi) ?_⟩
    rw [p'.flatten_fields, hwords', hfields]

theorem ofWords_iff_arity_countingProof :
    ofWords 1 (.ints countingProof.toWords) = .ok countingProof ∧
    countingProof.fields.flatten = countingProof.toWords ∧
    (∀ z p, ofWords z (.ints countingProof.toWords) = .ok p → z = 1 ∧ p = countingProof) ∧
    (∃ p', ofWords 1 (.ints (countingProof.toWords.set 14 (-1))) = .ok p' ∧
      ∃! j : ℕ, countingProof.fields[j]? ≠ p'.fields[j]?) ∧
    (∀ p, ofWords (-1) (.ints (Flat.countedWords 24)) ≠ .ok p) ∧
    ∀ p, ofWords (-13) (.ints []) ≠ .ok p := by
  obtain ⟨hread, hunique, hfields⟩ := ofWords_iff_arity
  have hcounting : ofWords 1 (.ints countingProof.toWords) = .ok countingProof := by rfl
  obtain ⟨hflatten, hset⟩ := hfields 1 _ _ hcounting
  refine ⟨hcounting, hflatten, ?_, hset 14 (-1) 14 (by decide) (by decide), ?_, ?_⟩
  · intro z p h
    exact hunique z 1 _ p _ h hcounting
  · intro p h
    exact absurd ((hread _ _).mp ⟨p, h⟩).1 (by decide)
  · intro p h
    exact absurd ((hread _ _).mp ⟨p, h⟩).1 (by decide)

end DeciderProof
end FoldingVerifier
