import FoldingVerifier.Proofs.WordFormats

/-! Splitting and packing of word arrays. Cut into parts and packed again an array is the same,
and parts that are packed and cut are the same, with every value as it was. The cut is made at
places that the state length names, which is taken as it is: below zero its places are counted
from the end, and wherever there are enough words for that cut its parts overlap. -/
namespace FoldingVerifier

namespace FlatParts

/-- The words of the parts, one part after the other. -/
def toWords (parts : FlatParts) : List ℤ :=
  parts.steps :: parts.initialState ++ parts.finalState ++ parts.proof

/-- The parts, packed again. -/
def repack (parts : FlatParts) : Except Fault (List ℤ) :=
  Flat.pack (.int parts.steps) (.ints parts.initialState) (.ints parts.finalState)
    (.ints parts.proof)

theorem repack_eq_ok_iff {parts : FlatParts} {ws : List ℤ} : parts.repack = .ok ws ↔
    parts.initialState.length = parts.finalState.length ∧ parts.proof.length = 25 ∧
      parts.toWords = ws := by
  rw [repack, Flat.pack_ints, Flat.proofLength, toWords]
  split_ifs <;> simp_all

/-- Below zero the parts take more words than there are. -/
theorem length_lt_of_split {z : ℤ} {ws : List ℤ} {parts : FlatParts} (hz : z < 0)
    (h : Flat.split z (.ints ws) = .ok parts) : ws.length < parts.toWords.length := by
  obtain ⟨hlen, -, hinitial, hfinal, hproof⟩ := Flat.split_ints_eq_ok_iff.mp h
  have hpos := Flat.length_pos_of_split h
  simp only [toWords, List.length_append, List.length_cons, hinitial, hfinal, hproof,
    Flat.length_between, Flat.position]
  split_ifs <;> omega

/-- From zero on they are the array in a row, and the counts for packing are right. -/
theorem repack_of_split {z : ℤ} {ws : List ℤ} {parts : FlatParts} (hz : 0 ≤ z)
    (h : Flat.split z (.ints ws) = .ok parts) : parts.toWords = ws ∧ parts.repack = .ok ws := by
  lift z to ℕ using hz
  obtain ⟨hlen, -⟩ := Flat.split_ints_eq_ok_iff.mp h
  have hlen' : ws.length = 26 + 2 * z := by omega
  obtain ⟨p, rfl, rfl⟩ := DeciderProof.exists_toWords hlen'
  rw [DeciderProof.split_toWords] at h
  cases h
  exact ⟨rfl, DeciderProof.pack_stepsAndStates p⟩

theorem split_of_repack {parts : FlatParts} {ws : List ℤ} (h : parts.repack = .ok ws) :
    Flat.split parts.initialState.length (.ints ws) = .ok parts := by
  obtain ⟨hlen, hproof, rfl⟩ := repack_eq_ok_iff.mp h
  exact Flat.split_row parts.steps hlen hproof

end FlatParts

/-- Only the shape of two by two is taken. -/
theorem Flat.openingWords_pair (w e : List ℤ) : openingWords (.arr [.ints w, .ints e]) =
    if w.length = 2 ∧ e.length = 2 then .ok ((w ++ e).map .int)
    else .error (.value (.openingsShape (Json.arr [.ints w, .ints e]).shape)) := by
  have hshape := Json.shape_pair w e
  unfold openingWords
  split
  · next xs ys hv htwo =>
    obtain ⟨rfl, rfl⟩ : w.map .int = xs ∧ e.map .int = ys := by simpa [Json.ints] using hv
    rw [htwo] at hshape
    split_ifs at hshape with hlen
    · have hw : w.length = 2 := by simpa [eq_comm] using hshape
      rw [if_pos ⟨hw, hlen ▸ hw⟩, List.map_append]
    · cases hshape
  · next hother =>
    rw [if_neg]
    rintro ⟨hw, he⟩
    rw [if_pos (hw.trans he.symm), hw] at hshape
    exact hother _ _ rfl hshape

/-- Two arrays of two words, put in a row. -/
theorem Flat.openingWords_eq_ok_iff {vs : List (List ℤ)} {items : List Json} :
    openingWords (.arr (vs.map .ints)) = .ok items ↔
      ∃ w e, vs = [w, e] ∧ w.length = 2 ∧ e.length = 2 ∧ (w ++ e).map .int = items := by
  rcases vs with _ | ⟨w, _ | ⟨e, _ | ⟨x, vs⟩⟩⟩
  · exact iff_of_false (by rintro ⟨⟩) (by simp)
  · exact iff_of_false (by rintro ⟨⟩) (by simp)
  · change openingWords (.arr [.ints w, .ints e]) = _ ↔ _
    rw [openingWords_pair]
    split_ifs with h <;> simp_all
  · exact iff_of_false (by rintro ⟨⟩) (by simp)

namespace DeciderProof

/-- Any words in the right number stand beside some step count and states. -/
theorem exists_toOpaque_eq {ws : List ℤ} (h : ws.length = 25) :
    ∃ p : DeciderProof, p.toOpaque = ws := by
  have hempty : ([] : List ℤ).length = ([] : List ℤ).length := rfl
  obtain ⟨p, -, -, hp⟩ := exists_toOpaque 0 hempty h
  exact ⟨p, hp⟩

theorem sized_groups (p : DeciderProof) : p.groups.Sized where
  folded := rfl
  freshWitness := rfl
  crossTermAndRandomness := rfl
  groth16 := rfl
  challengesAndEvals := rfl
  openings := ⟨_, _, rfl, rfl, rfl⟩

end DeciderProof

namespace ProofGroups

variable {g : ProofGroups} {ws : List ℤ}

/-- The six groups, packed again. -/
def repack (g : ProofGroups) : Except Fault (List ℤ) := Flat.packProof g.arguments

/-- Groups of the right sizes are those of a proof. -/
theorem Sized.exists_proof (h : g.Sized) : ∃ p : DeciderProof, p.groups = g := by
  obtain ⟨p, hp⟩ := DeciderProof.exists_toOpaque_eq h.length_toWords
  exact ⟨p, by rw [← DeciderProof.ofWords_toOpaque, hp, h.ofWords_toWords]⟩

theorem repack_eq_ok_iff : g.repack = .ok ws ↔ g.Sized ∧ g.toWords = ws := by
  constructor
  · intro h
    simp only [repack, Flat.packProof, arguments, bind_eq_ok_iff, Flat.openingWords_eq_ok_iff,
      Json.words_ints_eq_ok_iff] at h
    obtain ⟨_, ⟨w, e, hopenings, hw, he, rfl⟩, _, ⟨hfolded, rfl⟩, _, ⟨hfresh, rfl⟩,
      _, ⟨hcross, rfl⟩, _, ⟨hgroth16, rfl⟩, _, ⟨hchallenges, rfl⟩, h⟩ := h
    simp only [← List.map_append, Json.mapM_integer, Except.ok.injEq] at h
    have hsized : g.Sized := {
      folded := by omega
      freshWitness := by omega
      crossTermAndRandomness := by omega
      groth16 := by omega
      challengesAndEvals := by omega
      openings := ⟨w, e, hopenings, hw, he⟩ }
    exact ⟨hsized, by simp [← h, toWords, hopenings]⟩
  · rintro ⟨h, rfl⟩
    obtain ⟨p, rfl⟩ := h.exists_proof
    exact DeciderProof.packProof_groups p

theorem splitProof_eq_ok_iff :
    Flat.splitProof (.ints ws) = .ok g ↔ g.Sized ∧ g.toWords = ws := by
  rw [Flat.splitProof_ints]
  constructor
  · intro h
    split_ifs at h with hlen
    cases h
    obtain ⟨p, rfl⟩ := DeciderProof.exists_toOpaque_eq hlen
    exact ⟨p.sized_groups, rfl⟩
  · rintro ⟨h, rfl⟩
    have hlen : g.toWords.length = Flat.proofLength := h.length_toWords
    rw [if_pos hlen, h.ofWords_toWords]

end ProofGroups

namespace Flat

/-- Nothing is lost, doubled or moved, for every state length that is no less than zero; below
zero words are doubled. What is packed is cut into the same parts again. -/
theorem reshaping_lossless (ws : List ℤ) :
    (∀ g, splitProof (.ints ws) = .ok g → g.toWords = ws ∧ g.repack = .ok ws) ∧
    (∀ z parts, split z (.ints ws) = .ok parts →
      (0 ≤ z → parts.toWords = ws ∧ parts.repack = .ok ws) ∧
        (z < 0 → ws.length < parts.toWords.length ∧ parts.repack ≠ .ok ws)) ∧
    (∀ g, g.repack = .ok ws → splitProof (.ints ws) = .ok g) ∧
    ∀ parts, parts.repack = .ok ws →
      split parts.initialState.length (.ints ws) = .ok parts := by
  refine ⟨?_, ?_, ?_, ?_⟩
  · intro g h
    obtain ⟨hsized, hwords⟩ := ProofGroups.splitProof_eq_ok_iff.mp h
    exact ⟨hwords, ProofGroups.repack_eq_ok_iff.mpr ⟨hsized, hwords⟩⟩
  · intro z parts h
    refine ⟨fun hz => FlatParts.repack_of_split hz h, ?_⟩
    intro hz
    have hlong := FlatParts.length_lt_of_split hz h
    refine ⟨hlong, ?_⟩
    intro hpack
    obtain ⟨-, -, rfl⟩ := FlatParts.repack_eq_ok_iff.mp hpack
    exact lt_irrefl _ hlong
  · intro g h
    exact ProofGroups.splitProof_eq_ok_iff.mpr (ProofGroups.repack_eq_ok_iff.mp h)
  · intro parts h
    exact FlatParts.split_of_repack h

/-- The words from zero on. -/
def countedWords (n : ℕ) : List ℤ := (List.range n).map Int.ofNat

/-- The parts of 24 counted words for the state length minus one. The first word is the step
count and the first word of a state. -/
def overlappingParts : FlatParts where
  steps := 0
  initialState := []
  finalState := countedWords 23
  proof := [23]

theorem reshaping_lossless_countedWords :
    splitProof (.ints (countedWords 25)) = .ok (.ofWords (countedWords 25)) ∧
    (ProofGroups.ofWords (countedWords 25)).repack = .ok (countedWords 25) ∧
    (∃ parts, split 2 (.ints (countedWords 30)) = .ok parts ∧
      parts.repack = .ok (countedWords 30) ∧ parts.initialState = [1, 2]) ∧
    split (-1) (.ints (countedWords 24)) = .ok overlappingParts ∧
    (countedWords 24).length < overlappingParts.toWords.length := by
  have hproof : splitProof (.ints (countedWords 25)) = .ok (.ofWords (countedWords 25)) := by rfl
  have hflat : split 2 (.ints (countedWords 30)) =
      .ok ⟨0, [1, 2], [3, 4], (countedWords 30).drop 5⟩ := by rfl
  have hoverlap : split (-1) (.ints (countedWords 24)) = .ok overlappingParts := by rfl
  obtain ⟨hgroups, -, hgroups', -⟩ := reshaping_lossless (countedWords 25)
  obtain ⟨-, hparts, -, hparts'⟩ := reshaping_lossless (countedWords 30)
  obtain ⟨-, hoverlaps, -⟩ := reshaping_lossless (countedWords 24)
  have hrepack := (hgroups _ hproof).2
  have hrepack' := ((hparts 2 _ hflat).1 (by decide)).2
  exact ⟨hgroups' _ hrepack, hrepack, ⟨_, hparts' _ hrepack', hrepack', rfl⟩, hoverlap,
    ((hoverlaps (-1) _ hoverlap).2 (by decide)).1⟩

/-- Not every array is what its parts are in a row. -/
theorem reshaping_overlap :
    split (-1) (.ints (countedWords 24)) = .ok overlappingParts ∧
      overlappingParts.toWords ≠ countedWords 24 ∧
      overlappingParts.repack = .error (.value .stateLengthsDiffer) := by
  exact ⟨by rfl, by decide, by rfl⟩

end Flat

end FoldingVerifier
