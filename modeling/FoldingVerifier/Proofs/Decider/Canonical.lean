import FoldingVerifier.Proofs.Decider.EntryPoints
import FoldingVerifier.Proofs.Decider.Folding

/-! Which words an accepted array may hold. Coordinates are checked when they are decoded, and
the integers that become public inputs by the Groth16 verifier. The folding randomness is
neither: it only multiplies group elements, and counts modulo their order. -/
namespace FoldingVerifier

open DeciderProof

namespace Flat

/-- Where the folding randomness stands. -/
def randomnessPlace (z : ℕ) : ℕ := 9 + 2 * z

/-- What the word at a place counts modulo: ahead of the points stand the step count and the
states, between them the randomness, the challenges and the evaluations. -/
def modulus (z place : ℕ) : Modulus :=
  if place < 1 + 2 * z ∨ place - (1 + 2 * z) ∈ [8, 17, 18, 19, 20] then .scalar else .base

/-- The word is the least representative of what it stands for. -/
def CanonicalAt (z place : ℕ) (n : ℤ) : Prop := 0 ≤ n ∧ n < (modulus z place).order

/-- All words are canonical. -/
def Canonical (z : ℕ) (ws : List ℤ) : Prop := ∀ i n, ws[i]? = some n → CanonicalAt z i n

/-- Both arrays stand for the same scalars and, as far as coordinates in the field tell, for the
same points. -/
def SameValues (z : ℕ) (ws ws' : List ℤ) : Prop :=
  ∀ i m n, ws[i]? = some m → ws'[i]? = some n → m ≡ n [ZMOD (modulus z i).order]

theorem order_lt (m : Modulus) : (m.order : ℤ) < 2 ^ 256 := by cases m <;> decide

theorem CanonicalAt.eq_of_modEq {z i : ℕ} {m n : ℤ} (hm : CanonicalAt z i m)
    (hn : CanonicalAt z i n) (h : m ≡ n [ZMOD (modulus z i).order]) : m = n := by
  rw [Int.ModEq, Int.emod_eq_of_lt hm.1 hm.2, Int.emod_eq_of_lt hn.1 hn.2] at h
  exact h

end Flat

namespace DeciderProof

/-- The coordinates of all points, in the order of the words. -/
def coordinates (p : DeciderProof) : List ℤ :=
  p.running.toWords ++ p.freshWitness.toList ++ p.crossTerm.toList ++ p.groth16.toWords ++
    p.openingW.toList ++ p.openingE.toList

theorem coordinates_inRange {p : DeciderProof} (hpoints : ∀ part : PointPart, (part.get p).InRange)
    (hb : p.groth16.b.InRange) : ∀ n ∈ p.coordinates, 0 ≤ n ∧ n < baseOrder := by
  have hpoint (part : PointPart) : ∀ n ∈ (part.get p).toList, 0 ≤ n ∧ n < baseOrder := by
    simp only [G1Coords.toList, List.forall_mem_cons]
    exact ⟨(hpoints part).1, (hpoints part).2, by simp⟩
  have hpointB : ∀ n ∈ p.groth16.b.toWords, 0 ≤ n ∧ n < baseOrder := by
    obtain ⟨hx0, hx1, hy0, hy1⟩ := hb
    simp only [G2Coords.toWords, List.forall_mem_cons]
    exact ⟨hx1, hx0, hy1, hy0, by simp⟩
  simp only [coordinates, CommitmentPair.toWords, Groth16Proof.toWords, List.forall_mem_append]
  have hrunning := And.intro (hpoint .runningWitness) (hpoint .runningErrorTerm)
  have hgroth16 := And.intro (And.intro (hpoint .groth16A) hpointB) (hpoint .groth16C)
  exact ⟨⟨⟨⟨⟨hrunning, hpoint .freshWitness⟩, hpoint .crossTerm⟩, hgroth16⟩,
    hpoint .openingW⟩, hpoint .openingE⟩

/-- Behind the states stand coordinates, but for the randomness and four scalars. -/
theorem mem_of_toOpaque {p : DeciderProof} {j : ℕ} {n : ℤ} (hn : p.toOpaque[j]? = some n)
    (hj : j ≠ 8) : if j ∈ [8, 17, 18, 19, 20] then n ∈ p.scalars else n ∈ p.coordinates := by
  have hlen : j < 25 := (List.getElem?_eq_some_iff.mp hn).1
  -- the randomness is the one word that is in neither list
  rcases Nat.lt_or_gt_of_ne hj with hj | hj
  all_goals
    interval_cases j <;> cases hn <;>
      simp [scalars, coordinates, CommitmentPair.toWords, Groth16Proof.toWords, G1Coords.toList,
        G2Coords.toWords]

/-- The words of a proof are canonical at all places but that of the randomness if the scalars
and the coordinates are in range. -/
theorem canonicalAt_toWords {p : DeciderProof}
    (hscalars : ∀ n ∈ p.scalars, 0 ≤ n ∧ n < scalarOrder)
    (hcoordinates : ∀ n ∈ p.coordinates, 0 ≤ n ∧ n < baseOrder) {i : ℕ} {n : ℤ}
    (hi : i ≠ Flat.randomnessPlace p.stateLength) (hn : p.toWords[i]? = some n) :
    Flat.CanonicalAt p.stateLength i n := by
  rw [Flat.CanonicalAt, Flat.modulus]
  rw [toWords] at hn
  by_cases hstates : i < 1 + 2 * p.stateLength
  · rw [List.getElem?_append_left (by rw [length_stepsAndStates]; exact hstates)] at hn
    rw [if_pos (.inl hstates)]
    exact hscalars n (List.mem_append_left _ (List.mem_of_getElem? hn))
  · rw [List.getElem?_append_right (by rw [length_stepsAndStates]; omega),
      length_stepsAndStates] at hn
    have hplace := mem_of_toOpaque hn (by rw [Flat.randomnessPlace] at hi; omega)
    simp only [hstates, false_or]
    split_ifs at hplace ⊢ with hj
    · exact hscalars n hplace
    · exact hcoordinates n hplace

end DeciderProof

namespace Decider

variable {e : Pairing} {k : DeciderKey}

theorem exists_of_verifyFlat_eq_ok {ws : List ℤ} (h : (ofKey k).verifyFlat e (.ints ws) = .ok ()) :
    ∃ p : DeciderProof, p.stateLength = k.stateLength ∧ p.toWords = ws ∧
      (ofKey k).verify e p = .ok () := by
  by_cases hlen : ws.length = 26 + 2 * k.stateLength
  · obtain ⟨p, hz, rfl⟩ := exists_toWords hlen
    rw [verifyFlat_toWords e k p hz] at h
    exact ⟨p, hz, rfl, h⟩
  · rw [verifyFlat_of_length_ne e k hlen] at h
    cases h

theorem canonicalAt_of_verifyFlat {ws : List ℤ}
    (h : (ofKey k).verifyFlat e (.ints ws) = .ok ()) {i : ℕ} {n : ℤ}
    (hi : i ≠ Flat.randomnessPlace k.stateLength) (hn : ws[i]? = some n) :
    Flat.CanonicalAt k.stateLength i n := by
  obtain ⟨p, hz, rfl, hp⟩ := exists_of_verifyFlat_eq_ok h
  rw [verify_eq_ok_iff] at hp
  have hscalars := Check.scalars_passes_iff.mp (hp .scalars)
  have hpoints (part : PointPart) : (part.get p).InRange :=
    (Check.point_passes_iff.mp (hp (.point part))).1
  have hb : p.groth16.b.InRange := (Check.pointB_passes_iff.mp (hp .pointB)).1
  rw [← hz] at hi ⊢
  exact canonicalAt_toWords hscalars (coordinates_inRange hpoints hb) hi hn

theorem length_of_verifyFlat {ws : List ℤ} (h : (ofKey k).verifyFlat e (.ints ws) = .ok ()) :
    ws.length = 26 + 2 * k.stateLength := by
  obtain ⟨p, hz, rfl, -⟩ := exists_of_verifyFlat_eq_ok h
  rw [length_toWords, hz]

/-- All words of an accepted array but the folding randomness are canonical, so that accepted
arrays which stand for the same scalars and the same points differ in that word at most. -/
theorem verifyFlat_canonical (e : Pairing) (k : DeciderKey) (ws : List ℤ)
    (h : (ofKey k).verifyFlat e (.ints ws) = .ok ()) :
    ws.length = 26 + 2 * k.stateLength ∧
    (∀ i n, i ≠ Flat.randomnessPlace k.stateLength → ws[i]? = some n →
      Flat.CanonicalAt k.stateLength i n ∧ 0 ≤ n ∧ n < 2 ^ 256) ∧
    ∀ ws', (ofKey k).verifyFlat e (.ints ws') = .ok () →
      Flat.SameValues k.stateLength ws ws' →
      ∀ i, i ≠ Flat.randomnessPlace k.stateLength → ws[i]? = ws'[i]? := by
  refine ⟨length_of_verifyFlat h, ?_, ?_⟩
  · intro i n hi hn
    have hcanonical := canonicalAt_of_verifyFlat h hi hn
    exact ⟨hcanonical, hcanonical.1, hcanonical.2.trans (Flat.order_lt _)⟩
  · intro ws' h' hsame i hi
    have hlen : ws.length = ws'.length :=
      (length_of_verifyFlat h).trans (length_of_verifyFlat h').symm
    by_cases hlt : i < ws.length
    · have hn := List.getElem?_eq_getElem hlt
      have hn' := List.getElem?_eq_getElem (hlen ▸ hlt)
      have heq := (canonicalAt_of_verifyFlat h hi hn).eq_of_modEq
        (canonicalAt_of_verifyFlat h' hi hn') (hsame i _ _ hn hn')
      rw [hn, hn', heq]
    · rw [List.getElem?_eq_none (by omega), List.getElem?_eq_none (by omega)]

/-- An accepted array with another representative of the randomness, of 256 bits too. -/
def shiftedWords : List ℤ := (ScalarPart.randomness.set (1 + scalarOrder) sampleProof).toWords

theorem verifyFlat_sampleWords :
    (ofKey sampleKey).verifyFlat .logarithmic (.ints sampleProof.toWords) = .ok () := by
  rw [verifyFlat_toWords _ _ _ rfl]
  exact verify_sampleProof Pairing.bilinear_logarithmic

theorem verifyFlat_shiftedWords :
    (ofKey sampleKey).verifyFlat .logarithmic (.ints shiftedWords) = .ok () := by
  have hmod : 1 + (scalarOrder : ℤ) ≡ sampleProof.randomness [ZMOD scalarOrder] :=
    Int.add_emod_right ..
  rw [shiftedWords, verifyFlat_toWords _ _ _ rfl,
    ← verify_sameFold _ _ (sameFold_set_randomness hmod)]
  exact verify_sampleProof Pairing.bilinear_logarithmic

theorem sameValues_shiftedWords : Flat.SameValues 1 shiftedWords sampleProof.toWords := by
  have hset : shiftedWords = sampleProof.toWords.set 11 (1 + scalarOrder) := by decide
  intro i m n hm hn
  rw [hset, List.getElem?_set] at hm
  split_ifs at hm with hi
  · subst hi
    cases hm
    cases hn
    exact Int.add_emod_right ..
  · rw [hn] at hm
    cases hm
    rfl

/-- Not all words of an accepted array are canonical, nor is it the only one that stands for
its scalars and points. -/
theorem verifyFlat_noncanonical :
    (ofKey sampleKey).verifyFlat .logarithmic (.ints shiftedWords) = .ok () ∧
      ¬Flat.Canonical 1 shiftedWords ∧
      (ofKey sampleKey).verifyFlat .logarithmic (.ints sampleProof.toWords) = .ok () ∧
      Flat.SameValues 1 shiftedWords sampleProof.toWords ∧ shiftedWords ≠ sampleProof.toWords := by
  have hword : shiftedWords[11]? = some (1 + scalarOrder : ℤ) := rfl
  refine ⟨verifyFlat_shiftedWords, ?_, verifyFlat_sampleWords, sameValues_shiftedWords, ?_⟩
  · intro hcanonical
    have hlt := (hcanonical 11 _ hword).2
    exact absurd hlt (by decide)
  · decide

theorem verifyFlat_canonical_shiftedWords :
    (ofKey sampleKey).verifyFlat .logarithmic (.ints shiftedWords) = .ok () ∧
      (∀ i n, i ≠ 11 → shiftedWords[i]? = some n →
        Flat.CanonicalAt 1 i n ∧ 0 ≤ n ∧ n < 2 ^ 256) ∧
      ∀ i, i ≠ 11 → shiftedWords[i]? = sampleProof.toWords[i]? := by
  obtain ⟨-, hcanonical, hunique⟩ :=
    verifyFlat_canonical .logarithmic sampleKey shiftedWords verifyFlat_shiftedWords
  exact ⟨verifyFlat_shiftedWords, hcanonical,
    hunique _ verifyFlat_sampleWords sameValues_shiftedWords⟩

end Decider
end FoldingVerifier
