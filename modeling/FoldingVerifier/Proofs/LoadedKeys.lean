import FoldingVerifier.Proofs.Decider.Revalidation
import FoldingVerifier.Proofs.Decider.Verdict
import FoldingVerifier.Proofs.KeyDocuments

/-! Keys as documents spell them. Reading a key is reading its parts and finding them sound;
a key that has been read is never in the way of a verification afterwards. -/
namespace FoldingVerifier

/-- The points of a Groth16 key as spelled; the list begins with the constant. -/
structure RawGroth16Key where
  alpha : G1Coords
  beta : G2Coords
  gamma : G2Coords
  delta : G2Coords
  ic : List G1Coords
deriving DecidableEq, Repr

structure RawKzgKey where
  g1 : G1Coords
  g2 : G2Coords
  secret : G2Coords
deriving DecidableEq, Repr

structure RawKey where
  hash : ℤ
  stateLength : ℤ
  groth16 : RawGroth16Key
  kzg : RawKzgKey
deriving DecidableEq, Repr

def RawGroth16Key.ofJson (v : Json) : Except Fault RawGroth16Key := do
  let alpha ← G1Coords.ofJson (← v.member "vk_alpha_1")
  let beta ← G2Coords.ofJson (← v.member "vk_beta_2")
  let gamma ← G2Coords.ofJson (← v.member "vk_gamma_2")
  let delta ← G2Coords.ofJson (← v.member "vk_delta_2")
  let ic ← (← (← v.member "IC").items).mapM G1Coords.ofJson
  return ⟨alpha, beta, gamma, delta, ic⟩

def RawKzgKey.ofJson (v : Json) : Except Fault RawKzgKey := do
  let g1 ← G1Coords.ofJson (← v.member "g1")
  let g2 ← G2Coords.ofJson (← v.member "g2")
  let secret ← G2Coords.ofJson (← v.member "vk")
  return ⟨g1, g2, secret⟩

/-- What a document spells where a key is expected. Only its form is looked at. -/
def RawKey.ofJson (v : Json) : Except Fault RawKey := do
  let hash ← Word.ofJson (← v.member "pp_hash")
  let stateLength ← (← v.memberD "state_len" (.int 1)).integer
  let groth16 ← RawGroth16Key.ofJson (← v.member "groth16")
  let kzg ← RawKzgKey.ofJson (← v.member "kzg")
  return ⟨hash, stateLength, groth16, kzg⟩

def Groth16Key.raw (k : Groth16Key) : RawGroth16Key where
  alpha := k.alpha.coords
  beta := k.beta.coords
  gamma := k.gamma.coords
  delta := k.delta.coords
  ic := (k.constant :: k.ic).map G1.coords

def KzgKey.raw (k : KzgKey) : RawKzgKey := ⟨k.g1.coords, k.g2.coords, k.secret.coords⟩

def DeciderKey.raw (k : DeciderKey) : RawKey :=
  ⟨k.hash.val, k.stateLength, k.groth16.raw, k.kzg.raw⟩

structure RawGroth16Key.Sound (t : RawGroth16Key) : Prop where
  alpha : t.alpha.Valid
  beta : t.beta.Valid
  gamma : t.gamma.Valid
  delta : t.delta.Valid
  ic : ∀ P ∈ t.ic, P.Valid

structure RawKzgKey.Sound (t : RawKzgKey) : Prop where
  g1 : t.g1.Valid
  g2 : t.g2.Valid
  secret : t.secret.Valid

structure RawKey.Sound (t : RawKey) : Prop where
  stateLength : 1 ≤ t.stateLength
  hash : 0 ≤ t.hash ∧ t.hash < scalarOrder
  length_ic : t.groth16.ic.length = 37 + 2 * t.stateLength
  groth16 : t.groth16.Sound
  kzg : t.kzg.Sound

theorem Groth16Key.sound_raw (k : Groth16Key) : k.raw.Sound where
  alpha := G1Coords.valid_coords _
  beta := G2Coords.valid_coords _
  gamma := G2Coords.valid_coords _
  delta := G2Coords.valid_coords _
  ic := by
    intro P hP
    obtain ⟨Q, -, rfl⟩ := List.mem_map.mp hP
    exact G1Coords.valid_coords Q

theorem KzgKey.sound_raw (k : KzgKey) : k.raw.Sound where
  g1 := G1Coords.valid_coords _
  g2 := G2Coords.valid_coords _
  secret := G2Coords.valid_coords _

/-- The number of points is one more than that of the inputs. -/
theorem DeciderKey.sound_raw (k : DeciderKey) : k.raw.Sound where
  stateLength := Int.natCast_pos.mpr k.stateLength_pos
  hash := inScalarField_iff.mp (Decider.ofKey k).hash_inScalarField
  length_ic := by
    have hcount := k.inputs_agree
    rw [PublicInputs.count, Groth16Key.inputCount, Limbs.count] at hcount
    simp only [raw, Groth16Key.raw, List.length_map, List.length_cons]
    omega
  groth16 := k.groth16.sound_raw
  kzg := k.kzg.sound_raw

theorem G1Coords.exists_map_coords {Ps : List G1Coords} (h : ∀ P ∈ Ps, P.Valid) :
    ∃ Qs : List G1, Qs.map G1.coords = Ps := by
  refine ⟨Ps.map G1Coords.element, ?_⟩
  rw [List.map_map]
  conv_rhs => rw [← List.map_id Ps]
  exact List.map_congr_left fun P hP => coords_element (h P hP)

/-- Sound parts are those of a key. -/
theorem RawKey.sound_iff (t : RawKey) : t.Sound ↔ ∃ k : DeciderKey, k.raw = t := by
  constructor
  · intro h
    obtain ⟨hash, stateLength, ⟨alpha, beta, gamma, delta, ic⟩, g1, g2, secret⟩ := t
    obtain ⟨hz, ⟨hlow, hhigh⟩, hlen, hgroth16, hkzg⟩ := h
    obtain ⟨α, rfl⟩ := (G1Coords.valid_iff _).mp hgroth16.alpha
    obtain ⟨β, rfl⟩ := (G2Coords.valid_iff _).mp hgroth16.beta
    obtain ⟨γ, rfl⟩ := (G2Coords.valid_iff _).mp hgroth16.gamma
    obtain ⟨δ, rfl⟩ := (G2Coords.valid_iff _).mp hgroth16.delta
    obtain ⟨points, rfl⟩ := G1Coords.exists_map_coords hgroth16.ic
    obtain ⟨g1, rfl⟩ := (G1Coords.valid_iff _).mp hkzg.g1
    obtain ⟨g2, rfl⟩ := (G2Coords.valid_iff _).mp hkzg.g2
    obtain ⟨secret, rfl⟩ := (G2Coords.valid_iff _).mp hkzg.secret
    change 1 ≤ stateLength at hz
    lift stateLength to ℕ using by omega
    cases points with
    | nil =>
      simp at hlen
      omega
    | cons constant ic =>
      have hcount : ((ic.length : ℕ) : ℤ) = PublicInputs.count stateLength := by
        simp only [List.length_map, List.length_cons] at hlen
        simp only [PublicInputs.count, Limbs.count]
        omega
      refine ⟨⟨Residue.ofInt scalarOrder hash, stateLength, ⟨α, β, γ, δ, constant, ic⟩,
        ⟨g1, g2, secret⟩, by omega, hcount⟩, ?_⟩
      simp only [DeciderKey.raw, Residue.val_ofInt_of_mem hlow hhigh]
      rfl
  · rintro ⟨k, rfl⟩
    exact k.sound_raw

theorem G1Coords.mapM_decode_eq_ok_iff {Ps : List G1Coords} {Qs : List G1} :
    Ps.mapM decode = .ok Qs ↔ Qs.map G1.coords = Ps := by
  constructor
  · induction Ps generalizing Qs with
    | nil =>
      rintro ⟨⟩
      rfl
    | cons P Ps ih =>
      intro h
      rw [List.mapM_cons] at h
      obtain ⟨Q, hQ, h⟩ := exists_of_bind_eq_ok h
      obtain ⟨Qs', hQs, h⟩ := exists_of_bind_eq_ok h
      cases h
      rw [List.map_cons, coords_of_decode hQ, ih hQs]
  · rintro rfl
    exact Groth16Key.mapM_decode_coords Qs

theorem Groth16Key.ofCoords_eq_ok_iff {t : RawGroth16Key} {k : Groth16Key} :
    ofCoords t.alpha t.beta t.gamma t.delta t.ic = .ok k ↔ k.raw = t := by
  constructor
  · intro h
    obtain ⟨alpha, beta, gamma, delta, ic⟩ := t
    cases ic with
    | nil => cases h
    | cons constant ic =>
      simp only [ofCoords, bind_eq_ok_iff, G1Coords.decode_eq_ok_iff, G2Coords.decode_eq_ok_iff,
        G1Coords.mapM_decode_eq_ok_iff] at h
      obtain ⟨_, rfl, _, rfl, _, rfl, _, rfl, _, rfl, _, rfl, h⟩ := h
      cases h
      rfl
  · rintro rfl
    exact k.ofCoords_coords

theorem KzgKey.ofCoords_eq_ok_iff {t : RawKzgKey} {k : KzgKey} :
    ofCoords t.g1 t.g2 t.secret = .ok k ↔ k.raw = t := by
  constructor
  · intro h
    obtain ⟨g1, g2, secret⟩ := t
    simp only [ofCoords, bind_eq_ok_iff, G1Coords.decode_eq_ok_iff,
      G2Coords.decode_eq_ok_iff] at h
    obtain ⟨_, rfl, _, rfl, _, rfl, h⟩ := h
    cases h
    rfl
  · rintro rfl
    exact k.ofCoords_coords

/-- A Groth16 key is what its points make once all have been read. -/
theorem Groth16Key.ofJson_eq (v : Json) : ofJson v = RawGroth16Key.ofJson v >>= fun t =>
    ofCoords t.alpha t.beta t.gamma t.delta t.ic := by
  simp only [ofJson, RawGroth16Key.ofJson, bind_assoc, pure_bind]

theorem KzgKey.ofJson_eq (v : Json) :
    ofJson v = RawKzgKey.ofJson v >>= fun t => ofCoords t.g1 t.g2 t.secret := by
  simp only [ofJson, RawKzgKey.ofJson, bind_assoc, pure_bind]

namespace DeciderKey

variable {v : Json} {k : DeciderKey}

theorem make_eq_ok_iff {hash stateLength : ℤ} {groth16 : Groth16Key} {kzg : KzgKey} :
    make hash stateLength groth16 kzg = .ok k ↔
      k.hash.val = hash ∧ k.stateLength = stateLength ∧ k.groth16 = groth16 ∧ k.kzg = kzg := by
  constructor
  · intro h
    unfold make at h
    split_ifs at h with hz hhash hcount
    cases h
    obtain ⟨hlow, hhigh⟩ := inScalarField_iff.mp hhash
    exact ⟨Residue.val_ofInt_of_mem hlow hhigh, Int.toNat_of_nonneg (by omega), rfl, rfl⟩
  · rintro ⟨rfl, rfl, rfl, rfl⟩
    exact k.make_parts

theorem ofJson_eq_ok_iff : ofJson v = .ok k ↔ RawKey.ofJson v = .ok k.raw := by
  simp only [ofJson, RawKey.ofJson, Groth16Key.ofJson_eq, KzgKey.ofJson_eq, bind_eq_ok_iff,
    Groth16Key.ofCoords_eq_ok_iff, KzgKey.ofCoords_eq_ok_iff, make_eq_ok_iff]
  constructor
  · rintro ⟨doc₁, h₁, _, hhash, doc₂, h₂, _, hlength, doc₃, h₃, _, ⟨_, hgroth16, rfl⟩,
      doc₄, h₄, _, ⟨_, hkzg, rfl⟩, rfl, rfl, rfl, rfl⟩
    exact ⟨doc₁, h₁, _, hhash, doc₂, h₂, _, hlength, doc₃, h₃, _, hgroth16, doc₄, h₄, _, hkzg, rfl⟩
  · rintro ⟨doc₁, h₁, _, hhash, doc₂, h₂, _, hlength, doc₃, h₃, _, hgroth16, doc₄, h₄, _, hkzg, hk⟩
    cases hk
    exact ⟨doc₁, h₁, _, hhash, doc₂, h₂, _, hlength, doc₃, h₃, _, ⟨_, hgroth16, rfl⟩, doc₄, h₄, _,
      ⟨_, hkzg, rfl⟩, rfl, rfl, rfl, rfl⟩

/-- A document holds a key if and only if what it spells is sound. -/
theorem ofJson_succeeds_iff :
    (∃ k, ofJson v = .ok k) ↔ ∃ t, RawKey.ofJson v = .ok t ∧ t.Sound := by
  constructor
  · rintro ⟨k, hk⟩
    exact ⟨k.raw, ofJson_eq_ok_iff.mp hk, k.sound_raw⟩
  · rintro ⟨t, ht, hsound⟩
    obtain ⟨k, rfl⟩ := (RawKey.sound_iff t).mp hsound
    exact ⟨k, ofJson_eq_ok_iff.mpr ht⟩

/-- For states of the key's length the inputs are as many as the key takes. -/
theorem assemble_statement {p : DeciderProof} (hz : p.stateLength = k.stateLength)
    (W E : Point Fq) : ∃ xs,
      PublicInputs.assemble k.stateLength ((Decider.ofKey k).statement p W E) = .ok xs ∧
        xs.length = k.groth16.inputCount := by
  have hsized : ((Decider.ofKey k).statement p W E).Sized k.stateLength :=
    ⟨congrArg Nat.cast hz, congrArg Nat.cast (p.same_length.symm.trans hz), rfl⟩
  refine ⟨_, PublicInputs.assemble_eq_vector hsized, ?_⟩
  have hlen := PublicInputs.length_vector hsized
  have hcount := k.inputs_agree
  omega

/-- A key that was read is sound, and a decider is made from it. None of the checks behind
that of the state length fails for the sake of the key, in any form of a proof; a point that
is refused is one of the proof, and where those are valid none is. -/
theorem loaded_sound (e : Pairing) (h : ofJson v = .ok k) :
    RawKey.ofJson v = .ok k.raw ∧ k.raw.Sound ∧
    Decider.withVerifiers k k.kzg k.groth16 = .ok (.ofKey k) ∧
    (k.groth16.inputCount : ℤ) = (PublicInputs.layout k.stateLength).count ∧
    ∀ p : DeciderProof,
      (p.stateLength ≠ k.stateLength → (Decider.ofKey k).verifyCoords e p =
        .error (.value (.proofStateLength p.stateLength k.stateLength))) ∧
      (p.stateLength = k.stateLength →
        (∀ W E : Point Fq, ∃ xs,
          PublicInputs.assemble k.stateLength ((Decider.ofKey k).statement p W E) = .ok xs ∧
            xs.length = k.groth16.inputCount) ∧
        ∀ r ∈ (Decider.ofKey k).verifyCoords e p :: Decider.entryRuns e k p,
          Verdict p r ∧ ((∀ part : DeciderProof.PointPart, (part.get p).Valid) →
            p.groth16.b.Valid → ∀ c, r ≠ .error (.point c))) := by
  refine ⟨ofJson_eq_ok_iff.mp h, k.sound_raw, dif_pos k.inputs_agree, ?_, ?_⟩
  · rw [PublicInputs.layout_count]
    exact k.inputs_agree
  · intro p
    rw [Decider.verifyCoords_eq]
    refine ⟨Decider.verify_of_stateLength_ne e k p, ?_⟩
    intro hz
    refine ⟨assemble_statement hz, ?_⟩
    intro r hr
    have hverdict : Verdict p r := by
      rcases List.mem_cons.mp hr with rfl | hr
      · exact Decider.verify_verdict e hz
      · exact Decider.entryRuns_verdict e hz r hr
    exact ⟨hverdict, hverdict.ne_point⟩

/-- The key of a document that spells it in another way than the writer. -/
theorem loaded_sound_sampleDocument : sampleKey.raw.Sound ∧
    ∀ r ∈ (Decider.ofKey sampleKey).verifyCoords optimalAte DeciderProof.countingProof ::
      Decider.entryRuns optimalAte sampleKey DeciderProof.countingProof,
        Verdict DeciderProof.countingProof r := by
  obtain ⟨-, hsound, -, -, huse⟩ := loaded_sound optimalAte ofJson_sampleDocument
  exact ⟨hsound, fun r hr => (((huse DeciderProof.countingProof).2 rfl).2 r hr).1⟩

end DeciderKey
end FoldingVerifier
