import FoldingVerifier.DeciderKey
import FoldingVerifier.Proofs.Decider.FirstFailure
import FoldingVerifier.Proofs.Documents
import FoldingVerifier.Proofs.Groth16
import FoldingVerifier.Proofs.Kzg

/-! Keys written as documents and read back. The points of a key are checked when it is
made, so none of the checks on reading can refuse what was written. A document that is
read as a key may spell it in many ways, of which the written one is the normal form. -/
namespace FoldingVerifier

theorem baseOrder_lt_bound : (baseOrder : ℤ) < Word.bound := by decide

theorem G1.ofJson_coords (P : G1) : G1Coords.ofJson P.coords.toJson = pure P.coords := by
  obtain ⟨⟨hx, hy⟩, -⟩ := G1Coords.valid_coords P
  have hcheck : Word.check P.coords.toList = .ok () := by
    refine Word.check_eq_ok ?_
    simp only [G1Coords.toList, List.forall_mem_cons]
    have hbound := baseOrder_lt_bound
    exact ⟨⟨hx.1, hx.2.trans hbound⟩, ⟨hy.1, hy.2.trans hbound⟩, by simp⟩
  rw [G1Coords.ofJson_toJson, hcheck]
  rfl

theorem G2.ofJson_coords (Q : G2) : G2Coords.ofJson Q.coords.toJson = pure Q.coords := by
  obtain ⟨⟨hx0, hx1, hy0, hy1⟩, -⟩ := G2Coords.valid_coords Q
  have hcheck : Word.check Q.coords.toList = .ok () := by
    refine Word.check_eq_ok ?_
    simp only [G2Coords.toList, List.forall_mem_cons]
    have hbound := baseOrder_lt_bound
    exact ⟨⟨hx0.1, hx0.2.trans hbound⟩, ⟨hx1.1, hx1.2.trans hbound⟩,
      ⟨hy0.1, hy0.2.trans hbound⟩, ⟨hy1.1, hy1.2.trans hbound⟩, by simp⟩
  rw [G2Coords.ofJson_toJson, hcheck]
  rfl

theorem mapM_ofJson_coords (Ps : List G1) :
    (Ps.map fun P => P.coords.toJson).mapM G1Coords.ofJson =
      (pure (Ps.map G1.coords) : Except Fault _) := by
  induction Ps with
  | nil => rfl
  | cons P Ps ih =>
    rw [List.map_cons, List.mapM_cons, G1.ofJson_coords, pure_bind, ih]
    rfl

namespace Groth16Key

theorem ofJson_toJson (k : Groth16Key) : ofJson k.toJson = .ok k := by
  have hitems (vs : List Json) : (Json.arr vs).items = pure vs := rfl
  rw [ofJson, toJson]
  simp only [Json.member_record_cons_self, Json.member_record_cons_of_ne, ne_eq, String.reduceEq,
    not_false_eq_true, pure_bind, G1.ofJson_coords, G2.ofJson_coords, hitems, mapM_ofJson_coords,
    ofCoords_coords]

/-- The number of inputs is the only integer that is not written as a string. -/
theorem legible_toJson (k : Groth16Key) (h : Text.FewDigits k.inputCount) (room : ℕ) :
    k.toJson.Legible (room + 3) := by
  have hdistinct : ["protocol", "curve", "nPublic", "vk_alpha_1", "vk_beta_2", "vk_gamma_2",
    "vk_delta_2", "IC"].Nodup := by decide
  have hpoints : (Json.arr ((k.constant :: k.ic).map fun P => P.coords.toJson)).Legible
      (room + 2) := Json.legible_map (fun P : G1 => P.coords.legible_toJson room) _
  refine Json.legible_record ?_ hdistinct
  simp only [List.forall_mem_cons]
  exact ⟨.str (Symbols.joined_ofString _), .str (Symbols.joined_ofString _), .int h,
    k.alpha.coords.legible_toJson _, k.beta.coords.legible_toJson _,
    k.gamma.coords.legible_toJson _, k.delta.coords.legible_toJson _, hpoints, by simp⟩

end Groth16Key

namespace KzgKey

theorem ofJson_toJson (k : KzgKey) : ofJson k.toJson = .ok k := by
  rw [ofJson, toJson]
  simp only [Json.member_record_cons_self, Json.member_record_cons_of_ne, ne_eq, String.reduceEq,
    not_false_eq_true, pure_bind, G1.ofJson_coords, G2.ofJson_coords, ofCoords_coords]

theorem legible_toJson (k : KzgKey) (room : ℕ) : k.toJson.Legible (room + 3) := by
  have hdistinct : ["g1", "g2", "vk"].Nodup := by decide
  refine Json.legible_record ?_ hdistinct
  simp only [List.forall_mem_cons]
  exact ⟨k.g1.coords.legible_toJson _, k.g2.coords.legible_toJson _,
    k.secret.coords.legible_toJson _, by simp⟩

end KzgKey

namespace DeciderKey

variable {k : DeciderKey} {v w : Json}

/-- A key is made again from its own parts. -/
theorem make_parts (k : DeciderKey) :
    make k.hash.val k.stateLength k.groth16 k.kzg = .ok k := by
  have hz : ¬((k.stateLength : ℤ) < 1) := by
    have := k.stateLength_pos
    omega
  have hrange : inScalarField k.hash.val = true := (Decider.ofKey k).hash_inScalarField
  have hhash : Residue.ofInt scalarOrder k.hash.val = k.hash := Residue.ofInt_val _
  rw [make, dif_neg hz, if_pos hrange, dif_pos k.inputs_agree]
  simp only [hhash, Int.toNat_natCast]

theorem ofJson_hash (k : DeciderKey) :
    Word.ofJson (Word.toJson k.hash.val) = pure (k.hash.val : ℤ) := by
  have hbound : (scalarOrder : ℤ) < Word.bound := by decide
  obtain ⟨hlow, hhigh⟩ := inScalarField_iff.mp (Decider.ofKey k).hash_inScalarField
  have hcheck : Word.check [(k.hash.val : ℤ)] = .ok () := by
    refine Word.check_eq_ok ?_
    simp only [List.forall_mem_singleton]
    exact ⟨hlow, hhigh.trans hbound⟩
  rw [Word.ofJson_toJson, hcheck]
  rfl

theorem ofJson_toJson (k : DeciderKey) : ofJson k.toJson = .ok k := by
  have hlength : k.toJson.memberD "state_len" (.int 1) = pure (.int k.stateLength) := by
    refine Json.memberD_of_member ?_
    rw [toJson, Json.member_record_cons_of_ne (by decide), Json.member_record_cons_self]
    rfl
  have hgroth16 : Groth16Key.ofJson k.groth16.toJson = pure k.groth16 := k.groth16.ofJson_toJson
  have hkzg : KzgKey.ofJson k.kzg.toJson = pure k.kzg := k.kzg.ofJson_toJson
  have hinteger (n : ℤ) : (Json.int n).integer = pure n := rfl
  rw [ofJson, hlength, toJson]
  simp only [Json.member_record_cons_self, Json.member_record_cons_of_ne, ne_eq, String.reduceEq,
    not_false_eq_true, pure_bind, ofJson_hash, hgroth16, hkzg, hinteger, make_parts]

/-- The state length stands beside the Groth16 key, and is less than its number of inputs. -/
theorem legible_toJson (k : DeciderKey) (h : Text.FewDigits k.inputCount) (room : ℕ) :
    k.toJson.Legible (room + 4) := by
  have hdistinct : ["pp_hash", "state_len", "groth16", "kzg"].Nodup := by decide
  have hlength : Text.FewDigits k.stateLength := by
    have hcount := k.inputs_agree
    rw [PublicInputs.count] at hcount
    rw [Text.fewDigits_iff] at h ⊢
    refine lt_of_le_of_lt ?_ h
    change k.stateLength ≤ k.groth16.inputCount
    omega
  refine Json.legible_record ?_ hdistinct
  simp only [List.forall_mem_cons]
  exact ⟨Word.legible_toJson _ _, .int hlength, k.groth16.legible_toJson h _,
    k.kzg.legible_toJson _, by simp⟩

theorem ofText_of_parse {maxDepth : ℕ} (h : Json.parse k.toText maxDepth = .ok k.toJson) :
    ofText k.toText maxDepth = .ok k := by
  rw [ofText, h]
  exact k.ofJson_toJson

/-- A reader that takes four nested containers takes the text of the key. -/
theorem parse_toText (h : k.inputCount < 10 ^ Text.maxDigits) {maxDepth : ℕ}
    (hdepth : 4 ≤ maxDepth) : Json.parse k.toText maxDepth = .ok k.toJson := by
  obtain ⟨room, rfl⟩ := Nat.exists_eq_add_of_le' hdepth
  exact Json.parse_text (k.legible_toJson (Text.fewDigits_iff.mpr h) room)

/-- How the key that a document is read as is written. -/
def normalForm (v : Json) : Except Fault Json := toJson <$> ofJson v

theorem normalForm_eq_ok_iff : normalForm v = .ok w ↔ ∃ k, ofJson v = .ok k ∧ k.toJson = w := by
  rw [normalForm]
  cases ofJson v <;> simp [Functor.map, Except.map]

theorem ofJson_of_normalForm (h : normalForm v = .ok w) : ofJson w = ofJson v := by
  obtain ⟨k, hk, rfl⟩ := normalForm_eq_ok_iff.mp h
  rw [ofJson_toJson, hk]

/-- Every key is what is read from what it is written as; the number of its inputs is written
as an integer, and has to be one with few enough digits to be read. Whatever document a key
was read from, its normal form holds the same key, and is written as that key is; normal
forms are equal for equal keys only. -/
theorem documents_normalForm :
    (∀ k : DeciderKey, ofJson k.toJson = .ok k ∧
      ∀ maxDepth, (Json.parse k.toText maxDepth = .ok k.toJson → ofText k.toText maxDepth = .ok k) ∧
        (k.inputCount < 10 ^ Text.maxDigits → 4 ≤ maxDepth →
          Json.parse k.toText maxDepth = .ok k.toJson)) ∧
    (∀ v w, normalForm v = .ok w → ofJson w = ofJson v ∧ normalForm w = .ok w ∧
      ∃ k, ofJson w = .ok k ∧ k.toText = w.text) ∧
    ∀ v v' w w', normalForm v = .ok w → normalForm v' = .ok w' →
      (w = w' ↔ ofJson v = ofJson v') := by
  refine ⟨?_, ?_, ?_⟩
  · intro k
    refine ⟨k.ofJson_toJson, ?_⟩
    intro maxDepth
    exact ⟨ofText_of_parse, fun hfew hdepth => k.parse_toText hfew hdepth⟩
  · intro v w h
    have hload := ofJson_of_normalForm h
    refine ⟨hload, ?_, ?_⟩
    · rw [normalForm, hload]
      exact h
    · obtain ⟨k, hk, rfl⟩ := normalForm_eq_ok_iff.mp h
      exact ⟨k, k.ofJson_toJson, rfl⟩
  · intro v v' w w' h h'
    constructor
    · rintro rfl
      rw [← ofJson_of_normalForm h, ofJson_of_normalForm h']
    · intro hload
      have hforms : normalForm v = normalForm v' := congrArg (toJson <$> ·) hload
      rw [h, h'] at hforms
      exact Except.ok.inj hforms

/-- Another spelling of the sample key: the state length is left to be one, the constant is an
integer, a generator has three coordinates, and there is a member that no reader asks for. -/
def sampleDocument : Json :=
  .record [("comment", .null), ("pp_hash", .int 2), ("groth16", sampleKey.groth16.toJson),
    ("kzg", .record [
      ("g1", .arr [Word.toJson G1.generator.coords.x, Word.toJson G1.generator.coords.y, .int 1]),
      ("g2", G2.generator.coords.toJson), ("vk", G2.generator.coords.toJson)])]

theorem inputCount_sampleKey_lt : sampleKey.inputCount < 10 ^ Text.maxDigits := by
  have hcount : sampleKey.inputCount < 10 ^ 2 := by decide
  exact hcount.trans_le (Nat.pow_le_pow_right (by decide) (by decide))

theorem ofJson_sampleDocument : ofJson sampleDocument = .ok sampleKey := by
  have hlength : sampleDocument.memberD "state_len" (.int 1) = pure (.int 1) := by
    rw [sampleDocument, Json.record, Json.memberD]
    rfl
  have hone : (Json.int 1).integer = pure (sampleKey.stateLength : ℤ) := rfl
  have htwo : Word.ofJson (.int 2) = pure (sampleKey.hash.val : ℤ) := by decide
  have hg1 := (G1Coords.ofJson_projective G1.generator.coords).trans (G1.ofJson_coords _)
  have hg2 : G2Coords.ofJson G2.generator.coords.toJson = pure G2.generator.coords :=
    G2.ofJson_coords _
  have hgroth16 : Groth16Key.ofJson sampleKey.groth16.toJson = pure sampleKey.groth16 :=
    Groth16Key.ofJson_toJson _
  have hkzg : KzgKey.ofCoords G1.generator.coords G2.generator.coords G2.generator.coords =
      pure sampleKey.kzg := sampleKey.kzg.ofCoords_coords
  rw [ofJson, hlength, sampleDocument]
  simp only [KzgKey.ofJson, Json.member_record_cons_self, Json.member_record_cons_of_ne, ne_eq,
    String.reduceEq, not_false_eq_true, pure_bind, hone, htwo, hgroth16, hg1, hg2, hkzg,
    make_parts]

theorem documents_normalForm_sampleDocument :
    ofText sampleKey.toText = .ok sampleKey ∧ normalForm sampleDocument = .ok sampleKey.toJson ∧
      ofJson sampleKey.toJson = ofJson sampleDocument ∧
      normalForm sampleKey.toJson = .ok sampleKey.toJson := by
  obtain ⟨hkeys, hforms, -⟩ := documents_normalForm
  obtain ⟨-, hdocument⟩ := hkeys sampleKey
  obtain ⟨hfile, hparse⟩ := hdocument Json.usualDepth
  have hform : normalForm sampleDocument = .ok sampleKey.toJson :=
    normalForm_eq_ok_iff.mpr ⟨sampleKey, ofJson_sampleDocument, rfl⟩
  obtain ⟨hload, hagain, -⟩ := hforms _ _ hform
  exact ⟨hfile (hparse inputCount_sampleKey_lt (by decide)), hform, hload, hagain⟩

end DeciderKey
end FoldingVerifier
