import FoldingVerifier.Proofs.LoadedKeys
import FoldingVerifier.Proofs.Respelling

/-! Spellings in key documents. If only the spellings of integers and points differ, the reader
returns the same key or none in either case, and in the places of words it accepts nothing that
is no spelling. The length of the state is an exception: it is no word, but whatever counts as
an integer. -/
namespace FoldingVerifier

open Relation (ReflGen)

namespace DeciderKey

/-- The length of the state is spelled in decimal only. -/
def LengthSpells (v : Json) (n : ℤ) : Prop := Json.Spells Text.IntegerText v n

def LengthRespelled (v w : Json) : Prop := ∃ n, LengthSpells v n ∧ LengthSpells w n

end DeciderKey

/-- How the members of a Groth16 key are respelled; all others stay as they are. -/
def Groth16Key.respelledMember : String → Json → Json → Prop
  | "vk_alpha_1" => G1Respelled
  | "vk_beta_2" => G2Respelled
  | "vk_gamma_2" => G2Respelled
  | "vk_delta_2" => G2Respelled
  | "IC" => Json.ItemsReplaced G1Respelled
  | _ => Eq

def KzgKey.respelledMember : String → Json → Json → Prop
  | "g1" => G1Respelled
  | "g2" => G2Respelled
  | "vk" => G2Respelled
  | _ => Eq

def DeciderKey.respelledMember : String → Json → Json → Prop
  | "pp_hash" => Word.Respelled
  | "state_len" => LengthRespelled
  | "groth16" => Json.MembersReplaced Groth16Key.respelledMember
  | "kzg" => Json.MembersReplaced KzgKey.respelledMember
  | _ => Eq

/-- Integers of a key document are spelled in another way, and points by three coordinates. -/
def DeciderKey.Respelled (doc doc' : Json) : Prop := Json.MembersReplaced respelledMember doc doc'

theorem Groth16Key.alike_ofJson (v w : Json) (h : Json.MembersReplaced respelledMember v w) :
    Alike Eq (ofJson v) (ofJson w) := by
  have hmember (key : String) := Json.alike_member (.single h) key
  have hG1 {a b : Json} (h : ReflGen G1Respelled a b) := Alike.of_reflGen G1Coords.alike_ofJson h
  have hG2 {a b : Json} (h : ReflGen G2Respelled a b) := Alike.of_reflGen G2Coords.alike_ofJson h
  have hIC (a b : Json) (h : Json.ItemsReplaced G1Respelled a b) :
      Alike Eq (a.items >>= (·.mapM G1Coords.ofJson)) (b.items >>= (·.mapM G1Coords.ofJson)) := by
    obtain ⟨vs, ws, rfl, rfl, h⟩ := h
    exact .mapM_replaced G1Coords.alike_ofJson h
  refine (hmember "vk_alpha_1").bind fun a b h => (hG1 h).bind_eq fun alpha => ?_
  refine (hmember "vk_beta_2").bind fun a b h => (hG2 h).bind_eq fun beta => ?_
  refine (hmember "vk_gamma_2").bind fun a b h => (hG2 h).bind_eq fun gamma => ?_
  refine (hmember "vk_delta_2").bind fun a b h => (hG2 h).bind_eq fun delta => ?_
  refine (hmember "IC").bind fun a b h => ?_
  simp only [← bind_assoc]
  exact (Alike.of_reflGen hIC h).bind_eq fun ic => .refl _

theorem KzgKey.alike_ofJson (v w : Json) (h : Json.MembersReplaced respelledMember v w) :
    Alike Eq (ofJson v) (ofJson w) := by
  have hmember (key : String) := Json.alike_member (.single h) key
  have hG2 {a b : Json} (h : ReflGen G2Respelled a b) := Alike.of_reflGen G2Coords.alike_ofJson h
  refine (hmember "g1").bind fun a b h => ?_
  refine (Alike.of_reflGen G1Coords.alike_ofJson h).bind_eq fun g1 => ?_
  refine (hmember "g2").bind fun a b h => (hG2 h).bind_eq fun g2 => ?_
  exact (hmember "vk").bind fun a b h => (hG2 h).bind_eq fun secret => .refl _

namespace DeciderKey

/-- Besides the spellings, truth values and reals count as integers. -/
theorem integer_eq_ok_iff {v : Json} {n : ℤ} : v.integer = .ok n ↔
    LengthSpells v n ∨ (∃ b : Bool, v = .bool b ∧ n = if b then 1 else 0) ∨
      ∃ x, v = .real x ∧ x.truncate = .ok n := by
  have hother (hint : ∀ m, v ≠ .int m) (hstr : ∀ s, v ≠ .str s) : ¬LengthSpells v n := by
    rintro (_ | _)
    · exact hint _ rfl
    · exact hstr _ rfl
  cases v with
  | int m => simp [Json.integer, LengthSpells, Json.spells_int_iff]
  | str s =>
    rw [LengthSpells, Json.spells_str_iff Text.integer?_eq_some_iff, Json.integer]
    cases s.toString?.bind Text.integer? <;> simp
  | bool b => simp [Json.integer, hother, eq_comm]
  | real x => simp [Json.integer, hother]
  | null | arr _ | obj _ => simp [Json.integer, hother]

theorem alike_integer (v w : Json) (h : LengthRespelled v w) : Alike Eq v.integer w.integer := by
  obtain ⟨n, hv, hw⟩ := h
  rw [integer_eq_ok_iff.mpr (.inl hv), integer_eq_ok_iff.mpr (.inl hw)]
  exact .refl _

theorem alike_ofJson (doc doc' : Json) (h : Respelled doc doc') :
    Alike Eq (ofJson doc) (ofJson doc') := by
  have hmember (key : String) := Json.alike_member (.single h) key
  have hlength (key : String) (absent : Json) := Json.alike_memberD (.single h) key absent
  refine (hmember "pp_hash").bind fun a b h => ?_
  refine (Alike.of_reflGen Word.alike_ofJson h).bind_eq fun hash => ?_
  refine (hlength "state_len" (.int 1)).bind fun a b h => ?_
  refine (Alike.of_reflGen alike_integer h).bind_eq fun stateLength => ?_
  refine (hmember "groth16").bind fun a b h => ?_
  refine (Alike.of_reflGen Groth16Key.alike_ofJson h).bind_eq fun groth16 => ?_
  refine (hmember "kzg").bind fun a b h => ?_
  exact (Alike.of_reflGen KzgKey.alike_ofJson h).bind_eq fun kzg => .refl _

end DeciderKey

/-- The entries of what is read as a point are words. -/
theorem G1Coords.denotes_of_ofJson {vs : List Json} {P : G1Coords} (h : ofJson (.arr vs) = .ok P) :
    ∀ v ∈ vs, ∃ n, Word.Denotes v n := by
  cases ofJson_arr_eq_ok_iff.mp h with
  | affine hx hy =>
    simp only [List.forall_mem_cons]
    exact ⟨⟨_, hx⟩, ⟨_, hy⟩, by simp⟩
  | projective hx hy hz =>
    simp only [List.forall_mem_cons]
    exact ⟨⟨_, hx⟩, ⟨_, hy⟩, ⟨_, hz⟩, by simp⟩

theorem PairForm.denotes {ws : List Json} {m n : ℤ} (h : PairForm .lenient (.arr ws) m n) :
    ∀ w ∈ ws, ∃ n, Word.Denotes w n := by
  obtain ⟨a, b, hab, ha, hb⟩ := h
  obtain rfl : ws = [a, b] := by simpa [Json.Listing.lenient] using hab
  simp only [List.forall_mem_cons]
  exact ⟨⟨_, ha⟩, ⟨_, hb⟩, by simp⟩

theorem G2Coords.denotes_of_ofJson {vs ws : List Json} {Q : G2Coords}
    (h : ofJson (.arr vs) = .ok Q) (hws : .arr ws ∈ vs) : ∀ w ∈ ws, ∃ n, Word.Denotes w n := by
  -- every item is one of the pairs
  have hpair : ∀ v ∈ vs, ∃ m n, PairForm .lenient v m n := by
    cases ofJson_eq_ok_iff.mp h with
    | @affine a b _ _ _ _ hab hx hy =>
      obtain rfl : vs = [a, b] := by simpa [Json.Listing.lenient] using hab
      simp only [List.forall_mem_cons]
      exact ⟨⟨_, _, hx⟩, ⟨_, _, hy⟩, by simp⟩
    | @projective a b c _ _ _ _ habc hx hy hz =>
      obtain rfl : vs = [a, b, c] := by simpa [Json.Listing.lenient] using habc
      simp only [List.forall_mem_cons]
      exact ⟨⟨_, _, hx⟩, ⟨_, _, hy⟩, ⟨_, _, hz⟩, by simp⟩
  obtain ⟨m, n, h⟩ := hpair _ hws
  exact h.denotes

namespace DeciderKey

/-- The values in a key document that are to be points of the first group. -/
inductive G1Place (doc : Json) : Json → Prop where
  | alpha {u v : Json} (hu : doc.Has "groth16" u) (h : u.Has "vk_alpha_1" v) : G1Place doc v
  | input {u v : Json} {vs : List Json} (hu : doc.Has "groth16" u) (hvs : u.Has "IC" (.arr vs))
      (h : v ∈ vs) : G1Place doc v
  | generator {u v : Json} (hu : doc.Has "kzg" u) (h : u.Has "g1" v) : G1Place doc v

inductive G2Place (doc : Json) : Json → Prop where
  | groth16 {key : String} {u v : Json} (hkey : key ∈ ["vk_beta_2", "vk_gamma_2", "vk_delta_2"])
      (hu : doc.Has "groth16" u) (h : u.Has key v) : G2Place doc v
  | kzg {key : String} {u v : Json} (hkey : key ∈ ["g2", "vk"]) (hu : doc.Has "kzg" u)
      (h : u.Has key v) : G2Place doc v

/-- The values that are to be words: the constant, and all entries of points. -/
inductive WordPlace (doc : Json) : Json → Prop where
  | hash {v : Json} (h : doc.Has "pp_hash" v) : WordPlace doc v
  | g1 {vs : List Json} {v : Json} (hP : G1Place doc (.arr vs)) (h : v ∈ vs) : WordPlace doc v
  | g2 {vs ws : List Json} {v : Json} (hQ : G2Place doc (.arr vs)) (hws : .arr ws ∈ vs)
      (h : v ∈ ws) : WordPlace doc v

end DeciderKey

/-- The points of a key that was read have been read. -/
structure Groth16Key.PointsRead (u : Json) : Prop where
  alpha : u.HasForm "vk_alpha_1" fun v => ∃ P, G1Coords.ofJson v = .ok P
  second : ∀ key ∈ ["vk_beta_2", "vk_gamma_2", "vk_delta_2"],
    u.HasForm key fun v => ∃ Q, G2Coords.ofJson v = .ok Q
  ic : u.HasForm "IC" fun v => ∃ vs, v.items = .ok vs ∧ ∀ w ∈ vs, ∃ P, G1Coords.ofJson w = .ok P

structure KzgKey.PointsRead (u : Json) : Prop where
  first : u.HasForm "g1" fun v => ∃ P, G1Coords.ofJson v = .ok P
  second : ∀ key ∈ ["g2", "vk"], u.HasForm key fun v => ∃ Q, G2Coords.ofJson v = .ok Q

theorem Groth16Key.pointsRead_of_ofJson {u : Json} {k : Groth16Key} (h : ofJson u = .ok k) :
    PointsRead u := by
  simp only [ofJson, bind_eq_ok_iff, Json.member_eq_ok_iff, mapM_eq_ok_iff] at h
  obtain ⟨a, ha, alpha, halpha, b, hb, beta, hbeta, c, hc, gamma, hgamma, d, hd, delta, hdelta,
    i, hi, vs, hvs, ic, hic, -⟩ := h
  refine ⟨⟨a, ha, alpha, halpha⟩, ?_, ⟨i, hi, vs, hvs, ?_⟩⟩
  · simp only [List.forall_mem_cons]
    exact ⟨⟨b, hb, beta, hbeta⟩, ⟨c, hc, gamma, hgamma⟩, ⟨d, hd, delta, hdelta⟩, by simp⟩
  · have hread : List.Forall₂ (fun w P => (∃ P, G1Coords.ofJson w = .ok P) ∧
        G1Coords.ofJson w = .ok P) vs ic := hic.imp fun w P hP => ⟨⟨P, hP⟩, hP⟩
    exact ((List.forall₂_and_left vs ic).mp hread).1

theorem KzgKey.pointsRead_of_ofJson {u : Json} {k : KzgKey} (h : ofJson u = .ok k) :
    PointsRead u := by
  simp only [ofJson, bind_eq_ok_iff, Json.member_eq_ok_iff] at h
  obtain ⟨a, ha, g1, hg1, b, hb, g2, hg2, c, hc, secret, hsecret, -⟩ := h
  refine ⟨⟨a, ha, g1, hg1⟩, ?_⟩
  simp only [List.forall_mem_cons]
  exact ⟨⟨b, hb, g2, hg2⟩, ⟨c, hc, secret, hsecret⟩, by simp⟩

namespace DeciderKey

variable {doc v : Json} {k : DeciderKey}

/-- What a key was read from, member by member. -/
structure MembersRead (doc : Json) (k : DeciderKey) : Prop where
  hash : doc.HasForm "pp_hash" (Word.Denotes · k.hash.val)
  stateLength : ∃ v, doc.memberD "state_len" (.int 1) = .ok v ∧ v.integer = .ok k.stateLength
  groth16 : doc.HasForm "groth16" Groth16Key.PointsRead
  kzg : doc.HasForm "kzg" KzgKey.PointsRead

theorem membersRead_of_ofJson (h : ofJson doc = .ok k) : MembersRead doc k := by
  simp only [ofJson, bind_eq_ok_iff, Json.member_eq_ok_iff] at h
  obtain ⟨a, ha, hash, hhash, b, hb, stateLength, hlength, c, hc, groth16, hgroth16, d, hd, kzg,
    hkzg, h⟩ := h
  obtain ⟨rfl, rfl, rfl, rfl⟩ := make_eq_ok_iff.mp h
  exact ⟨⟨a, ha, Word.ofJson_eq_ok_iff.mp hhash⟩, ⟨b, hb, hlength⟩,
    ⟨c, hc, Groth16Key.pointsRead_of_ofJson hgroth16⟩, d, hd, KzgKey.pointsRead_of_ofJson hkzg⟩

theorem MembersRead.g1 (h : MembersRead doc k) (hP : G1Place doc v) :
    ∃ P, G1Coords.ofJson v = .ok P := by
  cases hP with
  | alpha hu hv => exact (h.groth16.of_has hu).alpha.of_has hv
  | input hu hvs hv =>
    obtain ⟨ws, hws, hread⟩ := (h.groth16.of_has hu).ic.of_has hvs
    cases hws
    exact hread v hv
  | generator hu hv => exact (h.kzg.of_has hu).first.of_has hv

theorem MembersRead.g2 (h : MembersRead doc k) (hQ : G2Place doc v) :
    ∃ Q, G2Coords.ofJson v = .ok Q := by
  cases hQ with
  | groth16 hkey hu hv => exact ((h.groth16.of_has hu).second _ hkey).of_has hv
  | kzg hkey hu hv => exact ((h.kzg.of_has hu).second _ hkey).of_has hv

/-- Whatever stands in a place of a word denotes one. -/
theorem MembersRead.word (h : MembersRead doc k) (hv : WordPlace doc v) :
    ∃ n, Word.Denotes v n := by
  cases hv with
  | hash hv => exact ⟨_, h.hash.of_has hv⟩
  | g1 hP hmem =>
    obtain ⟨P, hread⟩ := h.g1 hP
    exact G1Coords.denotes_of_ofJson hread v hmem
  | g2 hQ hws hmem =>
    obtain ⟨Q, hread⟩ := h.g2 hQ
    exact G2Coords.denotes_of_ofJson hread hws v hmem

theorem MembersRead.length (h : MembersRead doc k) (hv : doc.Has "state_len" v) :
    v.integer = .ok k.stateLength := by
  obtain ⟨w, hw, hinteger⟩ := h.stateLength
  rw [Json.memberD_of_member (Json.member_eq_ok_iff.mpr hv)] at hw
  cases hw
  exact hinteger

/-- Documents that spell the same key hold it together or not at all. In the places of words
nothing but spellings is read. In that of the length truth values and reals are read too, but
no hexadecimal spelling is. -/
theorem spellings_immaterial (doc : Json) :
    (∀ doc', Respelled doc doc' → ∀ k, ofJson doc = .ok k ↔ ofJson doc' = .ok k) ∧
    ∀ k, ofJson doc = .ok k →
      (∀ v, WordPlace doc v → ∃ n, Word.Spells v n) ∧
      ∀ v, doc.Has "state_len" v → LengthSpells v k.stateLength ∨
        (∃ b : Bool, v = .bool b ∧ (k.stateLength : ℤ) = if b then 1 else 0) ∨
          ∃ x, v = .real x ∧ x.truncate = .ok k.stateLength := by
  refine ⟨fun doc' h => (alike_ofJson doc doc' h).ok_iff, ?_⟩
  intro k h
  have hread := membersRead_of_ofJson h
  constructor
  · intro v hv
    obtain ⟨n, hn⟩ := hread.word hv
    exact ⟨n, hn.1⟩
  · intro v hv
    exact integer_eq_ok_iff.mp (hread.length hv)

/-- Two of the three points have a third coordinate. -/
def projectiveKzg : Json :=
  .record [
    ("g1", .arr [Word.toJson G1.generator.coords.x, Word.toJson G1.generator.coords.y, .int 1]),
    ("g2", .arr [.arr [Word.toJson G2.generator.coords.x0, Word.toJson G2.generator.coords.x1],
      .arr [Word.toJson G2.generator.coords.y0, Word.toJson G2.generator.coords.y1],
      .arr [.int 1, .int 0]]),
    ("vk", G2.generator.coords.toJson)]

/-- The sample key with other spellings of its constant, its length and two of its points. -/
def respelledDocument : Json :=
  .record [("pp_hash", .ofString "0x02"), ("state_len", .ofString "+1"),
    ("groth16", sampleKey.groth16.toJson), ("kzg", projectiveKzg)]

theorem respelled_respelledDocument : Respelled sampleKey.toJson respelledDocument := by
  have hhash : Word.Respelled (Word.toJson sampleKey.hash.val) (.ofString "0x02") := by
    have hread : Word.ofJson (.ofString "0x02") = .ok (sampleKey.hash.val : ℤ) := by decide
    exact ⟨_, (Word.ofJson_eq_ok_iff.mp sampleKey.ofJson_hash).1,
      (Word.ofJson_eq_ok_iff.mp hread).1⟩
  have hlength : LengthRespelled (.int 1) (.ofString "+1") :=
    ⟨1, .integer 1, (Json.spells_str_iff Text.integer?_eq_some_iff).mpr (by decide)⟩
  have hkzg : Json.MembersReplaced KzgKey.respelledMember sampleKey.kzg.toJson projectiveKzg :=
    ⟨_, _, rfl, rfl, .cons ⟨rfl, .inr ⟨"g1", rfl, .projective .refl .refl (.integer 1)⟩⟩
      (.cons ⟨rfl, .inr ⟨"g2", rfl, .projective .refl .refl (.integer 1) (.integer 0)⟩⟩
        (.cons ⟨rfl, .inl rfl⟩ .nil))⟩
  exact ⟨_, _, rfl, rfl, .cons ⟨rfl, .inr ⟨"pp_hash", rfl, hhash⟩⟩
    (.cons ⟨rfl, .inr ⟨"state_len", rfl, hlength⟩⟩ (.cons ⟨rfl, .inl rfl⟩
      (.cons ⟨rfl, .inr ⟨"kzg", rfl, hkzg⟩⟩ .nil)))⟩

theorem spellings_immaterial_respelledDocument :
    ofJson respelledDocument = .ok sampleKey ∧
      (∃ n, Word.Spells (.ofString "0x02") n) ∧
      ¬∃ v, respelledDocument.Has "state_len" v ∧ ¬LengthSpells v 1 := by
  obtain ⟨hrespelled, -⟩ := spellings_immaterial sampleKey.toJson
  have hread := (hrespelled _ respelled_respelledDocument sampleKey).mp sampleKey.ofJson_toJson
  obtain ⟨hwords, hlength⟩ := (spellings_immaterial respelledDocument).2 sampleKey hread
  refine ⟨hread, hwords _ (.hash ⟨_, rfl, rfl⟩), ?_⟩
  rintro ⟨v, hv, hspells⟩
  rcases hlength v hv with h | ⟨b, rfl, -⟩ | ⟨x, rfl, -⟩
  · exact hspells h
  · obtain ⟨_, ⟨⟩, ⟨⟩⟩ := hv
  · obtain ⟨_, ⟨⟩, ⟨⟩⟩ := hv

/-- The sample key with the given length. -/
def lengthDocument (stateLength : Json) : Json :=
  .record [("pp_hash", Word.toJson sampleKey.hash.val), ("state_len", stateLength),
    ("groth16", sampleKey.groth16.toJson), ("kzg", sampleKey.kzg.toJson)]

theorem ofJson_lengthDocument (v : Json) : ofJson (lengthDocument v) =
    v.integer >>= fun n => make sampleKey.hash.val n sampleKey.groth16 sampleKey.kzg := by
  have hlength : (lengthDocument v).memberD "state_len" (.int 1) = pure v := by
    refine Json.memberD_of_member ?_
    rw [lengthDocument, Json.member_record_cons_of_ne (by decide), Json.member_record_cons_self]
    rfl
  have hgroth16 : Groth16Key.ofJson sampleKey.groth16.toJson = pure sampleKey.groth16 :=
    Groth16Key.ofJson_toJson _
  have hkzg : KzgKey.ofJson sampleKey.kzg.toJson = pure sampleKey.kzg := KzgKey.ofJson_toJson _
  rw [ofJson, hlength, lengthDocument]
  simp only [Json.member_record_cons_self, Json.member_record_cons_of_ne, ne_eq, String.reduceEq,
    not_false_eq_true, pure_bind, ofJson_hash, hgroth16, hkzg]

/-- A hexadecimal one is a spelling, and as a length it is refused. -/
theorem spellings_hexadecimalLength :
    Word.Respelled (.int 1) (.ofString "0x1") ∧
      ofJson (lengthDocument (.int 1)) = .ok sampleKey ∧
      (∀ k, ofJson (lengthDocument (.ofString "0x1")) ≠ .ok k) ∧
      ofJson (lengthDocument (.bool true)) = .ok sampleKey := by
  have hread : Word.ofJson (.ofString "0x1") = .ok 1 := by decide
  have hone : (Json.int 1).integer = pure (sampleKey.stateLength : ℤ) := rfl
  have htrue : (Json.bool true).integer = pure (sampleKey.stateLength : ℤ) := rfl
  have hhexadecimal : (Json.ofString "0x1").integer = .error (.value .integerText) := by decide
  simp only [ofJson_lengthDocument, hone, htrue, hhexadecimal, pure_bind, make_parts, true_and,
    and_true]
  refine ⟨⟨1, .integer 1, (Word.ofJson_eq_ok_iff.mp hread).1⟩, ?_⟩
  rintro k ⟨⟩

end DeciderKey
end FoldingVerifier
