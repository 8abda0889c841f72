import FoldingVerifier.Proofs.Decider.Acceptance
import FoldingVerifier.Proofs.Decider.Verdict
import FoldingVerifier.Proofs.KeyDocuments
import FoldingVerifier.Proofs.ReaderFaults

/-! How a run on two files ends. Whatever texts they hold, it ends with a status that tells
acceptance, rejection and unusable input apart. One document makes an exception: a key whose
state length is infinite is not told as one that cannot be loaded. -/
namespace FoldingVerifier
namespace Cli

/-- A name that is taken for a plain argument and that a file may have. -/
structure FileName (name : String) : Prop where
  plain : role name = .ok (.plain name)
  noZero : name.contains (Char.ofNat 0) = false

def fileArgs (key proof : String) (flat : Bool) : List String :=
  ["--vk", key, "--proof", proof] ++ if flat then ["--opaque"] else []

theorem role_key : role "--vk" = .ok (.flag (.file .key)) :=
  role_of_filter (by simp) rfl (by simp [longFlags])

theorem role_proof : role "--proof" = .ok (.flag (.file .proof)) :=
  role_of_filter (by simp) rfl (by simp [longFlags])

/-- Two dashes alone could be any long flag. -/
theorem role_separator : role "--" = .error .usage := by
  have hname : splitAssignment "--" = ("--", none) := rfl
  have hflags : (longFlags.filter fun f => f.1.startsWith "--") = longFlags := by
    simp [longFlags]
  rw [role, if_pos (by simp), longRole, hname]
  simp only [hflags]
  rfl

theorem FileName.ne_separator {name : String} (h : FileName name) : name ≠ "--" := by
  rintro rfl
  have hplain := h.plain
  rw [role_separator] at hplain
  cases hplain

/-- All names that do not begin with a dash will do. -/
theorem FileName.of_noDash {name : String} (hdash : name.startsWith "-" = false)
    (hzero : name.contains (Char.ofNat 0) = false) : FileName name := by
  have hdashes : name.startsWith "--" = false := by
    rw [String.startsWith_string_eq_false_iff] at hdash ⊢
    exact fun h => hdash (List.IsPrefix.trans ⟨['-'], rfl⟩ h)
  refine ⟨?_, hzero⟩
  simp only [role, hdashes, hdash, Bool.false_eq_true, ↓reduceIte]

theorem roles_cons {arg : String} (h : arg ≠ "--") (args : List String) :
    roles (arg :: args) = do return (← role arg) :: (← roles args) := by
  rw [roles]
  exact h

variable {key proof : String}

theorem parse_fileArgs (hkey : FileName key) (hproof : FileName proof) (flat : Bool) :
    parse (fileArgs key proof flat) = .ok ⟨key, proof, flat⟩ := by
  have hroles : roles ["--vk", key, "--proof", proof] =
      .ok [.flag (.file .key), .plain key, .flag (.file .proof), .plain proof] := by
    rw [roles_cons (by decide), roles_cons hkey.ne_separator, roles_cons (by decide),
      roles_cons hproof.ne_separator, role_key, role_proof, hkey.plain, hproof.plain]
    rfl
  have hparse : parse ["--vk", key, "--proof", proof] = .ok ⟨key, proof, false⟩ := by
    rw [parse, hroles]
    rfl
  cases flat with
  | false => exact hparse
  | true =>
    change parse (["--vk", key, "--proof", proof] ++ ["--opaque"]) = _
    rw [parse_append_flat, hparse]
    rfl

theorem load_text {α : Type} {files : String → Entry} {name content : String}
    (hname : FileName name) (htext : files name = .text content)
    (read : String → Except Fault α) : load files name read =
      match read content with
      | .ok a => .ok (.ok a)
      | .error fault =>
          if isFatal fault then .error fault else .ok (.error (.couldNotLoad fault)) := by
  rw [load, if_neg hname.ne_separator, hname.noZero, htext]
  rfl

/-- A key file whose document has an infinite state length. -/
def InfiniteKeyText (text : String) (maxDepth : ℕ) : Prop :=
  ∃ v, Json.parse text maxDepth = .ok v ∧ DeciderKey.InfiniteStateLength v

/-- The verification that a run makes of what it has loaded. -/
def verification (e : Pairing) (flat : Bool) (k : DeciderKey) (p : DeciderProof) :
    Except Fault Unit :=
  if flat then (Decider.ofKey k).verifyFlat e (.ints p.toWords) else (Decider.ofKey k).verify e p

/-- What each status of a run tells about the two texts. -/
structure Documented (e : Pairing) (flat : Bool) (keyText proofText : String) (maxDepth : ℕ)
    (s : ℕ) : Prop where
  range : s ≤ 2
  unusable : s = 2 ↔ (¬∃ k, DeciderKey.ofText keyText maxDepth = .ok k) ∨
    (¬∃ p, DeciderProof.ofText proofText maxDepth = .ok p) ∨
      ∃ k p, DeciderKey.ofText keyText maxDepth = .ok k ∧
        DeciderProof.ofText proofText maxDepth = .ok p ∧ p.stateLength ≠ k.stateLength
  rejected : s = 1 ↔ ∃ k p, DeciderKey.ofText keyText maxDepth = .ok k ∧
    DeciderProof.ofText proofText maxDepth = .ok p ∧ p.stateLength = k.stateLength ∧
      ((∃ c, verification e flat k p = .error (.rejected c)) ∨
        ∃ c, verification e flat k p = .error (.point c))
  accepted : s = 0 ↔ ∃ k p, DeciderKey.ofText keyText maxDepth = .ok k ∧
    DeciderProof.ofText proofText maxDepth = .ok p ∧ verification e flat k p = .ok ()

theorem verification_mem_entryRuns (e : Pairing) (flat : Bool) (k : DeciderKey) (p : DeciderProof) :
    verification e flat k p ∈ Decider.entryRuns e k p := by
  cases flat <;> simp [verification, Decider.entryRuns]

variable {keyText proofText : String} {maxDepth : ℕ} {k : DeciderKey} {p : DeciderProof}

theorem documented_of_unloaded (e : Pairing) (flat : Bool)
    (h : (¬∃ k, DeciderKey.ofText keyText maxDepth = .ok k) ∨
      ¬∃ p, DeciderProof.ofText proofText maxDepth = .ok p) :
    Documented e flat keyText proofText maxDepth 2 := by
  have hnone (k : DeciderKey) (p : DeciderProof) (hk : DeciderKey.ofText keyText maxDepth = .ok k)
      (hp : DeciderProof.ofText proofText maxDepth = .ok p) : False :=
    h.elim (fun hkey => hkey ⟨k, hk⟩) (fun hproof => hproof ⟨p, hp⟩)
  refine ⟨le_rfl, by tauto, iff_of_false (by decide) ?_, iff_of_false (by decide) ?_⟩
  · rintro ⟨k, p, hk, hp, -⟩
    exact hnone k p hk hp
  · rintro ⟨k, p, hk, hp, -⟩
    exact hnone k p hk hp

/-- What has been loaded is verified, and the status tells how that ended. -/
theorem documented_of_loaded (e : Pairing) (flat : Bool)
    (hk : DeciderKey.ofText keyText maxDepth = .ok k)
    (hp : DeciderProof.ofText proofText maxDepth = .ok p) :
    ∃ s, statusAfter (verification e flat k p) = .ok s ∧
      Documented e flat keyText proofText maxDepth s := by
  have hmem := verification_mem_entryRuns e flat k p
  by_cases hz : p.stateLength = k.stateLength
  · have hverdict := Decider.entryRuns_verdict e hz _ hmem
    generalize hr : verification e flat k p = r at hverdict
    cases hverdict with
    | accepted =>
      exact ⟨0, rfl, by decide, by simp [hk, hp, hz], by simp [hk, hp, hr], by simp [hk, hp, hr]⟩
    | rejected c =>
      exact ⟨1, rfl, by decide, by simp [hk, hp, hz], by simp [hk, hp, hz, hr],
        by simp [hk, hp, hr]⟩
    | malformed c =>
      exact ⟨1, rfl, by decide, by simp [hk, hp, hz], by simp [hk, hp, hz, hr],
        by simp [hk, hp, hr]⟩
  · obtain ⟨c, hr⟩ := Decider.entryRuns_value e hz _ hmem
    rw [hr]
    exact ⟨2, rfl, le_rfl, by simp [hk, hp, hz], by simp [hk, hp, hz], by simp [hk, hp, hr]⟩

theorem reports_parse {text : String} (hdepth : Json.parse text maxDepth ≠ .error .tooDeep) :
    Reports (Json.parse text maxDepth) := by
  intro f hf
  rcases Json.faultsIn_parse text maxDepth f hf with h | rfl
  · exact h
  · exact absurd hf hdepth

theorem reports_proofText (hdepth : Json.parse proofText maxDepth ≠ .error .tooDeep) :
    Reports (DeciderProof.ofText proofText maxDepth) :=
  (reports_parse hdepth).bind fun v _ => DeciderProof.reports_ofJson v

theorem keyText_infinite (h : InfiniteKeyText keyText maxDepth) :
    DeciderKey.ofText keyText maxDepth = .error .infiniteInteger := by
  obtain ⟨v, hv, hinfinite⟩ := h
  rw [DeciderKey.ofText, hv]
  exact DeciderKey.ofJson_of_infiniteStateLength hinfinite

theorem reports_keyText (hdepth : Json.parse keyText maxDepth ≠ .error .tooDeep)
    (hfinite : ¬InfiniteKeyText keyText maxDepth) :
    Reports (DeciderKey.ofText keyText maxDepth) := by
  refine (reports_parse hdepth).bind fun v hv => ?_
  refine (DeciderKey.faultsIn_ofJson v).mono ?_
  rintro f (hf | ⟨-, hinfinite⟩)
  · exact hf
  · exact absurd ⟨v, hv, hinfinite⟩ hfinite

theorem isFatal_of_reported {f : Fault} (h : f.Reported) : isFatal f = false := by
  cases f <;> first | rfl | exact h.elim

/-- A reader that reports what it refuses loads the file, or the run ends with status two. -/
theorem load_reported {α : Type} (read : String → Except Fault α) {files : String → Entry}
    {name content : String} (hname : FileName name) (htext : files name = .text content)
    (hread : Reports (read content)) :
    (∃ a, read content = .ok a ∧ load files name read = .ok (.ok a)) ∨
      (¬∃ a, read content = .ok a) ∧
        ∃ d : Diagnostic, load files name read = .ok (.error d) ∧ d.status = 2 := by
  rw [load_text hname htext]
  cases hr : read content with
  | ok a => exact .inl ⟨a, rfl, rfl⟩
  | error f =>
    refine .inr ⟨by simp, .couldNotLoad f, ?_, rfl⟩
    simp [isFatal_of_reported (hread f hr)]

theorem ending_fileArgs (e : Pairing) (files : String → Entry) (hkey : FileName key)
    (hproof : FileName proof) (flat : Bool) (maxDepth : ℕ) :
    ending e files (fileArgs key proof flat) maxDepth =
      .ok ((run e files ⟨key, proof, flat⟩ maxDepth).map Outcome.status) := by
  rw [ending, parse_fileArgs hkey hproof]
  rfl

section Endings

variable {files : String → Entry} (hkey : FileName key) (hkeyText : files key = .text keyText)

include hkey hkeyText

theorem run_of_infinite (e : Pairing) (flat : Bool) (h : InfiniteKeyText keyText maxDepth) :
    (run e files ⟨key, proof, flat⟩ maxDepth).map Outcome.status = .error .infiniteInteger := by
  rw [run_status, load_text hkey hkeyText, keyText_infinite h]
  rfl

theorem run_of_finite (e : Pairing) (flat : Bool) (hproof : FileName proof)
    (hproofText : files proof = .text proofText)
    (hkeyDepth : Json.parse keyText maxDepth ≠ .error .tooDeep)
    (hproofDepth : Json.parse proofText maxDepth ≠ .error .tooDeep)
    (hfinite : ¬InfiniteKeyText keyText maxDepth) :
    ∃ s, (run e files ⟨key, proof, flat⟩ maxDepth).map Outcome.status = .ok s ∧
      Documented e flat keyText proofText maxDepth s := by
  rw [run_status]
  rcases load_reported (DeciderKey.ofText · maxDepth) hkey hkeyText
    (reports_keyText hkeyDepth hfinite) with ⟨k, hk, hload⟩ | ⟨hk, d, hload, hd⟩
  · rw [hload]
    rcases load_reported (DeciderProof.ofText · maxDepth) hproof hproofText
      (reports_proofText hproofDepth) with ⟨p, hp, hload'⟩ | ⟨hp, d, hload', hd⟩
    · obtain ⟨s, hs, hdocumented⟩ := documented_of_loaded e flat hk hp
      refine ⟨s, ?_, hdocumented⟩
      rw [hload', ← hs]
      rfl
    · refine ⟨2, ?_, documented_of_unloaded e flat (.inr hp)⟩
      rw [hload', ← hd]
      rfl
  · refine ⟨2, ?_, documented_of_unloaded e flat (.inl hk)⟩
    rw [hload, ← hd]
    rfl

end Endings

/-- However deep a reader goes, a run on two texts that are no deeper ends with a documented
status, and what the readers refuse is all of the kinds that a run reports, unless the state
length of the key is infinite; then, and only then, it ends with a fault. -/
theorem ending_documented (e : Pairing) {files : String → Entry} {maxDepth : ℕ}
    (hkey : FileName key) (hproof : FileName proof) (hkeyText : files key = .text keyText)
    (hproofText : files proof = .text proofText)
    (hkeyDepth : Json.parse keyText maxDepth ≠ .error .tooDeep)
    (hproofDepth : Json.parse proofText maxDepth ≠ .error .tooDeep) (flat : Bool) :
    (∀ f, ending e files (fileArgs key proof flat) maxDepth = .ok (.error f) ↔
      f = .infiniteInteger ∧ InfiniteKeyText keyText maxDepth) ∧
    (¬InfiniteKeyText keyText maxDepth →
      Reports (DeciderKey.ofText keyText maxDepth) ∧
      Reports (DeciderProof.ofText proofText maxDepth) ∧
        ∃ s, ending e files (fileArgs key proof flat) maxDepth = .ok (.ok s) ∧
          Documented e flat keyText proofText maxDepth s) := by
  rw [ending_fileArgs e files hkey hproof]
  have hreports := reports_keyText hkeyDepth
  have hfinite := run_of_finite hkey hkeyText e flat hproof hproofText hkeyDepth hproofDepth
  by_cases h : InfiniteKeyText keyText maxDepth
  · rw [run_of_infinite hkey hkeyText e flat h]
    simp [h, eq_comm]
  · obtain ⟨s, hs, hdocumented⟩ := hfinite h
    rw [hs]
    simp [h, hreports h, reports_proofText hproofDepth, hdocumented]

theorem fileName_key : FileName "vk.json" := .of_noDash (by simp) (by simp)

theorem fileName_proof : FileName "proof.json" := .of_noDash (by simp) (by simp)

def twoFiles (keyText proofText : String) (name : String) : Entry :=
  if name = "vk.json" then .text keyText else .text proofText

theorem ofText_sampleProof (hdepth : 4 ≤ maxDepth) :
    DeciderProof.ofText sampleProof.toText maxDepth = .ok sampleProof := by
  have hcheck : Word.check sampleProof.documentWords = .ok () := Word.check_eq_ok (by decide)
  rw [DeciderProof.ofText_toText sampleProof hdepth, hcheck]
  rfl

/-- The files of a proof that is accepted. -/
theorem ending_documented_sampleProof : ∃ s,
    ending .logarithmic (twoFiles sampleKey.toText sampleProof.toText)
      (fileArgs "vk.json" "proof.json" true) Json.usualDepth = .ok (.ok s) ∧ s = 0 := by
  have hroom : 4 ≤ Json.usualDepth := by decide
  have hkeyParse := sampleKey.parse_toText DeciderKey.inputCount_sampleKey_lt hroom
  have hkey := DeciderKey.ofText_of_parse hkeyParse
  have hproofParse := sampleProof.parse_toText hroom
  have hfinite : ¬InfiniteKeyText sampleKey.toText Json.usualDepth := by
    intro h
    rw [keyText_infinite h] at hkey
    cases hkey
  have hkeyFile : twoFiles sampleKey.toText sampleProof.toText "vk.json" =
    .text sampleKey.toText := if_pos rfl
  have hproofFile : twoFiles sampleKey.toText sampleProof.toText "proof.json" =
    .text sampleProof.toText := if_neg (by decide)
  obtain ⟨-, hending⟩ := ending_documented .logarithmic fileName_key fileName_proof hkeyFile
    hproofFile (by rw [hkeyParse]; rintro ⟨⟩) (by rw [hproofParse]; rintro ⟨⟩) true
  obtain ⟨-, -, s, hs, hdocumented⟩ := hending hfinite
  have haccepted : verification .logarithmic true sampleKey sampleProof = .ok () :=
    (Decider.verifyFlat_toWords _ sampleKey sampleProof rfl).trans
      (verify_sampleProof Pairing.bilinear_logarithmic)
  exact ⟨s, hs, hdocumented.accepted.mpr ⟨sampleKey, sampleProof, hkey, ofText_sampleProof hroom,
    haccepted⟩⟩

/-- The number is beyond the largest finite one. -/
def infiniteKeyText : String := "\x7b\"pp_hash\": \"0\", \"state_len\": 1e400\x7d"

/-- What the text holds. -/
def infiniteKeyDocument : Json :=
  .record [("pp_hash", Word.toJson 0), ("state_len", .real (.infinite false))]

theorem parse_infiniteKeyText (h : 0 < maxDepth) :
    Json.parse infiniteKeyText maxDepth = .ok infiniteKeyDocument := by
  obtain ⟨n, rfl⟩ := Nat.exists_eq_add_one.mpr h
  rfl

theorem infinite_infiniteKeyText (h : 0 < maxDepth) : InfiniteKeyText infiniteKeyText maxDepth := by
  have hzero : Word.check [0] = .ok () := Word.check_eq_ok (by decide)
  refine ⟨infiniteKeyDocument, parse_infiniteKeyText h, ⟨0, ?_⟩, false, ?_⟩
  · rw [infiniteKeyDocument, Json.member_record_cons_self, pure_bind, Word.ofJson_toJson, hzero]
    rfl
  · rw [infiniteKeyDocument, Json.member_record_cons_of_ne (by decide),
      Json.member_record_cons_self]
    rfl

/-- Both texts are documents, and the run ends with no status at all. -/
theorem ending_infiniteKeyText :
    (∃ v, Json.parse infiniteKeyText = .ok v) ∧ (∃ v, Json.parse "\x7b\x7d" = .ok v) ∧
    ¬∃ s, ending .logarithmic (twoFiles infiniteKeyText "\x7b\x7d")
      (fileArgs "vk.json" "proof.json" false) Json.usualDepth = .ok (.ok s) := by
  have hkeyFile : twoFiles infiniteKeyText "\x7b\x7d" "vk.json" = .text infiniteKeyText :=
    if_pos rfl
  have hinfinite : InfiniteKeyText infiniteKeyText Json.usualDepth :=
    infinite_infiniteKeyText (by decide)
  refine ⟨⟨_, parse_infiniteKeyText (by decide)⟩, ⟨.obj [], rfl⟩, ?_⟩
  rintro ⟨s, hs⟩
  rw [ending_fileArgs _ _ fileName_key fileName_proof,
    run_of_infinite fileName_key hkeyFile _ _ hinfinite] at hs
  cases hs

end Cli
end FoldingVerifier
