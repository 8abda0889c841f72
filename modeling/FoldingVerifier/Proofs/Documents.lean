import FoldingVerifier.DeciderProof.Part
import FoldingVerifier.Proofs.Curve.Decoding
import FoldingVerifier.Proofs.Json.Text
import FoldingVerifier.Proofs.WordFormats

/-! Words, points and proofs written as documents and read back. Of a word that is out of
range nothing but a fault is read, and the first such word of a document decides which. -/
namespace FoldingVerifier

namespace Json

variable {key other : String} {v : Json} {ms : List (String × Json)}

theorem member_record_cons_self : member key (record ((key, v) :: ms)) = pure v := by
  rw [record, List.map_cons, member, find?, if_pos rfl]
  rfl

theorem member_record_cons_of_ne (h : other ≠ key) :
    member key (record ((other, v) :: ms)) = member key (record ms) := by
  have hne : Symbols.ofString other ≠ Symbols.ofString key :=
    fun heq => h (Symbols.ofString_injective heq)
  rw [record, List.map_cons, member, find?, if_neg hne]
  rfl

/-- A member that is there needs no value to stand in for it. -/
theorem memberD_of_member {doc absent : Json} (h : doc.member key = .ok v) :
    doc.memberD key absent = .ok v := by
  cases doc with
  | obj members =>
    rw [member] at h
    rw [memberD]
    cases hfind : find? (.ofString key) members with
    | none => rw [hfind] at h; cases h
    | some w => rw [hfind] at h; exact h
  | _ => cases h

/-- Members have distinct names. -/
theorem legible_record {n : ℕ} (hvalues : ∀ m ∈ ms, Legible n m.2)
    (hdistinct : (ms.map Prod.fst).Nodup) : Legible (n + 1) (record ms) := by
  refine .obj ?_ ?_ ?_
  · intro m hm
    obtain ⟨m', hm', rfl⟩ := List.mem_map.mp hm
    exact hvalues m' hm'
  · intro m hm
    obtain ⟨m', -, rfl⟩ := List.mem_map.mp hm
    exact Symbols.joined_ofString _
  · rw [List.map_map]
    change (ms.map (Symbols.ofString ∘ Prod.fst)).Nodup
    rw [← List.map_map]
    exact hdistinct.map fun _ _ => Symbols.ofString_injective

theorem legible_map {α : Type} {n : ℕ} {f : α → Json} (h : ∀ a, Legible n (f a)) (as : List α) :
    Legible (n + 1) (.arr (as.map f)) := by
  refine .arr ?_
  intro v hv
  obtain ⟨a, -, rfl⟩ := List.mem_map.mp hv
  exact h a

end Json

namespace Word

/-- Why a written word is not read back. Of a word with too many digits it is not seen that
it is out of range. -/
def defect (n : ℤ) : Option Fault :=
  if 0 ≤ n ∧ n < bound then none
  else some (.value (if Text.FewDigits n then .wordRange (Text.decimal n) else .integerText))

/-- Refuses a row of words for the first that is out of range. -/
def check (ns : List ℤ) : Except Fault Unit := refuse (ns.findSome? defect)

theorem defect_eq_none_iff {n : ℤ} : defect n = none ↔ 0 ≤ n ∧ n < bound := by
  rw [defect]
  split_ifs with hn <;> simp [hn]

theorem check_append (ms ns : List ℤ) :
    check (ms ++ ns) = check ms >>= fun _ => check ns := by
  rw [check, check, List.findSome?_append]
  cases ms.findSome? defect <;> rfl

theorem check_eq_ok {ns : List ℤ} (h : ∀ n ∈ ns, 0 ≤ n ∧ n < bound) : check ns = .ok () := by
  rw [check, List.findSome?_eq_none_iff.mpr fun n hn => defect_eq_none_iff.mpr (h n hn)]
  rfl

/-- Wherever it stands, a word out of range is a fault of the values. -/
theorem check_eq_error {ns : List ℤ} {n : ℤ} (hmem : n ∈ ns) (hn : ¬(0 ≤ n ∧ n < bound)) :
    ∃ cause, check ns = .error (.value cause) := by
  rw [check]
  cases hfirst : ns.findSome? defect with
  | none =>
    have hnone := List.findSome?_eq_none_iff.mp hfirst n hmem
    exact absurd (defect_eq_none_iff.mp hnone) hn
  | some fault =>
    obtain ⟨m, -, hm⟩ := List.exists_of_findSome?_eq_some hfirst
    rw [defect] at hm
    split_ifs at hm <;>
      · cases hm
        exact ⟨_, rfl⟩

theorem fewDigits_of_inRange {n : ℤ} (h : 0 ≤ n ∧ n < bound) : Text.FewDigits n := by
  refine Text.fewDigits_of_lt (show 78 ≤ Text.maxDigits by decide) ?_
  have hbound : bound ≤ 10 ^ 78 := by decide
  omega

theorem ofJson_ofString {t : String} {n : ℤ} (h : Text.word? t = some n) :
    ofJson (.ofString t) = inRange t n := by
  simp only [Json.ofString, ofJson, Symbols.toString?_ofString, h]

theorem ofJson_ofString_of_none {t : String} (h : Text.word? t = none) :
    ofJson (.ofString t) = .error (.value .integerText) := by
  simp only [Json.ofString, ofJson, Symbols.toString?_ofString, h]

theorem ofJson_toJson (n : ℤ) : ofJson (toJson n) = check [n] >>= fun _ => return n := by
  rw [toJson, check, List.findSome?_singleton, defect]
  by_cases hd : Text.FewDigits n
  · rw [ofJson_ofString ((Text.word?_decimal n).trans (if_pos hd)), inRange, if_pos hd]
    split_ifs <;> rfl
  · have hout : ¬(0 ≤ n ∧ n < bound) := fun hn => hd (fewDigits_of_inRange hn)
    rw [ofJson_ofString_of_none ((Text.word?_decimal n).trans (if_neg hd)), if_neg hout, if_neg hd]
    rfl

theorem listOfJson_toJson (ns : List ℤ) :
    listOfJson (.arr (ns.map toJson)) = check ns >>= fun _ => return ns := by
  change (ns.map toJson).mapM ofJson = _
  induction ns with
  | nil => rfl
  | cons n ns ih =>
    have hcons : check (n :: ns) = check [n] >>= fun _ => check ns := check_append [n] ns
    rw [List.map_cons, List.mapM_cons, ih, ofJson_toJson, hcons]
    simp only [bind_assoc, pure_bind]

theorem legible_toJson (n : ℤ) (room : ℕ) : (toJson n).Legible room :=
  .str (Symbols.joined_ofString _)

end Word

namespace G1Coords

theorem ofJson_toJson (P : G1Coords) :
    ofJson P.toJson = Word.check P.toList >>= fun _ => return P := by
  change (do
    let x ← Word.ofJson (Word.toJson P.x)
    let y ← Word.ofJson (Word.toJson P.y)
    return (⟨x, y⟩ : G1Coords)) = _
  have hlist : P.toList = [P.x] ++ [P.y] := rfl
  simp only [hlist, Word.check_append, Word.ofJson_toJson, bind_assoc, pure_bind]

/-- The third coordinate may be written. -/
theorem ofJson_projective (P : G1Coords) :
    ofJson (.arr [Word.toJson P.x, Word.toJson P.y, .int 1]) = ofJson P.toJson := rfl

theorem legible_toJson (P : G1Coords) (room : ℕ) : P.toJson.Legible (room + 1) :=
  Json.legible_map (fun n => Word.legible_toJson n room) _

end G1Coords

namespace G2Coords

/-- In documents each coordinate has its real part first. -/
def toList (Q : G2Coords) : List ℤ := [Q.x0, Q.x1, Q.y0, Q.y1]

theorem ofJson_toJson (Q : G2Coords) :
    ofJson Q.toJson = Word.check Q.toList >>= fun _ => return Q := by
  change (do
    let x0 ← Word.ofJson (Word.toJson Q.x0)
    let x1 ← Word.ofJson (Word.toJson Q.x1)
    let y0 ← Word.ofJson (Word.toJson Q.y0)
    let y1 ← Word.ofJson (Word.toJson Q.y1)
    return (⟨x0, x1, y0, y1⟩ : G2Coords)) = _
  have hlist : Q.toList = [Q.x0] ++ ([Q.x1] ++ ([Q.y0] ++ [Q.y1])) := rfl
  simp only [hlist, Word.check_append, Word.ofJson_toJson, bind_assoc, pure_bind]

theorem legible_toJson (Q : G2Coords) (room : ℕ) : Q.toJson.Legible (room + 2) := by
  have hpair (m n : ℤ) : (Json.arr [Word.toJson m, Word.toJson n]).Legible (room + 1) :=
    Json.legible_map (fun n => Word.legible_toJson n room) [m, n]
  exact .arr (by simp only [List.forall_mem_cons]; exact ⟨hpair _ _, hpair _ _, by simp⟩)

end G2Coords

namespace Groth16Proof

/-- The words in the order in which they are read from a document. -/
def documentWords (p : Groth16Proof) : List ℤ := p.a.toList ++ p.b.toList ++ p.c.toList

theorem ofJson_toJson (p : Groth16Proof) :
    ofJson p.toJson = Word.check p.documentWords >>= fun _ => return p := by
  rw [ofJson, toJson]
  simp only [Json.member_record_cons_self, Json.member_record_cons_of_ne, ne_eq,
    String.reduceEq, not_false_eq_true, documentWords, Word.check_append,
    G1Coords.ofJson_toJson, G2Coords.ofJson_toJson, bind_assoc, pure_bind]

theorem legible_toJson (p : Groth16Proof) (room : ℕ) : p.toJson.Legible (room + 3) := by
  have hdistinct : ["pi_a", "pi_b", "pi_c"].Nodup := by decide
  refine Json.legible_record ?_ hdistinct
  simp only [List.forall_mem_cons]
  exact ⟨p.a.legible_toJson _, p.b.legible_toJson _, p.c.legible_toJson _, by simp⟩

end Groth16Proof

namespace DeciderProof

/-- The words in the order in which they are read from a document. -/
def documentWords (p : DeciderProof) : List ℤ :=
  [p.challengeW, p.challengeE] ++ [p.evalW, p.evalE] ++ [p.steps] ++ p.initialState ++
    p.finalState ++ p.running.witness.toList ++ p.running.errorTerm.toList ++
    p.freshWitness.toList ++ p.crossTerm.toList ++ [p.randomness] ++ p.groth16.documentWords ++
    p.openingW.toList ++ p.openingE.toList

/-- Documents hold the words of the word array in another order. -/
theorem documentWords_perm (p : DeciderProof) : p.documentWords.Perm p.toWords := by
  -- the states are moved as a whole, so that counting needs no word of them
  rw [List.perm_iff_count]
  intro n
  simp only [documentWords, Groth16Proof.documentWords, toWords, stepsAndStates, toOpaque, groups,
    ProofGroups.toWords, CommitmentPair.toWords, Groth16Proof.toWords, G1Coords.toList,
    G2Coords.toList, G2Coords.toWords, List.flatten_cons, List.flatten_nil, List.count_append,
    List.count_cons, List.count_nil, List.cons_append]
  omega

theorem ofJson_toJson (p : DeciderProof) :
    ofJson p.toJson = Word.check p.documentWords >>= fun _ => return p := by
  have hpair (m n : ℤ) : Word.listOfJson (.arr [Word.toJson m, Word.toJson n]) =
      Word.check [m, n] >>= fun _ => return [m, n] := Word.listOfJson_toJson [m, n]
  have hsize (v w : Json) : (Json.arr [v, w]).requireSize 2 .twoEntries = pure () := rfl
  have hfirst (v w : Json) : (Json.arr [v, w]).entry 0 = pure v := rfl
  have hsecond (v w : Json) : (Json.arr [v, w]).entry 1 = pure w := rfl
  rw [ofJson, toJson]
  simp only [Json.member_record_cons_self, Json.member_record_cons_of_ne, ne_eq, String.reduceEq,
    not_false_eq_true, bind_assoc, pure_bind, hpair, hsize, hfirst, hsecond,
    Word.listOfJson_toJson, Word.ofJson_toJson, G1Coords.ofJson_toJson,
    Groth16Proof.ofJson_toJson, documentWords, Word.check_append, dif_pos p.same_length]

/-- Four containers are nested, around the second group's point of the Groth16 proof. -/
theorem legible_toJson (p : DeciderProof) (room : ℕ) : p.toJson.Legible (room + 4) := by
  have hdistinct : ["steps", "z_0", "z_i", "U_i", "u_i_cmW", "cmT", "r", "groth16", "challenges",
    "evals", "kzg_proofs"].Nodup := by decide
  have hnames : ["cmW", "cmE"].Nodup := by decide
  have hword (n : ℤ) := Word.legible_toJson n (room + 3)
  have hwords (ns : List ℤ) : (Json.arr (ns.map Word.toJson)).Legible (room + 3) :=
    Json.legible_map (fun n => Word.legible_toJson n _) ns
  have hpoint (P : G1Coords) : P.toJson.Legible (room + 3) := P.legible_toJson _
  have hpoints (P Q : G1Coords) : (Json.arr [P.toJson, Q.toJson]).Legible (room + 3) :=
    Json.legible_map (fun P : G1Coords => P.legible_toJson (room + 1)) [P, Q]
  have hpair : (Json.record [("cmW", p.running.witness.toJson),
      ("cmE", p.running.errorTerm.toJson)]).Legible (room + 3) := by
    refine Json.legible_record ?_ hnames
    simp only [List.forall_mem_cons]
    exact ⟨G1Coords.legible_toJson _ _, G1Coords.legible_toJson _ _, by simp⟩
  refine Json.legible_record ?_ hdistinct
  simp only [List.forall_mem_cons]
  exact ⟨hword _, hwords _, hwords _, hpair, hpoint _, hpoint _, hword _,
    p.groth16.legible_toJson _, hwords [_, _], hwords [_, _], hpoints _ _, by simp⟩

/-- A reader that takes four nested containers takes the text of the proof. -/
theorem parse_toText (p : DeciderProof) {maxDepth : ℕ} (hdepth : 4 ≤ maxDepth) :
    Json.parse p.toText maxDepth = .ok p.toJson := by
  obtain ⟨room, rfl⟩ := Nat.exists_eq_add_of_le' hdepth
  exact Json.parse_text (p.legible_toJson room)

theorem ofText_toText (p : DeciderProof) {maxDepth : ℕ} (hdepth : 4 ≤ maxDepth) :
    ofText p.toText maxDepth = Word.check p.documentWords >>= fun _ => return p := by
  rw [ofText, p.parse_toText hdepth, ← ofJson_toJson]
  rfl

/-- A proof of words of 256 bits is what is read from the document that it is written to,
whatever its points are. Any other proof is refused. -/
theorem documents_roundTrip (p : DeciderProof) {maxDepth : ℕ} (hdepth : 4 ≤ maxDepth) :
    ((∀ n ∈ p.toWords, 0 ≤ n ∧ n < 2 ^ 256) →
      ofText p.toText maxDepth = .ok p ∧ ofJson p.toJson = .ok p) ∧
    ((∃ n ∈ p.toWords, n < 0 ∨ 2 ^ 256 ≤ n) → ∃ c,
      ofJson p.toJson = .error (.value c) ∧ ofText p.toText maxDepth = .error (.value c)) := by
  have hbound : Word.bound = 2 ^ 256 := rfl
  have hmem {n : ℤ} : n ∈ p.documentWords ↔ n ∈ p.toWords := p.documentWords_perm.mem_iff
  rw [ofText_toText p hdepth, ofJson_toJson]
  constructor
  · intro h
    have hcheck : Word.check p.documentWords = .ok () := by
      refine Word.check_eq_ok ?_
      rw [hbound]
      exact fun n hn => h n (hmem.mp hn)
    rw [hcheck]
    exact ⟨rfl, rfl⟩
  · rintro ⟨n, hn, hout⟩
    obtain ⟨c, hc⟩ := Word.check_eq_error (hmem.mpr hn) (by rw [hbound]; omega)
    rw [hc]
    exact ⟨c, rfl, rfl⟩

theorem documents_roundTrip_countingProof :
    (ofText countingProof.toText = .ok countingProof ∧
      ofJson countingProof.toJson = .ok countingProof) ∧
    (ofText statelessProof.toText 4 = .ok statelessProof ∧
      ofJson statelessProof.toJson = .ok statelessProof) ∧
    (∃ c, ofJson (ScalarPart.randomness.set (-1) countingProof).toJson = .error (.value c)) ∧
    ∃ c, ofJson (ScalarPart.evalE.set (2 ^ 256) statelessProof).toJson = .error (.value c) := by
  obtain ⟨c, hnegative, -⟩ := (documents_roundTrip (ScalarPart.randomness.set (-1)
    countingProof) le_rfl).2 ⟨-1, by decide, by decide⟩
  obtain ⟨c', hlarge, -⟩ := (documents_roundTrip (ScalarPart.evalE.set (2 ^ 256)
    statelessProof) le_rfl).2 ⟨2 ^ 256, by decide, by decide⟩
  exact ⟨(documents_roundTrip countingProof (by decide)).1 (by decide),
    (documents_roundTrip statelessProof le_rfl).1 (by decide), ⟨c, hnegative⟩, c', hlarge⟩

end DeciderProof
end FoldingVerifier
