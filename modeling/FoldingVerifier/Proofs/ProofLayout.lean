import FoldingVerifier.Proofs.Documents
import FoldingVerifier.Proofs.Forms

/-! The layout of proof documents, and what the reader makes of it. A document in which every
list is an array is read if and only if it is laid out in this way. The reader asks for no
arrays: a string or an object in the place of one is read as the list that it stands for, and
this is the only other thing that it accepts. -/
namespace FoldingVerifier

open Json (Listing)

def WordsForm (F : Listing) (v : Json) (ns : List ℤ) : Prop :=
  ∃ vs, F.listed v vs ∧ List.Forall₂ Word.Denotes vs ns

structure CommitmentsForm (F : Listing) (v : Json) (c : CommitmentPair) : Prop where
  witness : v.HasForm "cmW" (G1Form F · c.witness)
  errorTerm : v.HasForm "cmE" (G1Form F · c.errorTerm)

structure Groth16Form (F : Listing) (v : Json) (p : Groth16Proof) : Prop where
  a : v.HasForm "pi_a" (G1Form F · p.a)
  b : v.HasForm "pi_b" (G2Form F · p.b)
  c : v.HasForm "pi_c" (G1Form F · p.c)

def OpeningsForm (F : Listing) (v : Json) (P Q : G1Coords) : Prop :=
  ∃ a b, F.indexed v [a, b] ∧ G1Form F a P ∧ G1Form F b Q

namespace DeciderProof

/-- The document holds the proof. That the states are equally long is part of every proof. -/
structure Layout (F : Listing) (doc : Json) (p : DeciderProof) : Prop where
  steps : doc.HasForm "steps" (Word.Denotes · p.steps)
  initialState : doc.HasForm "z_0" (WordsForm F · p.initialState)
  finalState : doc.HasForm "z_i" (WordsForm F · p.finalState)
  running : doc.HasForm "U_i" (CommitmentsForm F · p.running)
  freshWitness : doc.HasForm "u_i_cmW" (G1Form F · p.freshWitness)
  crossTerm : doc.HasForm "cmT" (G1Form F · p.crossTerm)
  randomness : doc.HasForm "r" (Word.Denotes · p.randomness)
  groth16 : doc.HasForm "groth16" (Groth16Form F · p.groth16)
  challenges : doc.HasForm "challenges" (PairForm F · p.challengeW p.challengeE)
  evals : doc.HasForm "evals" (PairForm F · p.evalW p.evalE)
  openings : doc.HasForm "kzg_proofs" (OpeningsForm F · p.openingW p.openingE)

/-- The values of a document that the layout wants to be lists. -/
inductive ListPlace (F : Listing) (doc : Json) : Json → Prop where
  | member {key : String} {v : Json}
      (hkey : key ∈ ["z_0", "z_i", "challenges", "evals", "kzg_proofs", "u_i_cmW", "cmT"])
      (h : doc.Has key v) : ListPlace F doc v
  | commitment {key : String} {u v : Json} (hkey : key ∈ ["cmW", "cmE"])
      (hu : doc.Has "U_i" u) (h : u.Has key v) : ListPlace F doc v
  | groth16 {key : String} {u v : Json} (hkey : key ∈ ["pi_a", "pi_b", "pi_c"])
      (hu : doc.Has "groth16" u) (h : u.Has key v) : ListPlace F doc v
  | pair {u v w : Json} {vs : List Json} (hu : doc.Has "groth16" u) (hv : u.Has "pi_b" v)
      (hvs : F.listed v vs) (h : w ∈ vs) : ListPlace F doc w
  | opening {v w : Json} {vs : List Json} (hv : doc.Has "kzg_proofs" v) (hvs : F.listed v vs)
      (h : w ∈ vs) : ListPlace F doc w

/-- A layout goes over to another convention if the lists of its places do. -/
theorem Layout.mono {F G : Listing} {doc : Json} {p : DeciderProof}
    (h : ∀ v, ListPlace G doc v → F.Within G v) (hp : Layout F doc p) : Layout G doc p where
  steps := hp.steps
  initialState := by
    refine hp.initialState.mono ?_
    rintro v hv ⟨vs, hvs, hwords⟩
    exact ⟨vs, (h v (.member (by simp) hv)).listed vs hvs, hwords⟩
  finalState := by
    refine hp.finalState.mono ?_
    rintro v hv ⟨vs, hvs, hwords⟩
    exact ⟨vs, (h v (.member (by simp) hv)).listed vs hvs, hwords⟩
  running := by
    refine hp.running.mono fun u hu hrunning => ⟨?_, ?_⟩
    · exact hrunning.witness.mono fun v hv => G1Form.mono (h v (.commitment (by simp) hu hv))
    · exact hrunning.errorTerm.mono fun v hv => G1Form.mono (h v (.commitment (by simp) hu hv))
  freshWitness := hp.freshWitness.mono fun v hv => G1Form.mono (h v (.member (by simp) hv))
  crossTerm := hp.crossTerm.mono fun v hv => G1Form.mono (h v (.member (by simp) hv))
  randomness := hp.randomness
  groth16 := by
    refine hp.groth16.mono fun u hu hproof => ⟨?_, ?_, ?_⟩
    · exact hproof.a.mono fun v hv => G1Form.mono (h v (.groth16 (by simp) hu hv))
    · refine hproof.b.mono fun v hv => G2Form.mono (h v (.groth16 (by simp) hu hv)) ?_
      exact fun vs hvs w hw => h w (.pair hu hv hvs hw)
    · exact hproof.c.mono fun v hv => G1Form.mono (h v (.groth16 (by simp) hu hv))
  challenges := hp.challenges.mono fun v hv => PairForm.mono (h v (.member (by simp) hv))
  evals := hp.evals.mono fun v hv => PairForm.mono (h v (.member (by simp) hv))
  openings := by
    refine hp.openings.mono ?_
    rintro v hv ⟨a, b, hab, ha, hb⟩
    have hlist := (h v (.member (by simp) hv)).indexed _ hab
    have hopening (w : Json) (hw : w ∈ [a, b]) : F.Within G w :=
      h w (.opening hv (G.listed_of_indexed hlist) hw)
    exact ⟨a, b, hlist, ha.mono (hopening a (by simp)), hb.mono (hopening b (by simp))⟩

end DeciderProof

theorem wordsForm_iff {v : Json} {ns : List ℤ} :
    Word.listOfJson v = .ok ns ↔ WordsForm .lenient v ns := by
  simp only [Word.listOfJson_eq_ok_iff, Json.items_eq_ok_iff, WordsForm]

theorem openingsForm_iff {v : Json} {P Q : G1Coords} : OpeningsForm .lenient v P Q ↔
    v.size = .ok 2 ∧ (∃ a, v.entry 0 = .ok a ∧ G1Coords.ofJson a = .ok P) ∧
      ∃ b, v.entry 1 = .ok b ∧ G1Coords.ofJson b = .ok Q := by
  simp only [OpeningsForm, G1Coords.ofJson_eq_ok_iff, Json.entry_eq_ok_iff]
  constructor
  · rintro ⟨a, b, hab, ha, hb⟩
    exact ⟨Json.size_of_items (Json.items_of_indexed hab), ⟨a, ⟨_, hab, rfl⟩, ha⟩, b,
      ⟨_, hab, rfl⟩, hb⟩
  · rintro ⟨hsize, ⟨a, ⟨vs, hvs, ha⟩, hP⟩, b, ⟨ws, hws, hb⟩, hQ⟩
    have hitems := Json.items_of_indexed hvs
    have hlength : vs.length = 2 := by
      rwa [Json.size_of_items hitems, Except.ok.injEq] at hsize
    obtain rfl : vs = ws := Except.ok.inj (hitems.symm.trans (Json.items_of_indexed hws))
    obtain ⟨c, d, rfl⟩ := List.length_eq_two.mp hlength
    obtain rfl : c = a := by simpa using ha
    obtain rfl : d = b := by simpa using hb
    exact ⟨c, d, hvs, hP, hQ⟩

theorem Groth16Proof.ofJson_eq_ok_iff {v : Json} {p : Groth16Proof} :
    ofJson v = .ok p ↔ Groth16Form .lenient v p := by
  simp only [ofJson, bind_eq_ok_iff, Json.member_eq_ok_iff, G1Coords.ofJson_eq_ok_iff,
    G2Coords.ofJson_eq_ok_iff]
  constructor
  · rintro ⟨u, hu, a, ha, v, hv, b, hb, w, hw, c, hc, h⟩
    cases h
    exact ⟨⟨u, hu, ha⟩, ⟨v, hv, hb⟩, ⟨w, hw, hc⟩⟩
  · rintro ⟨⟨u, hu, ha⟩, ⟨v, hv, hb⟩, ⟨w, hw, hc⟩⟩
    exact ⟨u, hu, _, ha, v, hv, _, hb, w, hw, _, hc, rfl⟩

namespace DeciderProof

variable {doc : Json} {p : DeciderProof}

theorem layout_of_ofJson (h : ofJson doc = .ok p) : Layout .lenient doc p := by
  simp only [ofJson, bind_eq_ok_iff, Json.member_eq_ok_iff] at h
  obtain ⟨c, hc, challenges, hchallenges, e, he, evals, hevals, o, ho, h⟩ := h
  split at h
  · simp only [bind_eq_ok_iff, Json.requireSize_eq_ok_iff, Json.member_eq_ok_iff] at h
    obtain ⟨-, hsize, s, hs, steps, hsteps, z, hz, initial, hinitial, z', hz', final, hfinal,
      u, hu, W, hW, witness, hwitness, u', hu', E, hE, errorTerm, herrorTerm, f, hf, fresh, hfresh,
      t, ht, cross, hcross, r, hr, randomness, hrandomness, g, hg, groth16, hgroth16,
      a, ha, openingW, hopeningW, b, hb, openingE, hopeningE, h⟩ := h
    split at h
    · cases h
      obtain rfl : u = u' := hu.unique hu'
      rw [G2Coords.listOfJson_eq_pair_iff] at hchallenges hevals
      rw [Word.ofJson_eq_ok_iff] at hsteps hrandomness
      rw [wordsForm_iff] at hinitial hfinal
      rw [G1Coords.ofJson_eq_ok_iff] at hwitness herrorTerm hfresh hcross
      exact {
        steps := ⟨s, hs, hsteps⟩
        initialState := ⟨z, hz, hinitial⟩
        finalState := ⟨z', hz', hfinal⟩
        running := ⟨u, hu, ⟨W, hW, hwitness⟩, E, hE, herrorTerm⟩
        freshWitness := ⟨f, hf, hfresh⟩
        crossTerm := ⟨t, ht, hcross⟩
        randomness := ⟨r, hr, hrandomness⟩
        groth16 := ⟨g, hg, Groth16Proof.ofJson_eq_ok_iff.mp hgroth16⟩
        challenges := ⟨c, hc, hchallenges⟩
        evals := ⟨e, he, hevals⟩
        openings := ⟨o, ho, openingsForm_iff.mpr ⟨hsize, ⟨a, ha, hopeningW⟩, b, hb, hopeningE⟩⟩ }
    · cases h
  · cases h

theorem ofJson_of_layout (h : Layout .lenient doc p) : ofJson doc = .ok p := by
  obtain ⟨⟨s, hs, hsteps⟩, ⟨z, hz, hinitial⟩, ⟨z', hz', hfinal⟩,
    ⟨u, hu, ⟨W, hW, hwitness⟩, E, hE, herrorTerm⟩, ⟨f, hf, hfresh⟩, ⟨t, ht, hcross⟩,
    ⟨r, hr, hrandomness⟩, ⟨g, hg, hgroth16⟩, ⟨c, hc, hchallenges⟩, ⟨e, he, hevals⟩,
    o, ho, hopenings⟩ := h
  obtain ⟨hsize, ⟨a, ha, hopeningW⟩, b, hb, hopeningE⟩ := openingsForm_iff.mp hopenings
  rw [← Json.member_eq_ok_iff] at hs hz hz' hu hW hE hf ht hr hg hc he ho
  rw [← G2Coords.listOfJson_eq_pair_iff] at hchallenges hevals
  rw [← Word.ofJson_eq_ok_iff] at hsteps hrandomness
  rw [← wordsForm_iff] at hinitial hfinal
  rw [← G1Coords.ofJson_eq_ok_iff] at hwitness herrorTerm hfresh hcross
  rw [← Groth16Proof.ofJson_eq_ok_iff] at hgroth16
  have hrequire : o.requireSize 2 .twoEntries = .ok () := Json.requireSize_eq_ok_iff.mpr hsize
  have hbind {α β : Type} (a : α) (f : α → Except Fault β) : (Except.ok a >>= f) = f a := rfl
  simp only [ofJson, hbind, hs, hz, hz', hu, hW, hE, hf, ht, hr, hg, hc, he, ho, hchallenges,
    hevals, hsteps, hrandomness, hinitial, hfinal, hwitness, herrorTerm, hfresh, hcross, hgroth16,
    hrequire, ha, hb, hopeningW, hopeningE, dif_pos p.same_length]
  rfl

theorem ofJson_eq_ok_iff : ofJson doc = .ok p ↔ Layout .lenient doc p :=
  ⟨layout_of_ofJson, ofJson_of_layout⟩

/-- Exactly the documents of the layout are read, where a string or an object may stand for an
array. All documents whose lists are arrays are among them, and where nothing else stands in
a place of a list, no others are. -/
theorem documents_layout (doc : Json) (p : DeciderProof) :
    (ofJson doc = .ok p ↔ Layout .lenient doc p) ∧
    (Layout .arrays doc p → ofJson doc = .ok p) ∧
    ((∀ v, ListPlace .arrays doc v → v.standsIn = false) →
      (ofJson doc = .ok p ↔ Layout .arrays doc p)) := by
  have harrays (h : Layout .arrays doc p) : ofJson doc = .ok p :=
    ofJson_of_layout (h.mono fun v _ => Listing.arrays_within_lenient v)
  refine ⟨ofJson_eq_ok_iff, harrays, ?_⟩
  intro hplaces
  constructor
  · intro h
    exact (layout_of_ofJson h).mono fun v hv => Listing.lenient_within_arrays (hplaces v hv)
  · exact harrays

/-- The counting proof in several spellings, but for its states. -/
def countingDocument (initialState finalState : Json) : Json :=
  .record [("steps", .ofString " 0x0"), ("z_0", initialState), ("z_i", finalState),
    ("U_i", .record [("cmW", .arr [.int 3, .int 4]), ("cmE", .arr [.int 5, .ofString "+6"])]),
    ("u_i_cmW", .arr [.int 7, .int 8, .ofString "1"]),
    ("cmT", .arr [.ofString "9", .ofString "1_0"]),
    ("r", .int 11),
    ("groth16", .record [("pi_a", .arr [.int 12, .int 13]),
      ("pi_b", .arr [.arr [.int 15, .int 14], .arr [.int 17, .int 16], .arr [.int 1, .int 0]]),
      ("pi_c", .arr [.int 18, .int 19])]),
    ("challenges", .arr [.int 20, .int 21]),
    ("evals", .arr [.int 22, .ofString "0X17"]),
    ("kzg_proofs", .arr [.arr [.int 24, .int 25], .arr [.int 26, .int 27]])]

theorem standsIn_of_listPlace {v : Json}
    (hv : ListPlace .arrays (countingDocument (.arr [.int 1]) (.arr [.ofString "0x2"])) v) :
    v.standsIn = false := by
  cases hv with
  | member hkey h =>
    obtain ⟨_, ⟨⟩, hfind⟩ := h
    simp only [List.mem_cons, List.not_mem_nil, or_false] at hkey
    rcases hkey with rfl | rfl | rfl | rfl | rfl | rfl | rfl <;>
      · cases hfind
        rfl
  | commitment hkey hu h =>
    obtain ⟨_, ⟨⟩, ⟨⟩⟩ := hu
    obtain ⟨_, ⟨⟩, hfind⟩ := h
    simp only [List.mem_cons, List.not_mem_nil, or_false] at hkey
    rcases hkey with rfl | rfl <;>
      · cases hfind
        rfl
  | groth16 hkey hu h =>
    obtain ⟨_, ⟨⟩, ⟨⟩⟩ := hu
    obtain ⟨_, ⟨⟩, hfind⟩ := h
    simp only [List.mem_cons, List.not_mem_nil, or_false] at hkey
    rcases hkey with rfl | rfl | rfl <;>
      · cases hfind
        rfl
  | pair hu hv hvs h =>
    obtain ⟨_, ⟨⟩, ⟨⟩⟩ := hu
    obtain ⟨_, ⟨⟩, ⟨⟩⟩ := hv
    cases hvs
    simp only [List.mem_cons, List.not_mem_nil, or_false] at h
    rcases h with rfl | rfl | rfl <;> rfl
  | opening hv hvs h =>
    obtain ⟨_, ⟨⟩, ⟨⟩⟩ := hv
    cases hvs
    simp only [List.mem_cons, List.not_mem_nil, or_false] at h
    rcases h with rfl | rfl <;> rfl

/-- The layout is seen from what is read, and the other way round. -/
theorem documents_layout_countingDocument :
    let doc := countingDocument (.arr [.int 1]) (.arr [.ofString "0x2"])
    Layout .arrays doc countingProof ∧ Layout .lenient doc countingProof ∧
      ofJson doc = .ok countingProof := by
  have hread : ofJson (countingDocument (.arr [.int 1]) (.arr [.ofString "0x2"])) =
      .ok countingProof := by decide
  obtain ⟨hlenient, harrays, hplaces⟩ := documents_layout
    (countingDocument (.arr [.int 1]) (.arr [.ofString "0x2"])) countingProof
  have hlayout := (hplaces fun v hv => standsIn_of_listPlace hv).mp hread
  exact ⟨hlayout, hlenient.mp hread, harrays hlayout⟩

/-- The states are strings here, which are read digit by digit. -/
theorem documents_layout_stringStates :
    ofJson (countingDocument (.ofString "1") (.ofString "2")) = .ok countingProof ∧
      ¬Layout .arrays (countingDocument (.ofString "1") (.ofString "2")) countingProof := by
  refine ⟨by decide, ?_⟩
  intro h
  obtain ⟨v, ⟨_, ⟨⟩, ⟨⟩⟩, vs, hvs, -⟩ := h.initialState
  cases hvs

end DeciderProof
end FoldingVerifier
