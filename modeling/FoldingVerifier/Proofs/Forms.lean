import FoldingVerifier.Curve.Coords
import FoldingVerifier.Proofs.Words

/-! Forms that documents give to members, lists and points, said without the readers. A list
is meant to be an array. The readers also take a string for the array of its characters and,
where they need no positions, an object for the array of its keys; both conventions are kept
here side by side, and the second is shown to be what is read. -/
namespace FoldingVerifier

namespace Json

variable {v doc : Json} {vs : List Json}

/-- The document is an object with the value under the key. -/
def Has (doc : Json) (key : String) (v : Json) : Prop :=
  ∃ members, doc = .obj members ∧ find? (.ofString key) members = some v

theorem member_eq_ok_iff {key : String} : doc.member key = .ok v ↔ doc.Has key v := by
  cases doc with
  | obj members =>
    rw [member]
    cases hfind : find? (.ofString key) members with
    | none => simp [Has, hfind]
    | some w => simp [Has, hfind]
  | null | bool _ | int _ | real _ | str _ | arr _ => simp [Has, member]

theorem Has.unique {key : String} {w : Json} (hv : doc.Has key v) (hw : doc.Has key w) : v = w := by
  rw [← member_eq_ok_iff] at hv hw
  exact Except.ok.inj (hv.symm.trans hw)

/-- The document has a member of the form under the key. -/
def HasForm (doc : Json) (key : String) (form : Json → Prop) : Prop :=
  ∃ v, doc.Has key v ∧ form v

theorem HasForm.mono {key : String} {form form' : Json → Prop} (h : doc.HasForm key form)
    (hform : ∀ v, doc.Has key v → form v → form' v) : doc.HasForm key form' := by
  obtain ⟨v, hv, hmember⟩ := h
  exact ⟨v, hv, hform v hv hmember⟩

theorem HasForm.of_has {key : String} {form : Json → Prop} (h : doc.HasForm key form)
    (hv : doc.Has key v) : form v := by
  obtain ⟨w, hw, hform⟩ := h
  exact hv.unique hw ▸ hform

/-- Which values stand for which lists of items. -/
structure Listing where
  /-- Where the items are taken one after the other. -/
  listed : Json → List Json → Prop
  /-- Where they are asked for by their positions. -/
  indexed : Json → List Json → Prop
  listed_of_indexed : ∀ {v vs}, indexed v vs → listed v vs

/-- Lists are arrays. -/
def Listing.arrays : Listing where
  listed v vs := v = .arr vs
  indexed v vs := v = .arr vs
  listed_of_indexed h := h

/-- Strings and objects stand in for arrays. -/
def Listing.lenient : Listing where
  listed v vs := v = .arr vs ∨ (∃ s, v = .str s ∧ vs = characters s) ∨
    ∃ members, v = .obj members ∧ vs = members.map fun m => .str m.1
  indexed v vs := v = .arr vs ∨ ∃ s, v = .str s ∧ vs = characters s
  listed_of_indexed h := h.imp_right .inl

theorem items_eq_ok_iff : v.items = .ok vs ↔ Listing.lenient.listed v vs := by
  cases v <;> simp [items, Listing.lenient, eq_comm]

theorem items_of_indexed (h : Listing.lenient.indexed v vs) : v.items = .ok vs :=
  items_eq_ok_iff.mpr (Listing.lenient.listed_of_indexed h)

theorem size_of_items (h : v.items = .ok vs) : v.size = .ok vs.length := by
  cases v <;> simp_all [items, size, characters] <;> simp [← h]

/-- The entry at a position is that of the list. -/
theorem entry_eq_ok_iff {i : ℕ} {w : Json} :
    v.entry i = .ok w ↔ ∃ vs, Listing.lenient.indexed v vs ∧ vs[i]? = some w := by
  have hnth (vs : List Json) : nth i vs = .ok w ↔ vs[i]? = some w := by
    rw [nth]
    cases vs[i]? <;> simp
  cases v <;> simp [entry, Listing.lenient, hnth]

theorem requireSize_eq_ok_iff {n : ℕ} {cause : ValueFault} {u : Unit} :
    v.requireSize n cause = .ok u ↔ v.size = .ok n := by
  rw [requireSize]
  cases v.size with
  | error fault => exact iff_of_false (by rintro ⟨⟩) (by rintro ⟨⟩)
  | ok m =>
    rw [Except.ok.injEq]
    by_cases hm : m = n
    · exact iff_of_true (if_neg (not_not.mpr hm)) hm
    · refine iff_of_false ?_ hm
      intro h
      cases (if_pos hm).symm.trans h

/-- The values that may stand for a list without being an array. -/
def standsIn : Json → Bool
  | str _ => true
  | obj _ => true
  | _ => false

/-- What a value lists by one convention it also lists by another. -/
structure Listing.Within (F G : Listing) (v : Json) : Prop where
  listed : ∀ vs, F.listed v vs → G.listed v vs
  indexed : ∀ vs, F.indexed v vs → G.indexed v vs

theorem Listing.arrays_within_lenient (v : Json) : arrays.Within lenient v where
  listed _ h := .inl h
  indexed _ h := .inl h

theorem Listing.lenient_within_arrays (hv : v.standsIn = false) : lenient.Within arrays v := by
  have hlisted (vs : List Json) (h : lenient.listed v vs) : v = .arr vs := by
    rcases h with rfl | ⟨s, rfl, -⟩ | ⟨members, rfl, -⟩
    · rfl
    · cases hv
    · cases hv
  exact ⟨hlisted, fun vs h => hlisted vs (lenient.listed_of_indexed h)⟩

end Json

open Json (Listing)

/-- Two words. -/
def PairForm (F : Listing) (v : Json) (m n : ℤ) : Prop :=
  ∃ a b, F.listed v [a, b] ∧ Word.Denotes a m ∧ Word.Denotes b n

/-- The coordinates of a point, or with a third one that is one. -/
inductive G1Items : List Json → G1Coords → Prop where
  | affine {a b : Json} {x y : ℤ} (hx : Word.Denotes a x) (hy : Word.Denotes b y) :
      G1Items [a, b] ⟨x, y⟩
  | projective {a b c : Json} {x y : ℤ} (hx : Word.Denotes a x) (hy : Word.Denotes b y)
      (hz : Word.Denotes c 1) : G1Items [a, b, c] ⟨x, y⟩

def G1Form (F : Listing) (v : Json) (P : G1Coords) : Prop := ∃ vs, F.indexed v vs ∧ G1Items vs P

/-- Two pairs, or with a third one that is one. -/
inductive G2Form (F : Listing) (v : Json) : G2Coords → Prop where
  | affine {a b : Json} {x0 x1 y0 y1 : ℤ} (h : F.listed v [a, b]) (hx : PairForm F a x0 x1)
      (hy : PairForm F b y0 y1) : G2Form F v ⟨x0, x1, y0, y1⟩
  | projective {a b c : Json} {x0 x1 y0 y1 : ℤ} (h : F.indexed v [a, b, c])
      (hx : PairForm F a x0 x1) (hy : PairForm F b y0 y1) (hz : PairForm F c 1 0) :
      G2Form F v ⟨x0, x1, y0, y1⟩

section Within

variable {F G : Listing} {v : Json}

theorem PairForm.mono {m n : ℤ} (hv : F.Within G v) (h : PairForm F v m n) : PairForm G v m n := by
  obtain ⟨a, b, hab, ha, hb⟩ := h
  exact ⟨a, b, hv.listed _ hab, ha, hb⟩

theorem G1Form.mono {P : G1Coords} (hv : F.Within G v) (h : G1Form F v P) : G1Form G v P := by
  obtain ⟨vs, hvs, hP⟩ := h
  exact ⟨vs, hv.indexed _ hvs, hP⟩

theorem G2Form.mono {Q : G2Coords} (hv : F.Within G v)
    (hpairs : ∀ vs, G.listed v vs → ∀ w ∈ vs, F.Within G w) (h : G2Form F v Q) :
    G2Form G v Q := by
  cases h with
  | affine h hx hy =>
    have hlist := hv.listed _ h
    have hpair := hpairs _ hlist
    exact .affine hlist (hx.mono (hpair _ (by simp))) (hy.mono (hpair _ (by simp)))
  | projective h hx hy hz =>
    have hlist := hv.indexed _ h
    have hpair := hpairs _ (G.listed_of_indexed hlist)
    exact .projective hlist (hx.mono (hpair _ (by simp))) (hy.mono (hpair _ (by simp)))
      (hz.mono (hpair _ (by simp)))

end Within

namespace G1Coords

variable {v : Json} {vs : List Json} {P : G1Coords}

theorem ofJson_pair (a b : Json) : ofJson (.arr [a, b]) = (do
    let x ← Word.ofJson a
    let y ← Word.ofJson b
    return ⟨x, y⟩) := rfl

/-- A third coordinate is looked at first. -/
theorem ofJson_triple (a b c : Json) : ofJson (.arr [a, b, c]) = (do
    let z ← Word.ofJson c
    if z = 1 then ofJson (.arr [a, b]) else throw (.value .projectiveG1)) := by
  change (Word.ofJson c >>= fun z =>
    if z ≠ 1 then throw (.value .projectiveG1) else ofJson (.arr [a, b])) = _
  simp only [ite_not]

theorem ofJson_arr_of_length (h2 : vs.length ≠ 2) (h3 : vs.length ≠ 3) :
    ofJson (.arr vs) = .error (.value (.g1CoordinateCount vs.length)) := by
  change (if vs.length = 3 then _ else if vs.length ≠ 2 then _ else _) = _
  rw [if_neg h3, if_pos h2]
  rfl

theorem ofJson_str (s : Symbols) : ofJson (.str s) = ofJson (.arr (Json.characters s)) := by
  have hsize : (Json.str s).size = (Json.arr (Json.characters s)).size := by
    simp [Json.size, Json.characters]
  have hword (i : ℕ) : (Json.str s).wordAt i = (Json.arr (Json.characters s)).wordAt i := rfl
  simp only [ofJson, hsize, hword]

/-- An object has no entries to begin with. -/
theorem ofJson_obj_ne_ok (members : List (Symbols × Json)) : ofJson (.obj members) ≠ .ok P := by
  intro h
  obtain ⟨n, -, h⟩ := exists_of_bind_eq_ok h
  have hword (i : ℕ) : (Json.obj members).wordAt i = .error (.missingPosition i) := rfl
  simp only [hword] at h
  split_ifs at h <;> cases h

theorem ofJson_arr_eq_ok_iff : ofJson (.arr vs) = .ok P ↔ G1Items vs P := by
  constructor
  · intro h
    rcases vs with _ | ⟨a, _ | ⟨b, _ | ⟨c, _ | ⟨d, vs⟩⟩⟩⟩
    · cases h
    · cases h
    · simp only [ofJson_pair, bind_eq_ok_iff, Word.ofJson_eq_ok_iff] at h
      obtain ⟨x, hx, y, hy, h⟩ := h
      cases h
      exact .affine hx hy
    · simp only [ofJson_triple, bind_eq_ok_iff, Word.ofJson_eq_ok_iff] at h
      obtain ⟨z, hz, h⟩ := h
      split_ifs at h with hone
      · simp only [ofJson_pair, bind_eq_ok_iff, Word.ofJson_eq_ok_iff] at h
        obtain ⟨x, hx, y, hy, h⟩ := h
        cases h
        exact .projective hx hy (hone ▸ hz)
    · rw [ofJson_arr_of_length (by simp) (by simp)] at h
      cases h
  · intro h
    cases h with
    | affine hx hy =>
      rw [ofJson_pair, Word.ofJson_eq_ok_iff.mpr hx, Word.ofJson_eq_ok_iff.mpr hy]
      rfl
    | projective hx hy hz =>
      rw [ofJson_triple, ofJson_pair, Word.ofJson_eq_ok_iff.mpr hx, Word.ofJson_eq_ok_iff.mpr hy,
        Word.ofJson_eq_ok_iff.mpr hz]
      rfl

theorem ofJson_eq_ok_iff : ofJson v = .ok P ↔ G1Form .lenient v P := by
  cases v with
  | arr vs => simp [ofJson_arr_eq_ok_iff, G1Form, Listing.lenient]
  | str s => simp [ofJson_str, ofJson_arr_eq_ok_iff, G1Form, Listing.lenient]
  | obj members => simp [ofJson_obj_ne_ok, G1Form, Listing.lenient]
  | null | bool _ | int _ | real _ =>
    refine iff_of_false (fun h => by cases h) ?_
    simp [G1Form, Listing.lenient]

end G1Coords

namespace G2Coords

variable {v : Json} {vs : List Json} {Q : G2Coords}

theorem listOfJson_eq_pair_iff {m n : ℤ} :
    Word.listOfJson v = .ok [m, n] ↔ PairForm .lenient v m n := by
  simp only [Word.listOfJson_eq_ok_iff, Json.items_eq_ok_iff, List.forall₂_cons_right_iff,
    List.forall₂_nil_right_iff, PairForm]
  constructor
  · rintro ⟨_, hv, a, _, ha, ⟨b, _, hb, rfl, rfl⟩, rfl⟩
    exact ⟨a, b, hv, ha, hb⟩
  · rintro ⟨a, b, hv, ha, hb⟩
    exact ⟨_, hv, a, _, ha, ⟨b, _, hb, rfl, rfl⟩, rfl⟩

/-- What is left to do once the number of the pairs is known. -/
def readPairs (pairs : List Json) : Except Fault G2Coords := do
  pairs.forM (·.requireSize 2 .g2Coordinates)
  ofPairs pairs

theorem readPairs_eq (a b : Json) : readPairs [a, b] = (do
    a.requireSize 2 .g2Coordinates
    b.requireSize 2 .g2Coordinates
    ofPairs [a, b]) := by
  simp [readPairs, List.forM_cons]

theorem readPairs_eq_ok_iff {a b : Json} : readPairs [a, b] = .ok Q ↔
    PairForm .lenient a Q.x0 Q.x1 ∧ PairForm .lenient b Q.y0 Q.y1 := by
  simp only [readPairs_eq, bind_eq_ok_iff, Json.requireSize_eq_ok_iff, ofPairs, PairForm,
    ← Json.items_eq_ok_iff, ← Word.ofJson_eq_ok_iff]
  constructor
  · rintro ⟨-, -, -, -, us, hus, ws, hws, h⟩
    split at h
    · simp only [bind_eq_ok_iff] at h
      obtain ⟨x0, hx0, x1, hx1, y0, hy0, y1, hy1, h⟩ := h
      cases h
      exact ⟨⟨_, _, hus, hx0, hx1⟩, _, _, hws, hy0, hy1⟩
    · cases h
  · rintro ⟨⟨a0, a1, ha, hx0, hx1⟩, b0, b1, hb, hy0, hy1⟩
    refine ⟨(), Json.size_of_items ha, (), Json.size_of_items hb, _, ha, _, hb, ?_⟩
    simp only [hx0, hx1, hy0, hy1]
    rfl

theorem ofJson_of_size_two (h : v.size = .ok 2) :
    ofJson v = v.items >>= fun vs => readPairs (vs.take 2) := by
  rw [ofJson, h]
  rfl

/-- A third pair is looked at first. -/
theorem ofJson_of_size_three (h : v.size = .ok 3) : ofJson v = (do
    let ws ← Word.listOfJson (← v.entry 2)
    if ws = [1, 0] then v.items >>= fun vs => readPairs (vs.take 2)
    else throw (.value .projectiveG2)) := by
  rw [ofJson, h]
  change (v.entry 2 >>= fun w => Word.listOfJson w >>= fun ws =>
    if ws ≠ [1, 0] then throw (.value .projectiveG2)
    else v.items >>= fun vs => readPairs (vs.take 2)) = _
  simp only [ite_not]

theorem size_of_ofJson (h : ofJson v = .ok Q) : v.size = .ok 2 ∨ v.size = .ok 3 := by
  obtain ⟨n, hn, h⟩ := exists_of_bind_eq_ok h
  rw [hn, Except.ok.injEq, Except.ok.injEq]
  by_contra hne
  obtain ⟨h2, h3⟩ := not_or.mp hne
  rw [if_neg h3, if_pos h2] at h
  cases h

theorem ofJson_eq_ok_iff : ofJson v = .ok Q ↔ G2Form .lenient v Q := by
  constructor
  · intro h
    rcases size_of_ofJson h with hsize | hsize
    · rw [ofJson_of_size_two hsize] at h
      obtain ⟨vs, hvs, h⟩ := exists_of_bind_eq_ok h
      have hlength : vs.length = 2 := by
        rwa [Json.size_of_items hvs, Except.ok.injEq] at hsize
      obtain ⟨a, b, rfl⟩ := List.length_eq_two.mp hlength
      obtain ⟨hx, hy⟩ := readPairs_eq_ok_iff.mp h
      exact .affine (Json.items_eq_ok_iff.mp hvs) hx hy
    · simp only [ofJson_of_size_three hsize, bind_eq_ok_iff, Json.entry_eq_ok_iff] at h
      obtain ⟨c, ⟨vs, hvs, hc⟩, ws, hws, h⟩ := h
      have hlength : vs.length = 3 := by
        rwa [Json.size_of_items (Json.items_of_indexed hvs), Except.ok.injEq] at hsize
      obtain ⟨a, b, d, rfl⟩ := List.length_eq_three.mp hlength
      obtain rfl : d = c := by simpa using hc
      split_ifs at h with hone
      rw [Json.items_of_indexed hvs] at h
      obtain ⟨hx, hy⟩ := readPairs_eq_ok_iff.mp h
      exact .projective hvs hx hy (listOfJson_eq_pair_iff.mp (hone ▸ hws))
  · intro h
    cases h with
    | affine hv hx hy =>
      have hitems := Json.items_eq_ok_iff.mpr hv
      rw [ofJson_of_size_two (Json.size_of_items hitems), hitems]
      exact readPairs_eq_ok_iff.mpr ⟨hx, hy⟩
    | projective hv hx hy hz =>
      have hitems := Json.items_of_indexed hv
      simp only [ofJson_of_size_three (Json.size_of_items hitems), bind_eq_ok_iff]
      refine ⟨_, Json.entry_eq_ok_iff.mpr ⟨_, hv, rfl⟩, _, listOfJson_eq_pair_iff.mpr hz, ?_⟩
      rw [if_pos rfl, hitems]
      exact readPairs_eq_ok_iff.mpr ⟨hx, hy⟩

end G2Coords
end FoldingVerifier
