import FoldingVerifier.Proofs.Flat
import FoldingVerifier.Proofs.Text.Grammar
import FoldingVerifier.Curve.Coords

/-! Words in documents. A value spells an integer if it is that integer or a string that is
written by the grammar; the spellings of the integers of 256 bits are what is read. -/
namespace FoldingVerifier

theorem Symbols.characters?_eq_some_iff {s : Symbols} {cs : List Char} :
    s.characters? = some cs ↔ s = cs.map .char := by
  constructor
  · intro h
    induction s generalizing cs with
    | nil =>
      cases h
      rfl
    | cons c s ih =>
      cases c with
      | char c =>
        obtain ⟨ds, hds, rfl⟩ := Option.map_eq_some_iff.mp h
        rw [List.map_cons, ih hds]
      | half i => cases h
  · rintro rfl
    exact characters?_map_char cs

/-- The spellings of an integer by a grammar of texts, whatever its size and sign. -/
inductive Json.Spells (grammar : List Char → ℤ → Prop) : Json → ℤ → Prop where
  | integer (n : ℤ) : Spells grammar (.int n) n
  | text {cs : List Char} {n : ℤ} (h : grammar cs n) : Spells grammar (.str (cs.map .char)) n

namespace Json

variable {grammar : List Char → ℤ → Prop} {read : String → Option ℤ} {n : ℤ}

theorem spells_int_iff {m : ℤ} : Spells grammar (.int m) n ↔ m = n := by
  constructor
  · intro h
    cases h
    rfl
  · rintro rfl
    exact .integer m

theorem spells_str_iff (hread : ∀ {t n}, read t = some n ↔ grammar t.toList n) {s : Symbols} :
    Spells grammar (.str s) n ↔ s.toString?.bind read = some n := by
  simp only [Symbols.toString?, Option.bind_map, Option.bind_eq_some_iff,
    Symbols.characters?_eq_some_iff, Function.comp_apply, hread, String.toList_ofList]
  constructor
  · intro h
    cases h with
    | text h => exact ⟨_, rfl, h⟩
  · rintro ⟨cs, rfl, h⟩
    exact .text h

end Json

namespace Word

/-- Words are spelled in decimal or in hexadecimal. -/
def Spells (v : Json) (n : ℤ) : Prop := Json.Spells Text.WordText v n

/-- The value of a word. -/
def Denotes (v : Json) (n : ℤ) : Prop := Spells v n ∧ 0 ≤ n ∧ n < 2 ^ 256

variable {v : Json} {n : ℤ}

theorem inRange_eq_ok_iff {shown : String} {m : ℤ} :
    inRange shown m = .ok n ↔ m = n ∧ 0 ≤ n ∧ n < 2 ^ 256 := by
  have hbound : bound = 2 ^ 256 := rfl
  rw [inRange, hbound]
  split_ifs with h
  · rw [Except.ok.injEq]
    constructor
    · rintro rfl
      exact ⟨rfl, h⟩
    · exact And.left
  · simp only [false_iff]
    rintro ⟨rfl, hm⟩
    exact h hm

theorem Spells.unique {m : ℤ} (h : Spells v n) (h' : Spells v m) : n = m := by
  cases h with
  | integer => exact Json.spells_int_iff.mp h'
  | text h =>
    have hread := (Json.spells_str_iff Text.word?_eq_some_iff).mp (.text h)
    rw [(Json.spells_str_iff Text.word?_eq_some_iff).mp h'] at hread
    exact (Option.some.inj hread).symm

/-- What is read as a word is a spelling of one. -/
theorem ofJson_eq_ok_iff : ofJson v = .ok n ↔ Denotes v n := by
  rw [Denotes, Spells]
  cases v with
  | int m => rw [ofJson, inRange_eq_ok_iff, Json.spells_int_iff]
  | str s =>
    rw [Json.spells_str_iff Text.word?_eq_some_iff, ofJson]
    cases s.toString? with
    | none => simp
    | some t =>
      rw [Option.bind_some]
      cases ht : Text.word? t with
      | none => simp [ht]
      | some m => simp only [ht, Option.some.injEq, inRange_eq_ok_iff]
  | null | bool _ | real _ | arr _ | obj _ =>
    refine iff_of_false ?_ ?_
    · rintro ⟨⟩
    · rintro ⟨⟨⟩, -⟩

theorem listOfJson_eq_ok_iff {ns : List ℤ} : listOfJson v = .ok ns ↔
    ∃ vs, v.items = .ok vs ∧ List.Forall₂ Denotes vs ns := by
  simp only [listOfJson, bind_eq_ok_iff, mapM_eq_ok_iff, ofJson_eq_ok_iff]

end Word
end FoldingVerifier
