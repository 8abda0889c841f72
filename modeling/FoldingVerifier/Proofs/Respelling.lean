import FoldingVerifier.Proofs.Forms
import Mathlib.Logic.Relation

/-! Documents with other spellings in them. Items and members are replaced, integers by other
spellings of them and points by their three coordinates, of which the last is one. A reader
whose steps end alike on related values ends alike on both documents, and so do the readers of
words and of points. -/
namespace FoldingVerifier

/-- Either both runs return, and then related values, or neither does. -/
inductive Alike {α β : Type} (R : α → β → Prop) : Except Fault α → Except Fault β → Prop where
  | returns {a : α} {b : β} (h : R a b) : Alike R (.ok a) (.ok b)
  | fails (c c' : Fault) : Alike R (.error c) (.error c')

namespace Alike

variable {α β γ δ : Type} {R : α → β → Prop} {S : γ → δ → Prop} {r : Except Fault α}
  {r' : Except Fault β}

theorem refl {R : α → α → Prop} [Std.Refl R] (r : Except Fault α) : Alike R r r := by
  cases r with
  | error c => exact .fails c c
  | ok a => exact .returns (Std.Refl.refl a)

theorem ok_iff {r r' : Except Fault α} (h : Alike Eq r r') (a : α) : r = .ok a ↔ r' = .ok a := by
  cases h with
  | returns h => rw [h]
  | fails => simp

theorem of_ok_iff {r r' : Except Fault α} (h : ∀ a, r = .ok a ↔ r' = .ok a) : Alike Eq r r' := by
  cases r with
  | ok a =>
    rw [(h a).mp rfl]
    exact .returns rfl
  | error c =>
    cases r' with
    | ok a => cases (h a).mpr rfl
    | error c' => exact .fails c c'

theorem bind {f : α → Except Fault γ} {g : β → Except Fault δ} (h : Alike R r r')
    (hfg : ∀ a b, R a b → Alike S (f a) (g b)) : Alike S (r >>= f) (r' >>= g) := by
  cases h with
  | returns h => exact hfg _ _ h
  | fails c c' => exact .fails c c'

/-- The same value goes on in the same way. -/
theorem bind_eq {r r' : Except Fault α} {f : α → Except Fault γ} {g : α → Except Fault δ}
    (h : Alike Eq r r') (hfg : ∀ a, Alike S (f a) (g a)) : Alike S (r >>= f) (r' >>= g) := by
  refine h.bind ?_
  rintro a _ rfl
  exact hfg a

theorem mapM {f : α → Except Fault γ} {g : β → Except Fault γ} {as : List α} {bs : List β}
    (h : List.Forall₂ R as bs) (hfg : ∀ a b, R a b → Alike Eq (f a) (g b)) :
    Alike Eq (as.mapM f) (bs.mapM g) := by
  induction h with
  | nil => exact .refl _
  | cons h _ ih =>
    rw [List.mapM_cons, List.mapM_cons]
    exact (hfg _ _ h).bind_eq fun c => ih.bind_eq fun cs => .refl _

end Alike

open Relation (ReflGen)

namespace Json

/-- Items of an array are replaced by related ones. -/
def ItemsReplaced (R : Json → Json → Prop) (v w : Json) : Prop :=
  ∃ vs ws, v = .arr vs ∧ w = .arr ws ∧ List.Forall₂ (ReflGen R) vs ws

/-- The value is replaced by one that is related to it in the way of the key. -/
def MemberReplaced (R : String → Json → Json → Prop) (m m' : Symbols × Json) : Prop :=
  m.1 = m'.1 ∧ (m.2 = m'.2 ∨ ∃ key, m.1 = .ofString key ∧ R key m.2 m'.2)

def MembersReplaced (R : String → Json → Json → Prop) (v w : Json) : Prop :=
  ∃ ms ms', v = .obj ms ∧ w = .obj ms' ∧ List.Forall₂ (MemberReplaced R) ms ms'

end Json

namespace Word

/-- Two spellings of one integer. -/
def Respelled (v w : Json) : Prop := ∃ n, Spells v n ∧ Spells w n

end Word

inductive G1Respelled : Json → Json → Prop where
  | coordinates {v w : Json} (h : Json.ItemsReplaced Word.Respelled v w) : G1Respelled v w
  | projective {a b a' b' one : Json} (ha : ReflGen Word.Respelled a a')
      (hb : ReflGen Word.Respelled b b') (hone : Word.Spells one 1) :
      G1Respelled (.arr [a, b]) (.arr [a', b', one])

inductive G2Respelled : Json → Json → Prop where
  | coordinates {v w : Json} (h : Json.ItemsReplaced (Json.ItemsReplaced Word.Respelled) v w) :
      G2Respelled v w
  | projective {a b a' b' one zero : Json} (ha : ReflGen (Json.ItemsReplaced Word.Respelled) a a')
      (hb : ReflGen (Json.ItemsReplaced Word.Respelled) b b') (hone : Word.Spells one 1)
      (hzero : Word.Spells zero 0) : G2Respelled (.arr [a, b]) (.arr [a', b', .arr [one, zero]])

namespace Json

variable {R : String → Json → Json → Prop} {v w : Json}

theorem find?_replaced {ms ms' : List (Symbols × Json)}
    (h : List.Forall₂ (MemberReplaced R) ms ms') (key : String) : Option.Rel
      (ReflGen (R key)) (find? (.ofString key) ms) (find? (.ofString key) ms') := by
  induction h with
  | nil => exact .none
  | @cons m m' _ _ h _ ih =>
    obtain ⟨hkey, hvalue⟩ := h
    rw [find?, find?, ← hkey]
    split_ifs with hm
    · refine .some ?_
      rcases hvalue with heq | ⟨other, hother, hR⟩
      · exact heq ▸ .refl
      · obtain rfl : other = key := Symbols.ofString_injective (hother.symm.trans hm)
        exact .single hR
    · exact ih

theorem alike_member (h : ReflGen (MembersReplaced R) v w) (key : String) :
    Alike (ReflGen (R key)) (v.member key) (w.member key) := by
  rcases h with _ | ⟨ms, ms', rfl, rfl, h⟩
  · exact .refl _
  · have hfind := find?_replaced h key
    rw [member, member]
    generalize find? (.ofString key) ms = r, find? (.ofString key) ms' = r' at hfind ⊢
    cases hfind with
    | none => exact .fails _ _
    | some hR => exact .returns hR

/-- What stands in for a missing member is the same on both sides. -/
theorem alike_memberD (h : ReflGen (MembersReplaced R) v w) (key : String) (absent : Json) :
    Alike (ReflGen (R key)) (v.memberD key absent) (w.memberD key absent) := by
  rcases h with _ | ⟨ms, ms', rfl, rfl, h⟩
  · exact .refl _
  · have hfind := find?_replaced h key
    rw [memberD, memberD]
    generalize find? (.ofString key) ms = r, find? (.ofString key) ms' = r' at hfind ⊢
    cases hfind with
    | none => exact .returns .refl
    | some hR => exact .returns hR

end Json

theorem Alike.of_reflGen {α : Type} {f : Json → Except Fault α} {R : Json → Json → Prop}
    {v w : Json} (hR : ∀ v w, R v w → Alike Eq (f v) (f w)) (h : ReflGen R v w) :
    Alike Eq (f v) (f w) := by
  cases h with
  | refl => exact .refl _
  | single h => exact hR v w h

theorem Alike.mapM_replaced {α : Type} {f : Json → Except Fault α} {R : Json → Json → Prop}
    {vs ws : List Json} (hR : ∀ v w, R v w → Alike Eq (f v) (f w))
    (h : List.Forall₂ (ReflGen R) vs ws) : Alike Eq (vs.mapM f) (ws.mapM f) :=
  .mapM h fun _ _ => .of_reflGen hR

namespace Word

theorem alike_ofJson (v w : Json) (h : Respelled v w) : Alike Eq (ofJson v) (ofJson w) := by
  obtain ⟨n, hv, hw⟩ := h
  refine .of_ok_iff ?_
  intro m
  rw [ofJson_eq_ok_iff, ofJson_eq_ok_iff, Denotes, Denotes]
  refine and_congr_left fun _ => ?_
  constructor
  · intro h
    exact hv.unique h ▸ hw
  · intro h
    exact hw.unique h ▸ hv

theorem alike_listOfJson (v w : Json) (h : Json.ItemsReplaced Respelled v w) :
    Alike Eq (listOfJson v) (listOfJson w) := by
  obtain ⟨vs, ws, rfl, rfl, h⟩ := h
  exact .mapM_replaced alike_ofJson h

theorem ofJson_of_spells_one {v : Json} (h : Spells v 1) : ofJson v = .ok 1 :=
  ofJson_eq_ok_iff.mpr ⟨h, by norm_num⟩

theorem ofJson_of_spells_zero {v : Json} (h : Spells v 0) : ofJson v = .ok 0 :=
  ofJson_eq_ok_iff.mpr ⟨h, by norm_num⟩

end Word

namespace G1Coords

variable {vs ws : List Json}

theorem alike_ofJson_pair {a b a' b' : Json} (ha : ReflGen Word.Respelled a a')
    (hb : ReflGen Word.Respelled b b') :
    Alike Eq (ofJson (.arr [a, b])) (ofJson (.arr [a', b'])) := by
  have hx := Alike.of_reflGen Word.alike_ofJson ha
  have hy := Alike.of_reflGen Word.alike_ofJson hb
  rw [ofJson_pair, ofJson_pair]
  exact hx.bind_eq fun x => hy.bind_eq fun y => .refl _

theorem alike_ofJson_arr (h : List.Forall₂ (ReflGen Word.Respelled) vs ws) :
    Alike Eq (ofJson (.arr vs)) (ofJson (.arr ws)) := by
  by_cases hlength : vs.length = 2 ∨ vs.length = 3
  · -- a list of the same length stands on the other side
    rcases h with _ | ⟨ha, _ | ⟨hb, _ | ⟨hc, _ | _⟩⟩⟩
    · simp at hlength
    · simp at hlength
    · exact alike_ofJson_pair ha hb
    · rw [ofJson_triple, ofJson_triple]
      refine (Alike.of_reflGen Word.alike_ofJson hc).bind_eq fun z => ?_
      split_ifs
      · exact alike_ofJson_pair ha hb
      · exact .refl _
    · simp at hlength
  · obtain ⟨h2, h3⟩ := not_or.mp hlength
    rw [ofJson_arr_of_length h2 h3, ofJson_arr_of_length (h.length_eq ▸ h2) (h.length_eq ▸ h3)]
    exact .fails _ _

theorem alike_ofJson (v w : Json) (h : G1Respelled v w) : Alike Eq (ofJson v) (ofJson w) := by
  cases h with
  | coordinates h =>
    obtain ⟨vs, ws, rfl, rfl, h⟩ := h
    exact alike_ofJson_arr h
  | @projective a b a' b' one ha hb hone =>
    have hread : ofJson (.arr [a', b', one]) = ofJson (.arr [a', b']) := by
      rw [ofJson_triple, Word.ofJson_of_spells_one hone]
      rfl
    rw [hread]
    exact alike_ofJson_pair ha hb

end G1Coords

namespace G2Coords

variable {vs ws : List Json}

/-- Two pairs that are read alike. -/
theorem alike_readPairs {a b a' b' : Json}
    (ha : ReflGen (Json.ItemsReplaced Word.Respelled) a a')
    (hb : ReflGen (Json.ItemsReplaced Word.Respelled) b b') :
    Alike Eq (readPairs [a, b]) (readPairs [a', b']) := by
  have hx := Alike.of_reflGen Word.alike_listOfJson ha
  have hy := Alike.of_reflGen Word.alike_listOfJson hb
  refine .of_ok_iff ?_
  intro Q
  rw [readPairs_eq_ok_iff, readPairs_eq_ok_iff]
  simp only [← listOfJson_eq_pair_iff, hx.ok_iff, hy.ok_iff]

theorem ofJson_pair (a b : Json) : ofJson (.arr [a, b]) = readPairs [a, b] :=
  ofJson_of_size_two rfl

theorem ofJson_triple (a b c : Json) : ofJson (.arr [a, b, c]) = (do
    let ws ← Word.listOfJson c
    if ws = [1, 0] then readPairs [a, b] else throw (.value .projectiveG2)) :=
  ofJson_of_size_three rfl

theorem alike_ofJson_arr
    (h : List.Forall₂ (ReflGen (Json.ItemsReplaced Word.Respelled)) vs ws) :
    Alike Eq (ofJson (.arr vs)) (ofJson (.arr ws)) := by
  by_cases hlength : vs.length = 2 ∨ vs.length = 3
  · rcases h with _ | ⟨ha, _ | ⟨hb, _ | ⟨hc, _ | _⟩⟩⟩
    · simp at hlength
    · simp at hlength
    · rw [ofJson_pair, ofJson_pair]
      exact alike_readPairs ha hb
    · rw [ofJson_triple, ofJson_triple]
      refine (Alike.of_reflGen Word.alike_listOfJson hc).bind_eq fun ns => ?_
      split_ifs
      · exact alike_readPairs ha hb
      · exact .refl _
    · simp at hlength
  · refine .of_ok_iff fun Q => iff_of_false ?_ ?_
    · intro hread
      exact hlength ((size_of_ofJson hread).imp Except.ok.inj Except.ok.inj)
    · intro hread
      rw [h.length_eq] at hlength
      exact hlength ((size_of_ofJson hread).imp Except.ok.inj Except.ok.inj)

theorem alike_ofJson (v w : Json) (h : G2Respelled v w) : Alike Eq (ofJson v) (ofJson w) := by
  cases h with
  | coordinates h =>
    obtain ⟨vs, ws, rfl, rfl, h⟩ := h
    exact alike_ofJson_arr h
  | @projective a b a' b' one zero ha hb hone hzero =>
    have hlist : Word.listOfJson (.arr [one, zero]) = .ok [1, 0] :=
      mapM_eq_ok_iff.mpr (.cons (Word.ofJson_of_spells_one hone)
        (.cons (Word.ofJson_of_spells_zero hzero) .nil))
    have hread : ofJson (.arr [a', b', .arr [one, zero]]) = readPairs [a', b'] := by
      rw [ofJson_triple, hlist]
      rfl
    rw [hread, ofJson_pair]
    exact alike_readPairs ha hb

end G2Coords

end FoldingVerifier
