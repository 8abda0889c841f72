import FoldingVerifier.Number.Binary64

/-! Documents: the values that callers hand over and that key and proof files hold. The
members of an object keep their order and have distinct keys. Strings are made of symbols: an
escape can name half of a surrogate pair, and where the other half is missing it stands for
itself and is no character. -/
namespace FoldingVerifier

inductive Symbol where
  | char (c : Char)
  /-- The offset is counted from the first half, U+D800. -/
  | half (offset : Fin 2048)
deriving DecidableEq, Repr

abbrev Symbols := List Symbol

namespace Symbols

def ofString (s : String) : Symbols := s.toList.map .char

def characters? : Symbols → Option (List Char)
  | [] => some []
  | .char c :: rest => (characters? rest).map (c :: ·)
  | .half _ :: _ => none

/-- The string, where all symbols are characters. -/
def toString? (s : Symbols) : Option String := (characters? s).map String.ofList

/-- The symbols of code points; neighbouring halves that fit make one character. -/
def ofPoints : List Nat → Symbols
  | [] => []
  | [a] => [single a]
  | a :: b :: rest =>
      if 0xD800 ≤ a ∧ a ≤ 0xDBFF ∧ 0xDC00 ≤ b ∧ b ≤ 0xDFFF then
        .char (Char.ofNat (0x10000 + (a - 0xD800) * 0x400 + (b - 0xDC00))) :: ofPoints rest
      else single a :: ofPoints (b :: rest)
where
  single (a : Nat) : Symbol :=
    if 0xD800 ≤ a ∧ a ≤ 0xDFFF then .half (Fin.ofNat 2048 (a - 0xD800)) else .char (Char.ofNat a)

@[simp] theorem characters?_map_char (cs : List Char) :
    characters? (cs.map .char) = some cs := by
  induction cs with
  | nil => rfl
  | cons c cs ih => simp [characters?, ih]

@[simp] theorem toString?_ofString (s : String) : toString? (ofString s) = some s := by
  simp [toString?, ofString]

theorem ofString_injective {s t : String} (h : ofString s = ofString t) : s = t := by
  have hs := toString?_ofString s
  rw [h, toString?_ofString] at hs
  exact (Option.some.inj hs).symm

end Symbols

inductive Json where
  | null
  | bool (b : Bool)
  | int (n : Int)
  | real (x : Binary64)
  | str (s : Symbols)
  | arr (items : List Json)
  | obj (members : List (Symbols × Json))
deriving Inhabited, Repr

namespace Json

/-- An array of integers. -/
def ints (ns : List Int) : Json := arr (ns.map int)

def ofString (s : String) : Json := str (.ofString s)

/-- An object with the given members. -/
def record (members : List (String × Json)) : Json :=
  obj (members.map fun m => (.ofString m.1, m.2))

/-- A repeated key takes the later value at the earlier place. -/
def put (key : Symbols) (value : Json) : List (Symbols × Json) → List (Symbols × Json)
  | [] => [(key, value)]
  | (k, v) :: ms => if k = key then (k, value) :: ms else (k, v) :: put key value ms

def find? (key : Symbols) : List (Symbols × Json) → Option Json
  | [] => none
  | (k, v) :: ms => if k = key then some v else find? key ms

/-- The word for the kind of a value that is no word. -/
def kindLabel : Json → String
  | null => "NoneType"
  | bool _ => "bool"
  | int _ => "int"
  | real _ => "float"
  | str _ => "str"
  | arr _ => "list"
  | obj _ => "dict"

end Json
end FoldingVerifier
