import FoldingVerifier.Json.Basic
import FoldingVerifier.Text.Integer

/-! Looking into a document without knowing its form. A string counts as the array of its
characters, and an object has its keys for items, but no entries by position. The shape of
nested arrays is their lengths level by level, as far down as all arrays of a level have one
length, and no further than a fixed number of levels. -/
namespace FoldingVerifier
namespace Json

/-- The items of a string: its characters, as strings. -/
def characters (s : Symbols) : List Json :=
  s.map fun c => str [c]

def size : Json → Except Fault Nat
  | str s => .ok s.length
  | arr items => .ok items.length
  | obj members => .ok members.length
  | _ => .error (.kind .noSize)

/-- Refuses a value with another number of entries. -/
def requireSize (v : Json) (n : Nat) (cause : ValueFault) : Except Fault Unit := do
  if (← v.size) ≠ n then throw (.value cause)

def items : Json → Except Fault (List Json)
  | str s => .ok (characters s)
  | arr items => .ok items
  | obj members => .ok (members.map fun m => str m.1)
  | _ => .error (.kind .noItems)

def nth (i : Nat) (vs : List Json) : Except Fault Json :=
  match vs[i]? with
  | some v => .ok v
  | none => .error .noSuchEntry

/-- The entry at a position. An object has none. -/
def entry (i : Nat) : Json → Except Fault Json
  | str s => nth i (characters s)
  | arr items => nth i items
  | obj _ => .error (.missingPosition i)
  | _ => .error (.kind .noEntries)

def member (key : String) : Json → Except Fault Json
  | obj members =>
      match find? (.ofString key) members with
      | some v => .ok v
      | none => .error (.missingKey key)
  | _ => .error (.kind .noEntries)

/-- The member of an object, or a value that stands in for it. -/
def memberD (v : Json) (key : String) (absent : Json) : Except Fault Json :=
  match v with
  | obj members => .ok ((find? (.ofString key) members).getD absent)
  | _ => .error (.kind .noEntries)

/-- The integer that a value counts as: truth values are one and zero, reals lose
their fraction, strings are read. -/
def integer : Json → Except Fault Int
  | int n => .ok n
  | bool b => .ok (if b then 1 else 0)
  | real x => x.truncate
  | str s =>
      match s.toString?.bind Text.integer? with
      | some n => .ok n
      | none => .error (.value .integerText)
  | _ => .error (.kind .noNumber)

def integers (v : Json) : Except Fault (List Int) := do
  (← v.items).mapM integer

def commonPrefix : List Nat → List Nat → List Nat
  | m :: ms, n :: ns => if m = n then m :: commonPrefix ms ns else []
  | _, _ => []

mutual

/-- Whatever is no array has no levels. -/
def levels : Json → List Nat
  | arr items => items.length :: commonLevels items
  | _ => []

/-- The most levels that all items have in common. -/
def commonLevels : List Json → List Nat
  | [] => []
  | [v] => levels v
  | v :: vs => commonPrefix (levels v) (commonLevels vs)

end

/-- The most levels of a shape. -/
def maxLevels : Nat := 64

def shape (v : Json) : List Nat := v.levels.take maxLevels

/-- The items of an array of `n` words; they may be anything but arrays of one length. -/
def words (array : WordArray) (n : Int) (v : Json) : Except Fault (List Json) :=
  match v, v.shape with
  | arr items, [m] =>
      if (m : Int) = n then .ok items else .error (.value (.arrayShape array n [m]))
  | _, s => .error (.value (.arrayShape array n s))

end Json
end FoldingVerifier
