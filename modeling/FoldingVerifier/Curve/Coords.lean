import FoldingVerifier.Curve.G2
import FoldingVerifier.Json.Access

/-! Words and coordinates in documents and in word arrays. Words are integers of 256 bits,
spelled as integers or as decimal or hexadecimal strings. Reading a point looks at the form
alone, not at whether the coordinates are those of a point. -/
namespace FoldingVerifier
namespace Word

/-- One more than the largest word. -/
def bound : Int := Int.pow 2 256

/-- A value out of range is reported as it was spelled. -/
def inRange (shown : String) (n : Int) : Except Fault Int :=
  if 0 ≤ n ∧ n < bound then .ok n else .error (.value (.wordRange shown))

def ofJson : Json → Except Fault Int
  | .bool _ => .error (.kind .booleanWord)
  | .int n => inRange (Text.decimal n) n
  | .str s =>
      match s.toString? with
      | some t =>
          match Text.word? t with
          | some n => inRange t n
          | none => .error (.value .integerText)
      | none => .error (.value .integerText)
  | v => .error (.kind (.notAWord v.kindLabel))

/-- The items of a value, each read as a word. -/
def listOfJson (v : Json) : Except Fault (List Int) := do
  (← v.items).mapM ofJson

/-- Words are written as decimal strings. -/
def toJson (n : Int) : Json := .ofString (Text.decimal n)

end Word

/-- Whether all items of a value count as canonical scalars; each is read first. -/
def checkScalars (values : Json) : Except Fault Bool := do
  return (← values.integers).all inScalarField

/-- The integer that the entry at a position counts as. -/
def Json.integerAt (i : Nat) (v : Json) : Except Fault Int := do
  (← v.entry i).integer

def Json.wordAt (i : Nat) (v : Json) : Except Fault Int := do
  Word.ofJson (← v.entry i)

namespace G1Coords

/-- Affine `[x, y]`, or projective `[x, y, 1]`. -/
def ofJson (v : Json) : Except Fault G1Coords := do
  let n ← v.size
  if n = 3 then
    if (← v.wordAt 2) ≠ 1 then throw (.value .projectiveG1)
  else if n ≠ 2 then throw (.value (.g1CoordinateCount n))
  let x ← v.wordAt 0
  let y ← v.wordAt 1
  return ⟨x, y⟩

def toJson (P : G1Coords) : Json := .arr (P.toList.map Word.toJson)

/-- The integers at two neighbouring positions. -/
def ofWordsAt (i : Nat) (v : Json) : Except Fault G1Coords := do
  let x ← v.integerAt i
  let y ← v.integerAt (i + 1)
  return ⟨x, y⟩

end G1Coords

namespace G2Coords

/-- The pair of pairs, once the form is known to be right. -/
def ofPairs : List Json → Except Fault G2Coords
  | [u, v] => do
      match ← u.items, ← v.items with
      | [a, b], [c, d] =>
          let x0 ← Word.ofJson a
          let x1 ← Word.ofJson b
          let y0 ← Word.ofJson c
          let y1 ← Word.ofJson d
          return ⟨x0, x1, y0, y1⟩
      | _, _ => throw (.value .entryCount)
  | _ => throw (.value .entryCount)

/-- Affine `[[x0, x1], [y0, y1]]`, or projective with a third pair `[1, 0]`. -/
def ofJson (v : Json) : Except Fault G2Coords := do
  let n ← v.size
  if n = 3 then
    if (← Word.listOfJson (← v.entry 2)) ≠ [1, 0] then throw (.value .projectiveG2)
  else if n ≠ 2 then throw (.value .g2Coordinates)
  let pairs := (← v.items).take 2
  pairs.forM (·.requireSize 2 .g2Coordinates)
  ofPairs pairs

def toJson (Q : G2Coords) : Json :=
  .arr [.arr [Word.toJson Q.x0, Word.toJson Q.x1], .arr [Word.toJson Q.y0, Word.toJson Q.y1]]

/-- Four words, each coordinate imaginary part first. -/
def ofWords (v : Json) : Except Fault G2Coords := do
  let n ← v.size
  if n ≠ 4 then throw (.value (.g2WordCount n))
  match ← v.integers with
  | [x1, x0, y1, y0] => return ⟨x0, x1, y0, y1⟩
  | _ => throw (.value .entryCount)

end G2Coords
end FoldingVerifier
