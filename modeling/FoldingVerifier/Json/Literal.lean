import FoldingVerifier.Json.Basic
import FoldingVerifier.Text.Integer

/-! Atoms as values: the named constants, integers, and reals, which are the
numbers written with a fraction or an exponent. -/
namespace FoldingVerifier
namespace Json

/-- The number that decimal digits denote. -/
def digitsValue (cs : List Char) : Nat :=
  cs.foldl (fun n c => n * 10 + (c.toNat - '0'.toNat)) 0

/-- Splits off the leading digits, of which there has to be one. -/
def digits? (cs : List Char) : Option (List Char × List Char) :=
  match cs.takeWhile Text.isAsciiDigit with
  | [] => none
  | ds => some (ds, cs.dropWhile Text.isAsciiDigit)

/-- The digits behind a point, if a fraction starts here. -/
def fraction? : List Char → Option (List Char × List Char)
  | '.' :: cs => digits? cs
  | _ => none

/-- The number behind the letter, if an exponent starts here. -/
def exponent? : List Char → Option (Int × List Char)
  | c :: cs =>
      if c = 'e' ∨ c = 'E' then
        match cs with
        | '-' :: cs => (digits? cs).map fun (ds, rest) => (-(digitsValue ds : Int), rest)
        | '+' :: cs => (digits? cs).map fun (ds, rest) => ((digitsValue ds : Int), rest)
        | cs => (digits? cs).map fun (ds, rest) => ((digitsValue ds : Int), rest)
      else none
  | [] => none

def signed (negative : Bool) (n : Nat) : Int := if negative then -(n : Int) else n

/-- An integer with too many digits is refused before what stands behind it is looked at. -/
def integerLiteral (negative : Bool) (whole rest : List Char) : Except Fault Json :=
  if Text.maxDigits < whole.length then .error (.value .integerText)
  else if rest = [] then .ok (.int (signed negative (digitsValue whole)))
  else .error .notJson

def realLiteral (negative : Bool) (digits : List Char) (exponent : Int) (rest : List Char) :
    Except Fault Json :=
  if rest = [] then .ok (.real (.ofDecimal negative (digitsValue digits) exponent))
  else .error .notJson

/-- A number without its sign. Of several digits before the point the first is not zero. -/
def unsigned (negative : Bool) (cs : List Char) : Except Fault Json :=
  match digits? cs with
  | none => .error .notJson
  | some (whole, rest) =>
      if whole.head? = some '0' ∧ 1 < whole.length then .error .notJson
      else
        match fraction? rest with
        | some (part, rest) =>
            match exponent? rest with
            | some (e, rest) => realLiteral negative (whole ++ part) (e - part.length) rest
            | none => realLiteral negative (whole ++ part) (-part.length) rest
        | none =>
            match exponent? rest with
            | some (e, rest) => realLiteral negative whole e rest
            | none => integerLiteral negative whole rest

def number : List Char → Except Fault Json
  | '-' :: cs => unsigned true cs
  | cs => unsigned false cs

def ofAtom (cs : List Char) : Except Fault Json :=
  match String.ofList cs with
  | "null" => .ok .null
  | "true" => .ok (.bool true)
  | "false" => .ok (.bool false)
  | "NaN" => .ok (.real .nan)
  | "Infinity" => .ok (.real (.infinite false))
  | "-Infinity" => .ok (.real (.infinite true))
  | _ => number cs

end Json
end FoldingVerifier
