/-! Integers in text. They are spelled with the decimal digits of any script and single
underscores between them, in base ten with an optional sign, in base sixteen behind `0x`, and
blanks around them do not matter. They are written in decimal. -/
namespace FoldingVerifier
namespace Text

/-- The four separators between files, groups, records and units. -/
def isSeparator (c : Char) : Bool :=
  0x1C ≤ c.toNat && c.toNat ≤ 0x1F

/-- Blanks of a line: the ASCII ones, next line, no-break space, and the spaces
and line breaks of the wider alphabet. Zero-width characters are none. -/
def isSpacing (c : Char) : Bool :=
  let n := c.toNat
  (0x09 ≤ n && n ≤ 0x0D) || n == 0x20 || n == 0x85 || n == 0xA0 || n == 0x1680 ||
    (0x2000 ≤ n && n ≤ 0x200A) || n == 0x2028 || n == 0x2029 || n == 0x202F ||
    n == 0x205F || n == 0x3000

def isBlank (c : Char) : Bool := isSpacing c || isSeparator c

/-- Removes the characters of a class from both ends. -/
def trim (blank : Char → Bool) (cs : List Char) : List Char :=
  ((cs.dropWhile blank).reverse.dropWhile blank).reverse

def isAsciiDigit (c : Char) : Bool := '0' ≤ c && c ≤ '9'

/-- The decimal digits of a script come in a run of ten, from zero to nine; where the runs begin
in Unicode 14. Later versions have two more. -/
def digitRuns : List Nat :=
  [0x30, 0x660, 0x6F0, 0x7C0, 0x966, 0x9E6, 0xA66, 0xAE6,
    0xB66, 0xBE6, 0xC66, 0xCE6, 0xD66, 0xDE6, 0xE50, 0xED0,
    0xF20, 0x1040, 0x1090, 0x17E0, 0x1810, 0x1946, 0x19D0, 0x1A80,
    0x1A90, 0x1B50, 0x1BB0, 0x1C40, 0x1C50, 0xA620, 0xA8D0, 0xA900,
    0xA9D0, 0xA9F0, 0xAA50, 0xABF0, 0xFF10, 0x104A0, 0x10D30, 0x11066,
    0x110F0, 0x11136, 0x111D0, 0x112F0, 0x11450, 0x114D0, 0x11650, 0x116C0,
    0x11730, 0x118E0, 0x11950, 0x11C50, 0x11D50, 0x11DA0, 0x16A60, 0x16AC0,
    0x16B50, 0x1D7CE, 0x1D7D8, 0x1D7E2, 0x1D7EC, 0x1D7F6, 0x1E140, 0x1E2F0,
    0x1E950, 0x1FBF0]

/-- The value of a decimal digit of any script. -/
def decimalDigit (c : Char) : Option Nat :=
  (digitRuns.find? fun start => start ≤ c.toNat && c.toNat < start + 10).map (c.toNat - ·)

/-- The Latin letters up to F, of either case, count beside the decimal digits. -/
def hexDigit (c : Char) : Option Nat :=
  if 'a' ≤ c ∧ c ≤ 'f' then some (c.toNat - 'a'.toNat + 10)
  else if 'A' ≤ c ∧ c ≤ 'F' then some (c.toNat - 'A'.toNat + 10)
  else decimalDigit c

/-- The most digits of an integer in decimal: the time that reading and writing one take grows
with the square of its length. -/
def maxDigits : Nat := 4300

def naturalDigits (n : Nat) : List Char := Nat.toDigits 10 n

/-- A minus sign before the digits of a negative integer. -/
def integerDigits : Int → List Char
  | .ofNat n => naturalDigits n
  | .negSucc n => '-' :: naturalDigits (n + 1)

def decimal (n : Int) : String := String.ofList (integerDigits n)

/-- The text of an integer that has not too many digits. -/
def decimal? (n : Int) : Option String :=
  if n.natAbs < Nat.pow 10 maxDigits then some (decimal n) else none

/-- A way to read digits. -/
structure Radix where
  base : Nat
  digit : Char → Option Nat

def Radix.ten : Radix := ⟨10, decimalDigit⟩
def Radix.sixteen : Radix := ⟨16, hexDigit⟩

namespace Radix

/-- Reads on behind a digit, where an underscore has to be followed by another. -/
def continued (r : Radix) (acc : Nat) : List Char → Option Nat
  | [] => some acc
  | '_' :: c :: cs =>
      match r.digit c with
      | some d => continued r (acc * r.base + d) cs
      | none => none
  | c :: cs =>
      match r.digit c with
      | some d => continued r (acc * r.base + d) cs
      | none => none

/-- A digit, then digits with at most one underscore before each. -/
def natural (r : Radix) : List Char → Option Nat
  | [] => none
  | c :: cs => (r.digit c).bind (r.continued · cs)

end Radix

/-- Decimal digits, not too many of them; underscores are not counted. -/
def unsignedDecimal (cs : List Char) : Option Nat :=
  if (cs.filter (· ≠ '_')).length ≤ maxDigits then Radix.ten.natural cs else none

/-- An optional sign and decimal digits. -/
def signedDecimal : List Char → Option Int
  | '-' :: cs => (unsignedDecimal cs).map fun n => -(n : Int)
  | '+' :: cs => (unsignedDecimal cs).map Int.ofNat
  | cs => (unsignedDecimal cs).map Int.ofNat

/-- What follows `0x`: digits, before which one underscore may stand. -/
def hexadecimal : List Char → Option Nat
  | '_' :: cs => Radix.sixteen.natural cs
  | cs => Radix.sixteen.natural cs

/-- A decimal integer in blanks; the four separators are not among them here. -/
def integer? (s : String) : Option Int :=
  signedDecimal (trim isSpacing s.toList)

/-- A decimal or hexadecimal integer in blanks. -/
def word? (s : String) : Option Int :=
  match trim isBlank s.toList with
  | '0' :: 'x' :: cs => (hexadecimal cs).map Int.ofNat
  | '0' :: 'X' :: cs => (hexadecimal cs).map Int.ofNat
  | cs => signedDecimal cs

end Text
end FoldingVerifier
