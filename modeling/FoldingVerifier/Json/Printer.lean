import FoldingVerifier.Json.Basic
import FoldingVerifier.Text.Integer

/-! Writing a document: two blanks of indentation a level, one item or member a
line, empty containers without a break, and no character outside ASCII. -/
namespace FoldingVerifier
namespace Json

def hexDigits (n : Nat) : List Char :=
  [12, 8, 4, 0].map fun shift => Nat.digitChar (n / Nat.pow 2 shift % 16)

def codeEscape (n : Nat) : List Char := '\\' :: 'u' :: hexDigits n

/-- Characters beyond 16 bits are written as a surrogate pair. -/
def escapedChar (c : Char) : List Char :=
  if c = '"' then ['\\', '"']
  else if c = '\\' then ['\\', '\\']
  else if c = '\n' then ['\\', 'n']
  else if c = '\r' then ['\\', 'r']
  else if c = '\t' then ['\\', 't']
  else if c.toNat = 0x0C then ['\\', 'f']
  else if c.toNat = 0x08 then ['\\', 'b']
  else if 0x20 ≤ c.toNat ∧ c.toNat < 0x7F then [c]
  else if c.toNat < 0x10000 then codeEscape c.toNat
  else
    let n := c.toNat - 0x10000
    codeEscape (0xD800 + n / 0x400) ++ codeEscape (0xDC00 + n % 0x400)

def escapedSymbol : Symbol → List Char
  | .char c => escapedChar c
  | .half n => codeEscape (0xD800 + n)

def quoted (s : Symbols) : List Char :=
  '"' :: s.flatMap escapedSymbol ++ ['"']

/-- A finite real is written exactly, with the digits of its decimal expansion. -/
def realText : Binary64 → List Char
  | .nan => "NaN".toList
  | .infinite false => "Infinity".toList
  | .infinite true => "-Infinity".toList
  | .finite negative m e =>
      (if negative then ['-'] else []) ++
        if 0 ≤ e then Text.naturalDigits (m * Nat.pow 2 e.toNat) ++ ['.', '0']
        else Text.naturalDigits (m * Nat.pow 5 (-e).toNat) ++ 'e' :: Text.integerDigits e

def newline (depth : Nat) : List Char := '\n' :: List.replicate (2 * depth) ' '

mutual

def render (depth : Nat) : Json → List Char
  | null => "null".toList
  | bool true => "true".toList
  | bool false => "false".toList
  | int n => Text.integerDigits n
  | real x => realText x
  | str s => quoted s
  | arr [] => ['[', ']']
  | arr (v :: vs) =>
      '[' :: newline (depth + 1) ++ render (depth + 1) v ++ renderItems (depth + 1) vs ++
        newline depth ++ [']']
  | obj [] => ['{', '}']
  | obj ((k, v) :: ms) =>
      '{' :: newline (depth + 1) ++ quoted k ++ [':', ' '] ++ render (depth + 1) v ++
        renderMembers (depth + 1) ms ++ newline depth ++ ['}']

def renderItems (depth : Nat) : List Json → List Char
  | [] => []
  | v :: vs => ',' :: newline depth ++ render depth v ++ renderItems depth vs

def renderMembers (depth : Nat) : List (Symbols × Json) → List Char
  | [] => []
  | (k, v) :: ms =>
      ',' :: newline depth ++ quoted k ++ [':', ' '] ++ render depth v ++ renderMembers depth ms

end

def text (v : Json) : String := String.ofList (render 0 v)

end Json
end FoldingVerifier
