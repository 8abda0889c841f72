import FoldingVerifier.Json.Basic

/-! The tokens of a document. Characters that are neither blank nor punctuation
nor in a string form atoms, the longest runs of them; whether an atom is a
literal or a number is decided when it is read as a value. -/
namespace FoldingVerifier
namespace Json

inductive Token where
  | openArray
  | closeArray
  | openObject
  | closeObject
  | comma
  | colon
  | text (s : Symbols)
  | atom (chars : List Char)
deriving DecidableEq, Repr

namespace Token

/-- Where a scan stands. In a string the characters read so far, last first, are
code points: an escape can stand for half of a surrogate pair. -/
inductive Mode where
  | between
  | inAtom (chars : List Char)
  | inText (points : List Nat)
  | escaped (points : List Nat)
  | inCode (points : List Nat) (missing : Nat) (value : Nat)

/-- What one character brings: the tokens it ends, and where the scan stands then. -/
structure Advance where
  tokens : List Token
  mode : Mode

def isBlank (c : Char) : Bool :=
  c == ' ' || c == '\t' || c == '\n' || c == '\r'

def punctuation? : Char → Option Token
  | '[' => some openArray
  | ']' => some closeArray
  | '{' => some openObject
  | '}' => some closeObject
  | ',' => some comma
  | ':' => some colon
  | _ => none

/-- What a letter stands for behind a backslash. -/
def escape? : Char → Option Nat
  | '"' => some 0x22
  | '\\' => some 0x5C
  | '/' => some 0x2F
  | 'b' => some 0x08
  | 'f' => some 0x0C
  | 'n' => some 0x0A
  | 'r' => some 0x0D
  | 't' => some 0x09
  | _ => none

def hexValue? (c : Char) : Option Nat :=
  if '0' ≤ c ∧ c ≤ '9' then some (c.toNat - '0'.toNat)
  else if 'a' ≤ c ∧ c ≤ 'f' then some (c.toNat - 'a'.toNat + 10)
  else if 'A' ≤ c ∧ c ≤ 'F' then some (c.toNat - 'A'.toNat + 10)
  else none

/-- A character outside strings, behind the given tokens. -/
def outside (ended : List Token) (c : Char) : Advance :=
  if isBlank c then ⟨ended, .between⟩
  else if c = '"' then ⟨ended, .inText []⟩
  else
    match punctuation? c with
    | some t => ⟨ended ++ [t], .between⟩
    | none => ⟨ended, .inAtom [c]⟩

/-- One character. A control character in a string and an unknown escape end the scan. -/
def advance (mode : Mode) (c : Char) : Option Advance :=
  match mode with
  | .between => some (outside [] c)
  | .inAtom cs =>
      if isBlank c || c == '"' || (punctuation? c).isSome then
        some (outside [.atom cs.reverse] c)
      else some ⟨[], .inAtom (c :: cs)⟩
  | .inText ps =>
      if c = '"' then some ⟨[.text (.ofPoints ps.reverse)], .between⟩
      else if c = '\\' then some ⟨[], .escaped ps⟩
      else if c.toNat < 0x20 then none
      else some ⟨[], .inText (c.toNat :: ps)⟩
  | .escaped ps =>
      if c = 'u' then some ⟨[], .inCode ps 3 0⟩
      else (escape? c).map fun n => ⟨[], .inText (n :: ps)⟩
  | .inCode ps missing value =>
      (hexValue? c).map fun d =>
        match missing with
        | 0 => ⟨[], .inText ((value * 16 + d) :: ps)⟩
        | m + 1 => ⟨[], .inCode ps m (value * 16 + d)⟩

/-- The tokens that the end of the document ends. -/
def finish : Mode → Option (List Token)
  | .between => some []
  | .inAtom cs => some [.atom cs.reverse]
  | _ => none

end Token
end Json
end FoldingVerifier
