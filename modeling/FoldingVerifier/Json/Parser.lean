import FoldingVerifier.Json.Literal
import FoldingVerifier.Json.Token

/-! Reading a document: a machine that takes one token at a time and holds the
containers that are still open. The first fault from the left is reported. How deep containers
may be nested is for the caller to say. -/
namespace FoldingVerifier
namespace Json

/-- An open container: what it holds so far, the last item first in an array. -/
inductive Frame where
  | array (done : List Json)
  | object (done : List (Symbols × Json)) (key : Symbols)

/-- What may come next. -/
inductive Expecting where
  | value
  | firstItem
  | firstKey
  | key (done : List (Symbols × Json))
  | colon (done : List (Symbols × Json)) (key : Symbols)
  | afterValue (v : Json)

structure Reading where
  containers : List Frame
  expecting : Expecting

namespace Reading

/-- Opens one more container, of which no more than `maxDepth` may be open at once. -/
def descend (maxDepth : Nat) (frames : List Frame) (inside : Reading) : Except Fault Reading :=
  if frames.length < maxDepth then .ok inside else .error .tooDeep

/-- A token that starts a value. -/
def start (maxDepth : Nat) (frames : List Frame) : Token → Except Fault Reading
  | .text s => .ok ⟨frames, .afterValue (.str s)⟩
  | .atom cs => (ofAtom cs).map fun v => ⟨frames, .afterValue v⟩
  | .openArray => descend maxDepth frames ⟨.array [] :: frames, .firstItem⟩
  | .openObject => descend maxDepth frames ⟨frames, .firstKey⟩
  | _ => .error .notJson

def next (maxDepth : Nat) (r : Reading) (t : Token) : Except Fault Reading :=
  match r.expecting, r.containers, t with
  | .value, frames, t => start maxDepth frames t
  | .firstItem, .array _ :: frames, .closeArray => .ok ⟨frames, .afterValue (.arr [])⟩
  | .firstItem, frames, t => start maxDepth frames t
  | .firstKey, frames, .closeObject => .ok ⟨frames, .afterValue (.obj [])⟩
  | .firstKey, frames, .text s => .ok ⟨frames, .colon [] s⟩
  | .key done, frames, .text s => .ok ⟨frames, .colon done s⟩
  | .colon done key, frames, .colon => .ok ⟨.object done key :: frames, .value⟩
  | .afterValue v, .array done :: frames, .comma => .ok ⟨.array (v :: done) :: frames, .value⟩
  | .afterValue v, .array done :: frames, .closeArray =>
      .ok ⟨frames, .afterValue (.arr (v :: done).reverse)⟩
  | .afterValue v, .object done key :: frames, .comma => .ok ⟨frames, .key (put key v done)⟩
  | .afterValue v, .object done key :: frames, .closeObject =>
      .ok ⟨frames, .afterValue (.obj (put key v done))⟩
  | _, _, _ => .error .notJson

def result (r : Reading) : Except Fault Json :=
  match r.containers, r.expecting with
  | [], .afterValue v => .ok v
  | _, _ => .error .notJson

end Reading

/-- A reading between two characters. -/
structure Machine where
  mode : Token.Mode
  reading : Reading

namespace Machine

def initial : Machine := ⟨.between, [], .value⟩

def step (maxDepth : Nat) (m : Machine) (c : Char) : Except Fault Machine :=
  match Token.advance m.mode c with
  | none => .error .notJson
  | some a => (a.tokens.foldlM (Reading.next maxDepth) m.reading).map fun r => ⟨a.mode, r⟩

def finish (maxDepth : Nat) (m : Machine) : Except Fault Json :=
  match Token.finish m.mode with
  | none => .error .notJson
  | some ts => do (← ts.foldlM (Reading.next maxDepth) m.reading).result

end Machine

/-- How many containers may be open at once where the caller does not say. -/
def usualDepth : Nat := 992

def parse (text : String) (maxDepth : Nat := usualDepth) : Except Fault Json := do
  (← text.toList.foldlM (Machine.step maxDepth) .initial).finish maxDepth

end Json
end FoldingVerifier
