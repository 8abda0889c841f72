import FoldingVerifier.Groth16
import FoldingVerifier.Json.Parser
import FoldingVerifier.Json.Printer
import FoldingVerifier.Kzg
import FoldingVerifier.PublicInputs

/-! Keys of the decider: the circuit's Groth16 key, the key of both openings, the
length of the folded state, and the constant that tells circuits apart. -/
namespace FoldingVerifier

structure DeciderKey where
  hash : Fr
  stateLength : Nat
  groth16 : Groth16Key
  kzg : KzgKey
  stateLength_pos : 0 < stateLength
  inputs_agree : (groth16.inputCount : Int) = PublicInputs.count stateLength
deriving DecidableEq

namespace DeciderKey

def inputCount (k : DeciderKey) : Nat := k.groth16.inputCount

/-- The key with the given parts: the state length is looked at first, then the
constant, then the number of inputs. -/
def make (hash stateLength : Int) (groth16 : Groth16Key) (kzg : KzgKey) :
    Except Fault DeciderKey :=
  if hz : stateLength < 1 then .error (.value (.stateLength stateLength))
  else if inScalarField hash then
    if h : (groth16.inputCount : Int) = PublicInputs.count stateLength then
      .ok {
        hash := Residue.ofInt scalarOrder hash
        stateLength := stateLength.toNat
        groth16, kzg
        stateLength_pos := by omega
        inputs_agree := by rw [h, Int.toNat_of_nonneg (by omega)] }
    else
      .error (.value (.keyInputCount groth16.inputCount (PublicInputs.count stateLength)
        stateLength))
  else .error (.value .hashRange)

/-- The length of the state is one unless the document says otherwise. -/
def ofJson (v : Json) : Except Fault DeciderKey := do
  let hash ← Word.ofJson (← v.member "pp_hash")
  let stateLength ← (← v.memberD "state_len" (.int 1)).integer
  let groth16 ← Groth16Key.ofJson (← v.member "groth16")
  let kzg ← KzgKey.ofJson (← v.member "kzg")
  make hash stateLength groth16 kzg

def toJson (k : DeciderKey) : Json :=
  .record [("pp_hash", Word.toJson k.hash.val), ("state_len", .int k.stateLength),
    ("groth16", k.groth16.toJson), ("kzg", k.kzg.toJson)]

/-- The key that a file holds. -/
def ofText (text : String) (maxDepth : Nat := Json.usualDepth) : Except Fault DeciderKey := do
  ofJson (← Json.parse text maxDepth)

def toText (k : DeciderKey) : String := k.toJson.text

def withHash (k : DeciderKey) (hash : Int) : Except Fault DeciderKey :=
  make hash k.stateLength k.groth16 k.kzg

def withStateLength (k : DeciderKey) (stateLength : Int) : Except Fault DeciderKey :=
  make k.hash.val stateLength k.groth16 k.kzg

end DeciderKey
end FoldingVerifier
