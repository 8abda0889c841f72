import FoldingVerifier.Text.Integer

/-! Why a computation is refused. Every cause is a constructor; the wording of
those that have one is `Fault.message`. -/
namespace FoldingVerifier

/-- The two source groups of the pairing. -/
inductive SourceGroup where
  | g1
  | g2
deriving DecidableEq, Repr

def SourceGroup.label : SourceGroup → String
  | .g1 => "G1"
  | .g2 => "G2"

/-- Why a coordinate tuple is no group element; earlier causes are looked for first. -/
inductive PointFault where
  | coordinateRange (group : SourceGroup)
  | offCurve (group : SourceGroup)
  | wrongSubgroup
deriving DecidableEq, Repr

/-- The two folded commitments: to the witness and to the error term. -/
inductive Commitment where
  | witness
  | errorTerm
deriving DecidableEq, Repr

def Commitment.label : Commitment → String
  | .witness => "W"
  | .errorTerm => "E"

/-- Why a well-formed proof is not accepted. -/
inductive Rejection where
  | tooFewSteps
  | opening (commitment : Commitment)
  | groth16
deriving DecidableEq, Repr

/-- The word arrays whose size is checked as a whole. -/
inductive WordArray where
  | opaqueProof
  | flatProof
  | foldedCommitments
  | freshWitness
  | crossTermAndRandomness
  | groth16
  | challengesAndEvals
  | initialState
  | finalState
deriving DecidableEq, Repr

def WordArray.label : WordArray → String
  | .opaqueProof => "proof"
  | .flatProof => "flat proof"
  | .foldedCommitments => "folded_commitments"
  | .freshWitness => "fresh_cm_w"
  | .crossTermAndRandomness => "cm_t_and_r"
  | .groth16 => "groth16_proof"
  | .challengesAndEvals => "challenges_and_evals"
  | .initialState => "initial_state"
  | .finalState => "final_state"

/-- A value of the right kind that the format does not admit. -/
inductive ValueFault where
  | unsupportedModulus (p : Int)
  | limbCount (got : Nat)
  | limbRange
  | integerText
  | fileName
  | notANumber
  | wordRange (shown : String)
  | projectiveG1
  | projectiveG2
  | g1CoordinateCount (got : Nat)
  | g2Coordinates
  | g2WordCount (got : Nat)
  | arrayShape (array : WordArray) (expected : Int) (got : List Nat)
  | openingsShape (got : List Nat)
  | raggedParts
  | entryCount
  | stateLengthsDiffer
  | commitmentWordCount (got : Nat)
  | groth16WordCount (got : Nat)
  | stepsAndStatesCount (got : Nat)
  | groupSizes
  | openingPairs
  | twoEntries
  | emptyIC
  | stateLength (got : Int)
  | hashRange
  | keyInputCount (got : Nat) (expected : Int) (stateLength : Int)
  | inputCount (expected got : Nat)
  | stateVectorLength (expected : Int)
  | challengeCount
  | verifierInputCount (takes needs : Nat)
  | proofStateLength (got expected : Nat)
deriving DecidableEq, Repr

/-- A value of the wrong kind for its place. -/
inductive KindFault where
  | booleanWord
  | notAWord (kind : String)
  | noSize
  | noItems
  | noEntries
  | noNumber
  | noName
deriving DecidableEq, Repr

/-- Why a file that is not missing cannot be opened. -/
inductive AccessFault where
  | directory
  | nameTooLong
deriving DecidableEq, Repr

inductive Fault where
  | point (cause : PointFault)
  | rejected (cause : Rejection)
  | value (cause : ValueFault)
  | kind (cause : KindFault)
  | missingKey (key : String)
  /-- A position that an object was asked for as if it were a key. -/
  | missingPosition (position : Nat)
  | noSuchEntry
  | zeroInverse
  | infiniteInteger
  | notJson
  | tooDeep
  | access (cause : AccessFault)
deriving DecidableEq, Repr

/-- A list of sizes in parentheses; one size alone is followed by a comma. -/
def shapeText : List Nat → String
  | [n] => s!"({n},)"
  | ns => "(" ++ ", ".intercalate (ns.map toString) ++ ")"

def PointFault.message : PointFault → String
  | .coordinateRange g => g.label ++ ": coordinate out of range"
  | .offCurve .g1 => "G1: point is not on curve"
  | .offCurve .g2 => "G2: point is not on twisted curve"
  | .wrongSubgroup => "G2: point is not in the prime-order subgroup"

def Rejection.message : Rejection → String
  | .tooFewSteps => "Folding: the number of folded steps should be at least 2"
  | .opening c => "KZG: verifying proof for challenge " ++ c.label ++ " failed"
  | .groth16 => "Groth16: verifying proof failed"

/-- Faults of plain number reading carry no wording, nor do those that would have to
show an integer with too many digits. -/
def ValueFault.message : ValueFault → Option String
  | .unsupportedModulus p => do return "Unsupported modulus: " ++ (← Text.decimal? p)
  | .limbCount n => some s!"Expected 5 limbs, got {n}"
  | .limbRange | .integerText | .fileName | .notANumber | .raggedParts | .entryCount => none
  | .wordRange shown => some ("Word out of 256-bit range: " ++ shown)
  | .projectiveG1 => some "Projective G1 point must have z = 1"
  | .projectiveG2 => some "Projective G2 point must have z = 1"
  | .g1CoordinateCount n => some s!"G1 point takes 2 coordinates, got {n}"
  | .g2Coordinates => some "G2 point takes [[x_c0, x_c1], [y_c0, y_c1]]"
  | .g2WordCount n => some s!"G2 point takes 4 words, got {n}"
  | .arrayShape a n got => do
      return a.label ++ ": expected " ++ (← Text.decimal? n) ++ " words, got shape " ++
        shapeText got
  | .openingsShape got => some ("kzg_proofs: expected shape (2, 2), got " ++ shapeText got)
  | .stateLengthsDiffer => some "initial_state and final_state must have the same length"
  | .commitmentWordCount n => some s!"CommitmentPair takes 4 words, got {n}"
  | .groth16WordCount n => some s!"Groth16 proof takes 8 words, got {n}"
  | .stepsAndStatesCount n => some s!"steps_and_states must have length 1 + 2z, got {n}"
  | .groupSizes => some "Grouped argument has the wrong length"
  | .openingPairs => some "kzg_proofs must be [[x, y], [x, y]]"
  | .twoEntries => some "challenges, evals and kzg_proofs each take two entries"
  | .emptyIC => some "Groth16 key needs at least IC[0]"
  | .stateLength n => do return "state_len must be positive, got " ++ (← Text.decimal? n)
  | .hashRange => some "pp_hash must be a scalar-field element"
  | .keyInputCount got n z => do
      return s!"Groth16 key has {got} public inputs, expected " ++ (← Text.decimal? n) ++
        " for state_len=" ++ (← Text.decimal? z)
  | .inputCount n got => some s!"Expected {n} public inputs, got {got}"
  | .stateVectorLength z => do return "State vectors must have length " ++ (← Text.decimal? z)
  | .challengeCount => some "challenges_and_evals takes 4 words"
  | .verifierInputCount takes needs =>
      some s!"Groth16 verifier takes {takes} inputs, layout needs {needs}"
  | .proofStateLength got z => some s!"Proof has state length {got}, key expects {z}"

def KindFault.message : KindFault → Option String
  | .booleanWord => some "Boolean is not a valid word"
  | .notAWord kind => some ("Expected int or string word, got " ++ kind)
  | _ => none

/-- The wording that belongs to a fault; of a missing key it is the key. -/
def Fault.message : Fault → Option String
  | .point c => some c.message
  | .rejected c => some c.message
  | .value c => c.message
  | .kind c => c.message
  | .missingKey k => some k
  | .missingPosition i => some (toString i)
  | .noSuchEntry | .zeroInverse | .infiniteInteger | .notJson | .tooDeep | .access _ => none

end FoldingVerifier
