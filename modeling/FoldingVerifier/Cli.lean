import FoldingVerifier.Decider

/-! The command line: which arguments it takes, and what a run writes and with
which status it ends. Files are seen through a function from names to what they
stand for. -/
namespace FoldingVerifier
namespace Cli

structure Options where
  key : String
  proof : String
  /-- Verify through the one-array form. -/
  flat : Bool
deriving DecidableEq, Repr

/-- Why no run takes place. -/
inductive Refusal where
  | help
  | usage
deriving DecidableEq, Repr

/-- A usage error has status two; a request for help is none. -/
def Refusal.status : Refusal → Nat
  | .help => 0
  | .usage => 2

def usageText : String :=
  "usage: --vk FILE --proof FILE [--opaque]\n"

/-- The two files that a run reads. -/
inductive File where
  | key
  | proof
deriving DecidableEq, Repr

inductive Flag where
  | file (f : File)
  | flat
  | help
deriving DecidableEq, Repr

def longFlags : List (String × Flag) :=
  [("--vk", .file .key), ("--proof", .file .proof), ("--opaque", .flat), ("--help", .help)]

/-- What an argument is, whatever stands before it. -/
inductive Role where
  | plain (text : String)
  /-- Behind it all arguments are plain. -/
  | separator
  | flag (f : Flag)
  | assigned (f : Flag) (value : String)
  /-- The short flag for help with more letters in the same argument. -/
  | helpAnd (letters : String)
  | unknownFlag
deriving DecidableEq, Repr

/-- A number with a minus sign is no flag; one line break may end it. -/
def isNegativeNumber (arg : String) : Bool :=
  let isDigit (c : Char) : Bool := (Text.decimalDigit c).isSome
  match arg.toList with
  | '-' :: cs =>
      let cs := if cs.getLast? = some '\n' then cs.dropLast else cs
      match cs.dropWhile isDigit with
      | [] => !cs.isEmpty
      | '.' :: part => !part.isEmpty && part.all isDigit
      | _ => false
  | _ => false

/-- The part before the first equals sign, and the part behind it. -/
def splitAssignment (arg : String) : String × Option String :=
  match arg.toList.span (· ≠ '=') with
  | (name, _ :: value) => (String.ofList name, some (String.ofList value))
  | (name, []) => (String.ofList name, none)

/-- An argument with a dash in front that is no known flag. -/
def unmatched (arg : String) : Role :=
  if isNegativeNumber arg ∨ arg.contains ' ' then .plain arg else .unknownFlag

/-- A long flag may be shortened to as much as tells it apart; less than that is refused. -/
def longRole (arg : String) : Except Refusal Role :=
  let (name, value) := splitAssignment arg
  match longFlags.filter fun f => f.1.startsWith name, value with
  | [], _ => .ok (unmatched arg)
  | [f], none => .ok (.flag f.2)
  | [f], some v => .ok (.assigned f.2 v)
  | _, _ => .error .usage

def shortRole (arg : String) : Role :=
  match arg.toList with
  | ['-'] => .plain arg
  | ['-', 'h'] => .flag .help
  | '-' :: 'h' :: '=' :: letters => .helpAnd (String.ofList letters)
  | '-' :: 'h' :: letters => .helpAnd (String.ofList letters)
  | _ => unmatched arg

def role (arg : String) : Except Refusal Role :=
  if arg.startsWith "--" then longRole arg
  else if arg.startsWith "-" then .ok (shortRole arg)
  else .ok (.plain arg)

/-- All roles are known, or the arguments refused, before any flag takes effect. -/
def roles : List String → Except Refusal (List Role)
  | [] => .ok []
  | "--" :: args => .ok (.separator :: args.map .plain)
  | arg :: args => do return (← role arg) :: (← roles args)

/-- What the arguments so far have set. -/
structure Settings where
  key : Option String
  proof : Option String
  flat : Bool
  /-- The flag before has its value still to come. -/
  awaiting : Option File
  /-- Some argument was of no use. -/
  surplus : Bool

def Settings.start : Settings := ⟨none, none, false, none, false⟩

def Settings.set (s : Settings) (name : String) : File → Settings
  | .key => { s with key := some name, awaiting := none }
  | .proof => { s with proof := some name, awaiting := none }

/-- Takes one argument; of a repeated flag the last value counts. -/
def Settings.take (s : Settings) (r : Role) : Except Refusal Settings :=
  match s.awaiting, r with
  | some f, .plain text => .ok (s.set text f)
  | some _, _ => .error .usage
  | none, .flag .help => .error .help
  | none, .flag .flat => .ok { s with flat := true }
  | none, .flag (.file f) => .ok { s with awaiting := some f }
  | none, .assigned (.file f) value => .ok (s.set value f)
  | none, .assigned _ _ => .error .usage
  | none, .helpAnd letters =>
      if letters ≠ "" ∧ letters.all (· = 'h') then .error .help else .error .usage
  | none, .plain _ | none, .separator | none, .unknownFlag => .ok { s with surplus := true }

def Settings.settle (s : Settings) : Except Refusal Options :=
  match s.key, s.proof, s.awaiting, s.surplus with
  | some key, some proof, none, false => .ok ⟨key, proof, s.flat⟩
  | _, _, _, _ => .error .usage

def parse (args : List String) : Except Refusal Options := do
  (← (← roles args).foldlM Settings.take .start).settle

/-- What is written when a run does not accept. -/
inductive Diagnostic where
  | fileNotFound (name : String)
  | couldNotLoad (fault : Fault)
  | doesNotMatch (fault : Fault)
  | malformedPoint (cause : PointFault)
  | rejected (cause : Rejection)
deriving DecidableEq, Repr

/-- Faults without a wording of their own are worded by the caller. -/
def Diagnostic.text (wording : Fault → String) : Diagnostic → String
  | fileNotFound name => "Error: File not found: " ++ name ++ "\n"
  | couldNotLoad fault => "Error: Could not load input: " ++ wording fault ++ "\n"
  | doesNotMatch fault =>
      "Error: Proof does not match verifying key: " ++ wording fault ++ "\n"
  | malformedPoint cause => "ERROR: Malformed point: " ++ cause.message ++ "\n"
  | rejected cause => "ERROR: " ++ cause.message ++ "\n"

/-- A malformed point and a rejection end with status one, all other failures with two. -/
def Diagnostic.status : Diagnostic → Nat
  | malformedPoint _ | rejected _ => 1
  | _ => 2

structure Outcome where
  output : String
  diagnostic : Option Diagnostic
deriving DecidableEq, Repr

def Outcome.status (o : Outcome) : Nat := (o.diagnostic.map Diagnostic.status).getD 0

/-- A missing key in quotes, a missing position without them, the wording of the fault,
or a plain word for it. -/
def wording (fault : Fault) : String :=
  match fault, fault.message with
  | .missingKey key, _ => "'" ++ key ++ "'"
  | _, some message => message
  | .notJson, none => "not a JSON document"
  | .kind _, none => "a value of the wrong kind"
  | .infiniteInteger, none => "an infinite number"
  | .tooDeep, none => "too many nested values"
  | .access .directory, none => "a directory in the place of a file"
  | .access .nameTooLong, none => "a file name that is too long"
  | _, none => "a value that cannot be read"

/-- What a name stands for. -/
inductive Entry where
  | missing
  | refused (cause : AccessFault)
  | text (content : String)
deriving DecidableEq, Repr

/-- The faults that a run does not report itself where a file is loaded. -/
def isFatal : Fault → Bool
  | .notJson | .missingKey _ | .missingPosition _ | .kind _ | .value _ | .point _ => false
  | .rejected _ | .noSuchEntry | .zeroInverse | .infiniteInteger | .tooDeep | .access _ => true

/-- A file read and understood. Two dashes are no name, and no name holds the character zero. -/
def load {α : Type} (files : String → Entry) (name : String)
    (read : String → Except Fault α) : Except Fault (Except Diagnostic α) :=
  if name = "--" then .ok (.error (.couldNotLoad (.kind .noName)))
  else if name.contains (Char.ofNat 0) then .ok (.error (.couldNotLoad (.value .fileName)))
  else
    match files name with
    | .missing => .ok (.error (.fileNotFound name))
    | .refused cause => .error (.access cause)
    | .text content =>
        match read content with
        | .ok a => .ok (.ok a)
        | .error fault =>
            if isFatal fault then .error fault else .ok (.error (.couldNotLoad fault))

def report (result : Except Fault Unit) : Except Fault (Option Diagnostic) :=
  match result with
  | .ok () => .ok none
  | .error (.rejected cause) => .ok (some (.rejected cause))
  | .error (.point cause) => .ok (some (.malformedPoint cause))
  | .error (.value cause) => .ok (some (.doesNotMatch (.value cause)))
  | .error .notJson => .ok (some (.doesNotMatch .notJson))
  | .error fault => .error fault

/-- A run on two files, whose documents are nested no deeper than `maxDepth`. -/
def run (e : Pairing) (files : String → Entry) (o : Options)
    (maxDepth : Nat := Json.usualDepth) : Except Fault Outcome := do
  match ← load files o.key (DeciderKey.ofText · maxDepth) with
  | .error d => return ⟨"", some d⟩
  | .ok key =>
      match ← load files o.proof (DeciderProof.ofText · maxDepth) with
      | .error d => return ⟨"", some d⟩
      | .ok proof =>
          let decider := Decider.ofKey key
          let started := s!"Loaded verifying key: state_len={key.stateLength}, " ++
            s!"nPublic={key.inputCount}\n" ++
            s!"Verifying decider proof for {proof.steps} folded steps\n"
          let result :=
            if o.flat then decider.verifyFlat e (.ints proof.toWords) else decider.verify e proof
          match ← report result with
          | none => return ⟨started ++ "Proof verified\n", none⟩
          | some d => return ⟨started, some d⟩

end Cli
end FoldingVerifier
