import FoldingVerifier.Cli
import FoldingVerifier.Pairing.OptimalAte

/-! The program: it reads both files, runs, and writes. -/
namespace FoldingVerifier
namespace Cli

/-- What a name stands for; bytes that are no text hold no document. Whatever else keeps a file
from being read ends the program. -/
def entry (name : String) : IO Entry := do
  try
    let bytes ← IO.FS.readBinFile name
    return .text ((String.fromUTF8? bytes).getD "")
  catch
    | .noFileOrDirectory .. => return .missing
    | .inappropriateType .. => return .refused .directory
    | .invalidArgument .. => return .refused .nameTooLong
    | error => throw error

/-- The files of a run. The proof is not opened where the key cannot be loaded. -/
def filesOf (o : Options) : IO (String → Entry) := do
  let key ← entry o.key
  match load (fun _ => key) o.key DeciderKey.ofText with
  | .ok (.ok _) =>
      let proof ← entry o.proof
      return fun name => if name = o.key then key else proof
  | _ => return fun _ => key

def finish (result : Except Fault Outcome) : IO UInt32 := do
  match result with
  | .ok outcome =>
      IO.print outcome.output
      if let some diagnostic := outcome.diagnostic then
        IO.eprint (diagnostic.text wording)
      return outcome.status.toUInt32
  | .error fault =>
      IO.eprint (wording fault ++ "\n")
      return 1

end Cli
end FoldingVerifier

open FoldingVerifier in
def main (args : List String) : IO UInt32 := do
  match Cli.parse args with
  | .error .help =>
      IO.print Cli.usageText
      return Cli.Refusal.help.status.toUInt32
  | .error .usage =>
      IO.eprint Cli.usageText
      return Cli.Refusal.usage.status.toUInt32
  | .ok options =>
      let files ← Cli.filesOf options
      Cli.finish (Cli.run optimalAte files options)
