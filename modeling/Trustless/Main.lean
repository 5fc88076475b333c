import Trustless.CommandLine.Run

/-!
# The program

Reads the arguments, the environment and the files that a command needs, and prints what the command
line asks for. This build has no network: whatever would be sent to a portal fails.
-/

namespace Trustless.CommandLine

/-- What the system says about a file that it cannot read or write. -/
def systemText : IO.Error → String
  | .noFileOrDirectory .. => "No such file or directory (os error 2)"
  | .permissionDenied .. => "Permission denied (os error 13)"
  | .inappropriateType .. => "Is a directory (os error 21)"
  | e => toString e

/-- The content of a file. -/
def readFile (path : String) : IO (Except String ByteArray) := do
  try return .ok (← IO.FS.readBinFile path)
  catch e => return .error (systemText e)

/-- The values of the variables that the general parameters are read from. -/
def readEnvironment : IO (String → Option String) := do
  let pairs ← (Parameter.general.filterMap Parameter.environmentName?).mapM fun name => do
    return (name, ← IO.getEnv name)
  return fun name => (pairs.lookup name).join

/-- The file that a command line reads. -/
def neededFile? (env : String → Option String) (arguments : List String) : Option String :=
  match Invocation.parse env arguments with
  | .ok { command := .upload path _, .. } => some path
  | _ => none

/-- What commands get from the system. -/
def surroundings (file : Except String ByteArray) (seed : ByteArray) : Surroundings Unit where
  readFile _ := file
  freshSeed := ⟨ByteVector.sliceD seed 0 Registry.seedSize⟩
  dial _ _ s := (.error (.request "no network"), s)

/-- Writes the file that is to be written, if any. -/
def save (e : Ending) : IO Ending := do
  let some (path, content) := e.saved? | return e
  try
    IO.FS.writeBinFile path content
    return e
  catch err => return .notSaved path (systemText err)

end Trustless.CommandLine

open Trustless CommandLine in
/-- The program. -/
def main (arguments : List String) : IO UInt32 := do
  let env ← readEnvironment
  let file ← match neededFile? env arguments with
    | some path => readFile path
    | none => pure (.error "")
  let seed ← IO.getRandomBytes 16
  let ending ← save (Ending.of (surroundings file seed) env arguments ()).1
  (← IO.getStdout).write ending.printed
  IO.eprint ending.told
  return ending.code.toUInt32
