import Trustless.Json.Value
import Trustless.Skyfile.Error

/-!
# The metadata of a skyfile

The name and the length of a file, kept as JSON between layout and file. Only single files are
supported: metadata that asks for more is refused before anything is uploaded.

* `Path.check`: the paths that are clean and relative.
* `Metadata.check`: metadata of any origin.
* `Metadata.encode`: the JSON text of a file's metadata.
-/

namespace Trustless.Skyfile

open Json (Value)

namespace Path

/-- The elements of a path, between its slashes. -/
def elements : List Char → List (List Char)
  | [] => [[]]
  | c :: cs =>
    if c = '/' then [] :: elements cs
    else
      match elements cs with
      | [] => [[c]]
      | e :: es => (c :: e) :: es

/-- What is wrong with an element of a path. -/
def elementFault? (e : List Char) : Option PathFault :=
  if e = [] then some .emptyElement
  else if e = ['.'] ∨ e = ['.', '.'] then some .dotElement
  else none

/-- What is wrong with a path: the first fault from the left. -/
def fault? (path : List Char) : Option PathFault :=
  match path with
  | [] => some .empty
  | '/' :: _ => some .leadingSlash
  | _ => (elements path).findSome? elementFault?

/-- Checks that a path is a clean relative path. -/
def check (path : String) : Except SkyfileError Unit :=
  match fault? path.toList with
  | some fault => .error (.invalidPath path fault)
  | none => .ok ()

end Path

/-- The name and the length of a file. -/
structure Metadata where
  filename : String
  length : UInt64
deriving DecidableEq, Repr

namespace Metadata

/-- Checks metadata of any origin. -/
def check (v : Value) : Except SkyfileError Unit := do
  if !v.isObject then throw (.invalidMetadata .notAnObject)
  let some filename := v.field? "Filename" | throw (.invalidMetadata .noFilename)
  let some filename := filename.asString? | throw (.invalidMetadata .filenameNotString)
  Path.check filename
  let has (key : String) : Bool := (v.field? key).isSome
  if has "Subfiles" then throw (.unsupported "Subfiles")
  if has "DefaultPath" then
    throw (.invalidMetadata
      (if has "DisableDefaultPath" then .bothDefaultPaths else .defaultPathAlone))
  if has "TryFiles" then throw (.unsupported "TryFiles")
  if has "ErrorPages" then throw (.unsupported "ErrorPages")

/-- The JSON value of metadata. -/
def toValue (m : Metadata) : Value :=
  .object [("Filename", .string m.filename), ("Length", .nat m.length.toNat)]

/-- The JSON text of metadata, if it passes the checks. -/
def encode (m : Metadata) : Except SkyfileError String := do
  check m.toValue
  return m.toValue.compact

end Metadata

end Trustless.Skyfile
