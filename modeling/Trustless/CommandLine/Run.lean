import Trustless.CommandLine.Invocation
import Trustless.Portal.Client
import Trustless.Registry.Derivation

/-!
# Carrying out commands

A command needs little from outside: files, fresh random bytes and a way to send requests. With these
given, what it prints is a function of the command line.

* `run`: carries out a command.
* `Fault.report`: what the user is told about a failure.
* `Ending`: how the program ends, from the arguments to the exit code.
-/

namespace Trustless.CommandLine

open Json (Value)
open Portal (Client Failure Request Response Served)

/-- What a command needs from outside. -/
structure Surroundings (σ : Type) where
  /-- The content of a file, or what the system says about it. -/
  readFile : String → Except String ByteArray
  freshSeed : Registry.RootSeed
  /-- Sends a request to an address. -/
  dial : String → Request → σ → Except TransportError Response × σ

/-- A failure as the user is told about it. -/
structure Fault where
  message : String
  /-- What lies behind it, the nearest first. -/
  causes : List String := []
  /-- The portals that failed. -/
  failures : List Failure := []

namespace Fault

/-- What lies behind a failed operation. -/
def causesOf : PortalError → List String
  | .download (.merkle source) => [(DownloadError.merkle source).message, source.message]
  | .download source => [source.message]
  | _ => []

/-- A failed operation. -/
def ofPortal (e : PortalError) : Fault where
  message := e.message
  causes := causesOf e
  failures := match e with
    | .exhausted failures => failures
    | _ => []

/-- A portal that failed, as a line. -/
def failureLine (f : Failure) : String :=
  match f.status? with
  | some status => s!"  {f.portal} (HTTP {status}): {f.message}\n"
  | none => s!"  {f.portal}: {f.message}\n"

/-- A number in a field of five characters. -/
def numberField (n : Nat) : String :=
  String.ofList (List.replicate (5 - (toString n).length) ' ') ++ toString n

/-- What lies behind a failure, as lines. They are numbered if there is more than one. -/
def causeLines : List String → String
  | [] => ""
  | [cause] => s!"\nCaused by:\n    {cause}\n"
  | causes =>
    "\nCaused by:\n" ++
      String.join (causes.mapIdx fun i cause => s!"{numberField i}: {cause}\n")

/-- What the user is told. -/
def report (f : Fault) : String :=
  String.join (f.failures.map failureLine) ++ s!"Error: {f.message}\n" ++ causeLines f.causes

end Fault

/-- What a command brings about. -/
inductive Output
  | line (text : String)
  | bytes (content : ByteArray)
  | file (path : String) (content : ByteArray)

/-- The result of a step, with a text about what was tried if it fails. -/
def within {ε α : Type} (text : String) (cause : ε → String) : Except ε α → Except Fault α
  | .ok a => .ok a
  | .error e => .error { message := text, causes := [cause e] }

/-- The result of a step, with its own wording if it fails. -/
def plainly {ε α : Type} (wording : ε → String) : Except ε α → Except Fault α
  | .ok a => .ok a
  | .error e => .error { message := wording e }

/-- Bytes in hex. -/
def readHex (text : String) (hex : String) : Except Fault ByteArray :=
  within text EncodingError.message (Hex.decode hex)

/-- The keys that the root seed and two tags give. -/
def entryKeys (s : Settings) (tags : Tags) : Except Fault Registry.EntryKeys := do
  let some hex := s.seed
    | throw { message := "a root seed is required (--seed or SKYTRUST_SEED)" }
  let seed ← readHex "seed is not valid hex" (Text.trim hex)
  let seed ← plainly RegistryError.message (Registry.RootSeed.parse seed)
  plainly RegistryError.message
    (Registry.EntryKeys.derive seed.bytes.toByteArray tags.keypair tags.dataKey)

/-- What is written to an entry, as bytes. -/
def Content.bytes : Content → Except Fault ByteArray
  | .link l => .ok l.bytes.toByteArray
  | .hex text => readHex "data is not valid hex" text

/-- The name of a file without the directories before it. -/
def fileName? (path : String) : Option String :=
  match ((path.splitOn "/").filter fun part => part ≠ "" ∧ part ≠ ".").getLast? with
  | none | some ".." => none
  | some name => some name

/-- A link, taken apart. -/
def inspect (link : Link) : Except Fault Output := do
  let target ← plainly LinkError.message link.target
  return .line (Value.ofFields [
    ("link", .string link.toText),
    ("version", .nat target.version),
    ("offset", .nat target.offset),
    ("fetch_size", .nat target.size),
    ("root", .string link.root.toHex)]).pretty

/-- The public side of derived keys. -/
def describeKeys (keys : Registry.EntryKeys) : Output :=
  let owner := keys.publicKey
  .line (Value.ofFields [
    ("public_key", .string owner.toHex),
    ("data_key", .string keys.dataKey.toHex),
    ("entry_id", .string (Registry.Entry.name owner keys.dataKey).toHex),
    ("resolver_link", .string (Registry.Entry.link owner keys.dataKey).toText)]).pretty

/-- The link that an entry holds, if it holds one. -/
def heldLink? (entry : Registry.Entry) : Option Link :=
  (Link.ofBytes entry.data).toOption.filter Link.isValid

/-- An entry, or that there is none. -/
def describeEntry : Option Registry.Entry → Output
  | none => .line "entry not found"
  | some entry => .line (Value.ofFields [
      ("data", .string (Hex.encode entry.data)),
      ("revision", .nat entry.revision.toNat),
      ("signature", .string entry.signature.toHex),
      ("link", match heldLink? entry with
        | some link => .string link.toText
        | none => .null)]).pretty

/-- A downloaded file, at a path or on its own. -/
def deliver (file : ByteArray) : Option String → Output
  | none => .bytes file
  | some path => .file path file

/-- The report of a written entry. -/
def describeWrite (keys : Registry.EntryKeys) (served : Served Registry.Entry) : Output :=
  let link := Registry.Entry.link keys.publicKey keys.dataKey
  .line s!"wrote revision {served.value.revision} via {served.portal} ({link.toText})"

/-- The version of the program. -/
def versionText : String :=
  s!"{program} {Portal.version}\nrustc    unknown"

section Run

variable {σ : Type}

/-- A step that may fail and talk to portals. -/
abbrev Action (σ : Type) := ExceptT Fault (StateM σ)

/-- A step without portals. -/
def locally {α : Type} : Except Fault α → Action σ α
  | .ok a => pure a
  | .error f => throw f

/-- An operation of a client. -/
def withPortals {α : Type} (m : Portal.Session σ α) : Action σ α := fun s =>
  match m.run s with
  | (.ok a, s) => (.ok a, s)
  | (.error e, s) => (.error (.ofPortal e), s)

/-- The client with the settings. -/
def client (w : Surroundings σ) (s : Settings) : Except Fault (Client σ) :=
  within "failed to build http client" PortalError.message (Client.http s.config w.dial)

/-- Reads an entry. -/
def readEntry (w : Surroundings σ) (s : Settings) (publicKey dataKey : String) : Action σ Output := do
  let owner ← locally (readHex "public key is not valid hex" publicKey)
  let owner ← locally (plainly KeyError.message (PublicKey.parse owner))
  let dataKey ← locally (within "data key must be 32 bytes of hex" EncodingError.message
    (Hex.decodeVector 32 dataKey))
  let client ← locally (client w s)
  return describeEntry (← withPortals (client.readEntry owner dataKey))

/-- Writes an entry, at a given revision or the next one. -/
def writeEntry (w : Surroundings σ) (s : Settings) (tags : Tags) (content : Content)
    (revision? : Option UInt64) : Action σ Output := do
  let keys ← locally (entryKeys s tags)
  let data ← locally content.bytes
  let client ← locally (client w s)
  let served ← withPortals (match revision? with
    | some revision => client.writeEntry keys.keypair keys.dataKey data revision
    | none => client.updateEntry keys.keypair keys.dataKey data)
  return describeWrite keys served

/-- Uploads a file under a given name or its own. -/
def upload (w : Surroundings σ) (s : Settings) (path : String) (filename? : Option String) :
    Action σ Output := do
  let file ← locally (within s!"failed to read {path}" id (w.readFile path))
  let some filename := filename? <|> fileName? path
    | throw { message := s!"cannot derive a filename from {path}" }
  let client ← locally (client w s)
  let served ← withPortals (client.upload file ⟨filename, file.size.toUInt64⟩)
  return .line served.value.toText

/-- Carries out a command. -/
def run (w : Surroundings σ) (i : Invocation) : Action σ Output :=
  match i.command with
  | .download link output => do
    let client ← locally (client w i.settings)
    let served ← withPortals (client.download link)
    return deliver served.value.file output
  | .inspect link => locally (inspect link)
  | .deriveKeys tags => do return describeKeys (← locally (entryKeys i.settings tags))
  | .readEntry publicKey dataKey => readEntry w i.settings publicKey dataKey
  | .writeEntry tags content revision => writeEntry w i.settings tags content revision
  | .upload path filename => upload w i.settings path filename
  | .genSeed => return .line w.freshSeed.bytes.toHex
  | .version => return .line versionText

end Run

/-- How the program ends. -/
inductive Ending
  | usage (error : UsageError)
  | failed (fault : Fault)
  | done (output : Output)

namespace Ending

/-- How the program ends for a command line. -/
def of {σ : Type} (w : Surroundings σ) (env : String → Option String) (arguments : List String)
    (s : σ) : Ending × σ :=
  match Invocation.parse env arguments with
  | .error e => (.usage e, s)
  | .ok i =>
    match (run w i).run s with
    | (.ok output, s) => (.done output, s)
    | (.error fault, s) => (.failed fault, s)

/-- The exit code. A wish for help or the version is no failure. -/
def code : Ending → Nat
  | .usage .helpWanted | .usage (.versionWanted _) | .done _ => 0
  | .failed _ => 1
  | .usage _ => 2

/-- What is printed. -/
def printed : Ending → ByteArray
  | .done (.line text) => Bytes.ofString (text ++ "\n")
  | .done (.bytes content) => content
  | .usage .helpWanted => Bytes.ofString UsageError.helpText
  | .usage (.versionWanted program) => Bytes.ofString s!"{program} {Portal.version}\n"
  | .done (.file ..) | .failed _ | .usage _ => .empty

/-- What is printed to the user apart from results. -/
def told : Ending → String
  | .failed fault => fault.report
  | .usage .helpWanted | .usage (.versionWanted _) | .done _ => ""
  | .usage error => error.message ++ "\n"

/-- The file that is written, with its content. -/
def saved? : Ending → Option (String × ByteArray)
  | .done (.file path content) => some (path, content)
  | _ => none

/-- The ending if that file cannot be written, with what the system says about it. -/
def notSaved (path : String) (cause : String) : Ending :=
  .failed { message := s!"failed to write {path}", causes := [cause] }

end Ending

end Trustless.CommandLine
