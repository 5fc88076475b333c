import Trustless.CommandLine.Scan
import Trustless.Portal.Config
import Trustless.Text

/-!
# What the user wants

The arguments and the environment give the settings and one command. The general parameters may stand
before the command and after it; the ones after it count. A variable of the environment counts where
no argument does.

* `Invocation.parse`: the whole command line.
* `Settings.portalList`: the portals that are asked.
-/

namespace Trustless.CommandLine

/-- How the log is written. -/
inductive LogFormat
  | pretty
  | json
deriving DecidableEq, Repr

/-- The log format of a name. Every other name than that of JSON is for pretty text. -/
def LogFormat.ofName (name : String) : LogFormat :=
  if name.toLower = "json" then .json else .pretty

/-- What goes with any command. -/
structure Settings where
  portals : List String
  notFoundQuorum : UInt64
  timeoutSecs : UInt64
  logFormat : String
  seed : Option String
deriving DecidableEq, Repr

namespace Settings

/-- The settings in what is given. -/
def ofGiven (g : Given) : Settings where
  portals := g.portals.getD []
  notFoundQuorum := g.notFoundQuorum.getD 2
  timeoutSecs := g.timeoutSecs.getD 30
  logFormat := g.logFormat.getD "pretty"
  seed := g.seed

/-- The portals that are asked: the given ones without blanks, or the built-in ones. -/
def portalList (s : Settings) : List String :=
  let portals := (s.portals.map Text.trim).filter (· ≠ "")
  if portals = [] then Portal.defaultPortals else portals

/-- The settings as a client needs them. -/
def config (s : Settings) : Portal.Config :=
  { portals := s.portalList
    notFoundQuorum := s.notFoundQuorum.toNat
    timeoutMs := 1000 * s.timeoutSecs.toNat }

end Settings

/-- The tags that choose the keys of an entry. -/
structure Tags where
  keypair : String
  dataKey : String
deriving DecidableEq, Repr

/-- What is written to an entry. -/
inductive Content
  | link (link : Link)
  | hex (text : String)
deriving DecidableEq

/-- What is to be done. -/
inductive Command
  | download (link : Link) (output : Option String)
  | inspect (link : Link)
  | deriveKeys (tags : Tags)
  | readEntry (publicKey dataKey : String)
  | writeEntry (tags : Tags) (content : Content) (revision : Option UInt64)
  | upload (file : String) (filename : Option String)
  | genSeed
  | version
deriving DecidableEq

/-- The name of a command. -/
inductive CommandName
  | download | inspect | deriveKeys | readEntry | writeEntry | upload | genSeed | version
deriving DecidableEq, Repr

namespace CommandName

/-- All commands. -/
def all : List CommandName :=
  [download, inspect, deriveKeys, readEntry, writeEntry, upload, genSeed, version]

/-- The name of a command as it is written. -/
def text : CommandName → String
  | download => "download"
  | inspect => "inspect"
  | deriveKeys => "derive-keys"
  | readEntry => "read-entry"
  | writeEntry => "write-entry"
  | upload => "upload"
  | genSeed => "gen-seed"
  | version => "version"

/-- The parameters that go with a command, besides the general ones. -/
def parameters : CommandName → List Parameter
  | download => [.output]
  | deriveKeys => [.keypairTag, .dataKeyTag]
  | readEntry => [.publicKey, .dataKey]
  | writeEntry => [.keypairTag, .dataKeyTag, .link, .dataHex, .revision]
  | upload => [.filename]
  | inspect | genSeed | version => []

/-- The parameter of a command that stands alone. -/
def positional? : CommandName → Option Parameter
  | download | inspect => some .link
  | upload => some .file
  | deriveKeys | readEntry | writeEntry | genSeed | version => none

end CommandName

/-- The name of this program. -/
def program : String := "skytrust"

/-- The command that tells how to use the others. -/
def helpCommand : String := "help"

/-- The arguments before the command. -/
def outerLevel : Level where
  program := program
  named := Parameter.general
  commands := helpCommand :: CommandName.all.map CommandName.text

/-- The arguments after a command. -/
def CommandName.level (c : CommandName) : Level where
  program := s!"{program}-{c.text}"
  named := Parameter.general ++ c.parameters
  positional? := c.positional?

/-- What is said to someone who asks for help on commands. -/
def helpOn : List String → UsageError
  | [] => .helpWanted
  | [c] => if outerLevel.commands.contains c then .helpWanted else .unknownCommand c
  | c :: d :: _ => if outerLevel.commands.contains c then .unknownCommand d else .unknownCommand c

namespace UsageError

/-- How the program is used. -/
def helpText : String :=
  s!"Usage: {program} [OPTIONS] <COMMAND>\n\nCommands:\n"
    ++ String.join (outerLevel.commands.map fun c => s!"  {c}\n")
    ++ "\nOptions:\n"
    ++ String.join (Parameter.general.map fun p => s!"  --{p.name}\n")

/-- The wording of a usage error. -/
def message : UsageError → String
  | helpWanted | nothingGiven => helpText
  | versionWanted name => name
  | commandMissing => "error: a command is needed"
  | unknownCommand argument => s!"error: there is no command {argument}"
  | unknownArgument argument => s!"error: unexpected argument {argument}"
  | missing parameter => s!"error: {parameter} is missing"
  | noValue parameter => s!"error: {parameter} needs a value"
  | unexpectedValue parameter => s!"error: {parameter} has no value"
  | invalidValue parameter value => s!"error: {value} is no value for {parameter}"
  | conflict parameter other => s!"error: {parameter} cannot be used with {other}"

end UsageError

namespace Command

/-- A value that a command cannot do without. -/
def need {α : Type} (p : Parameter) : Option α → Except UsageError α
  | some a => .ok a
  | none => .error (.missing p.name)

/-- The tags in what is given. -/
def tags (g : Given) : Except UsageError Tags := do
  return ⟨← need .keypairTag g.keypairTag, ← need .dataKeyTag g.dataKeyTag⟩

/-- What is to be written: one of a link and bytes in hex. -/
def content (g : Given) : Except UsageError Content :=
  match g.link, g.dataHex with
  | some _, some _ => .error (.conflict Parameter.link.name Parameter.dataHex.name)
  | some link, none => .ok (.link link)
  | none, some text => .ok (.hex text)
  | none, none => .error (.missing Parameter.link.name)

/-- The command of a name with what is given for it. -/
def ofGiven (g : Given) : CommandName → Except UsageError Command
  | .download => do return .download (← need .link g.link) g.output
  | .inspect => do return .inspect (← need .link g.link)
  | .deriveKeys => do return .deriveKeys (← tags g)
  | .readEntry => do
    return .readEntry (← need .publicKey g.publicKey) (← need .dataKey g.dataKey)
  | .writeEntry => do
    let content ← content g
    return .writeEntry (← tags g) content g.revision
  | .upload => do return .upload (← need .file g.file) g.filename
  | .genSeed => .ok .genSeed
  | .version => .ok .version

end Command

/-- The command line as a whole. -/
structure Invocation where
  settings : Settings
  command : Command
deriving DecidableEq

namespace Invocation

/-- Reads the arguments after the name of the program. The variables of the environment are checked
on both sides of the command, each where no argument takes its place. -/
def parse (env : String → Option String) (arguments : List String) :
    Except UsageError Invocation := do
  let (outer, command?) ← scan outerLevel false {} arguments
  match command? with
  | none =>
    let outer ← (← outer.settle).given.fill env Parameter.general
    throw (if outer.isEmpty then .nothingGiven else .commandMissing)
  | some (text, rest) =>
    let some name := CommandName.all.find? fun c => c.text = text | throw (helpOn rest)
    let (inner, _) ← scan name.level false {} rest
    let inner := (← inner.settle).given
    let command ← Command.ofGiven (← inner.fill env Parameter.general) name
    let outer := (← outer.settle).given
    let _ ← outer.fill env Parameter.general
    let given ← (inner.orGeneral outer).fill env Parameter.general
    return ⟨Settings.ofGiven given, command⟩

end Invocation

end Trustless.CommandLine
