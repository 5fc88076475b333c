import Trustless.Link.Basic

/-!
# What can be given on the command line

Every value that a user can give has a `Parameter`. Most are named, as in `--revision 7`; links and
files may also stand alone. The general ones may be given with any command, and also by a variable of
the environment.

* `Given`: the values given so far.
* `Given.assign`: a value is checked when it is added, and only portals may be given more than once.
-/

namespace Trustless.CommandLine

/-- Why arguments are not understood. Three of the causes are wishes of the user. -/
inductive UsageError
  | helpWanted
  | versionWanted (program : String)
  | nothingGiven
  | commandMissing
  | unknownCommand (argument : String)
  | unknownArgument (argument : String)
  | missing (parameter : String)
  | noValue (parameter : String)
  | unexpectedValue (parameter : String)
  | invalidValue (parameter value : String)
  | conflict (parameter other : String)
deriving DecidableEq, Repr

/-- What a user can give a value for. -/
inductive Parameter
  | portals | notFoundQuorum | timeoutSecs | logFormat | seed
  | link | output | keypairTag | dataKeyTag | publicKey | dataKey | dataHex | revision
  | file | filename
deriving DecidableEq, Repr

namespace Parameter

/-- The name of a parameter, without the dashes before it. -/
def name : Parameter → String
  | portals => "portals"
  | notFoundQuorum => "not-found-quorum"
  | timeoutSecs => "timeout-secs"
  | logFormat => "log-format"
  | seed => "seed"
  | link => "link"
  | output => "output"
  | keypairTag => "keypair-tag"
  | dataKeyTag => "data-key-tag"
  | publicKey => "public-key"
  | dataKey => "data-key"
  | dataHex => "data-hex"
  | revision => "revision"
  | file => "file"
  | filename => "filename"

/-- The letter that can stand for the name. -/
def letter? : Parameter → Option Char
  | output => some 'o'
  | _ => none

/-- The variable of the environment that holds a value. -/
def environmentName? : Parameter → Option String
  | portals => some "SKYTRUST_PORTALS"
  | notFoundQuorum => some "SKYTRUST_NOT_FOUND_QUORUM"
  | timeoutSecs => some "SKYTRUST_TIMEOUT_SECS"
  | logFormat => some "SKYTRUST_LOG_FORMAT"
  | seed => some "SKYTRUST_SEED"
  | _ => none

/-- The parameters that go with any command. -/
def general : List Parameter := [portals, notFoundQuorum, timeoutSecs, logFormat, seed]

end Parameter

/-- The values given so far. -/
structure Given where
  portals : Option (List String) := none
  notFoundQuorum : Option UInt64 := none
  timeoutSecs : Option UInt64 := none
  logFormat : Option String := none
  seed : Option String := none
  link : Option Link := none
  output : Option String := none
  keypairTag : Option String := none
  dataKeyTag : Option String := none
  publicKey : Option String := none
  dataKey : Option String := none
  dataHex : Option String := none
  revision : Option UInt64 := none
  file : Option String := none
  filename : Option String := none

/-- A number of 64 bits in decimal digits, perhaps after a plus sign. -/
def readU64 (p : Parameter) (s : String) : Except UsageError UInt64 :=
  let digits := match s.toList with
    | '+' :: cs => cs
    | cs => cs
  let n := Nat.ofDigitChars 10 digits 0
  if digits ≠ [] ∧ digits.all Char.isDigit ∧ n < UInt64.size then .ok n.toUInt64
  else .error (.invalidValue p.name s)

/-- A link in base64. -/
def readLink (p : Parameter) (s : String) : Except UsageError Link :=
  (Link.ofText s).mapError fun _ => .invalidValue p.name s

/-- A path, which has at least one character. -/
def readPath (p : Parameter) (s : String) : Except UsageError String :=
  if s.isEmpty then .error (.noValue p.name) else .ok s

/-- Any text. -/
def readText (_ : Parameter) (s : String) : Except UsageError String :=
  .ok s

namespace Given

/-- The value of a parameter that may be given only once. -/
def once {α : Type} (p : Parameter) (read : Parameter → String → Except UsageError α)
    (old : Option α) (text : String) : Except UsageError (Option α) :=
  match old with
  | some _ => .error (.conflict p.name p.name)
  | none => (read p text).map some

/-- Adds a value. Portals stand in a list with commas. -/
def assign (g : Given) (p : Parameter) (text : String) : Except UsageError Given := do
  match p with
  | .portals => return { g with portals := some (g.portals.getD [] ++ text.splitOn ",") }
  | .notFoundQuorum => return { g with notFoundQuorum := ← once p readU64 g.notFoundQuorum text }
  | .timeoutSecs => return { g with timeoutSecs := ← once p readU64 g.timeoutSecs text }
  | .logFormat => return { g with logFormat := ← once p readText g.logFormat text }
  | .seed => return { g with seed := ← once p readText g.seed text }
  | .link => return { g with link := ← once p readLink g.link text }
  | .output => return { g with output := ← once p readPath g.output text }
  | .keypairTag => return { g with keypairTag := ← once p readText g.keypairTag text }
  | .dataKeyTag => return { g with dataKeyTag := ← once p readText g.dataKeyTag text }
  | .publicKey => return { g with publicKey := ← once p readText g.publicKey text }
  | .dataKey => return { g with dataKey := ← once p readText g.dataKey text }
  | .dataHex => return { g with dataHex := ← once p readText g.dataHex text }
  | .revision => return { g with revision := ← once p readU64 g.revision text }
  | .file => return { g with file := ← once p readPath g.file text }
  | .filename => return { g with filename := ← once p readText g.filename text }

/-- Whether a general parameter has a value. -/
def hasGeneral (g : Given) : Parameter → Bool
  | .portals => g.portals.isSome
  | .notFoundQuorum => g.notFoundQuorum.isSome
  | .timeoutSecs => g.timeoutSecs.isSome
  | .logFormat => g.logFormat.isSome
  | .seed => g.seed.isSome
  | _ => false

/-- Whether no general parameter has a value. -/
def isEmpty (g : Given) : Bool :=
  !Parameter.general.any g.hasGeneral

/-- The values of one group, and where it has none, those of another for the general parameters. -/
def orGeneral (g other : Given) : Given :=
  { g with
    portals := g.portals <|> other.portals
    notFoundQuorum := g.notFoundQuorum <|> other.notFoundQuorum
    timeoutSecs := g.timeoutSecs <|> other.timeoutSecs
    logFormat := g.logFormat <|> other.logFormat
    seed := g.seed <|> other.seed }

/-- Takes from the environment what is not given for parameters in a list. -/
def fill (env : String → Option String) (g : Given) : List Parameter → Except UsageError Given
  | [] => .ok g
  | p :: ps =>
    if g.hasGeneral p then g.fill env ps
    else
      match p.environmentName?.bind env with
      | none => g.fill env ps
      | some text => do fill env (← g.assign p text) ps

end Given

end Trustless.CommandLine
