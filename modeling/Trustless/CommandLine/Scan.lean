import Trustless.CommandLine.Parameter

/-!
# Reading arguments

An argument is a name with two dashes, a letter with one, or neither. A value stands in the same
argument, after the name and an equals sign, or is the next argument, which then must not start with a
dash. After two dashes alone nothing is a name.

A value is checked as late as the next argument that is no value, so of two faults it is not always the
first that is reported. `Scan` therefore keeps the last value apart until it is settled.

* `Level`: the arguments that are understood, before and after the command.
* `scan`: reads arguments up to a command, or all of them.
-/

namespace Trustless.CommandLine

/-- The arguments that are understood at one place. -/
structure Level where
  /-- The name that stands before the version. -/
  program : String
  named : List Parameter
  /-- What stands alone. -/
  positional? : Option Parameter := none
  /-- The commands that may follow. -/
  commands : List String := []

/-- What an argument looks like. -/
inductive Shape
  | escape
  | long (name : String) (value? : Option String)
  | letters (first : Char) (rest : List Char)
  | plain

/-- Splits a text at its first equals sign. -/
def splitAtEquals (cs : List Char) : String × Option String :=
  match cs.dropWhile (· ≠ '=') with
  | [] => (String.ofList cs, none)
  | _ :: value => (String.ofList (cs.takeWhile (· ≠ '=')), some (String.ofList value))

/-- What an argument looks like. -/
def Shape.of (argument : String) : Shape :=
  match argument.toList with
  | ['-', '-'] => .escape
  | '-' :: '-' :: cs => .long (splitAtEquals cs).1 (splitAtEquals cs).2
  | '-' :: c :: cs => .letters c cs
  | _ => .plain

/-- How far the arguments are read. -/
structure Scan where
  given : Given := {}
  /-- The last parameter, with its value if that has been read. -/
  pending : Option (Parameter × Option String) := none
  /-- Whether an argument that stands alone has been read. -/
  alone : Bool := false

namespace Scan

/-- Adds the last value to the others. -/
def settle (s : Scan) : Except UsageError Scan :=
  match s.pending with
  | none => .ok s
  | some (p, none) => .error (.noValue p.name)
  | some (p, some text) => do return { s with given := ← s.given.assign p text, pending := none }

/-- The parameter whose value comes next. -/
def awaited? (s : Scan) : Option Parameter :=
  match s.pending with
  | some (p, none) => some p
  | _ => none

/-- Reads the name of a parameter, perhaps with its value. -/
def name (s : Scan) (p : Parameter) (value? : Option String) : Except UsageError Scan := do
  let s ← s.settle
  match value? with
  | none => return { s with pending := some (p, none) }
  | some text => return { s with given := ← s.given.assign p text }

/-- Reads an argument with two dashes. -/
def long (s : Scan) (level : Level) (name : String) (value? : Option String) :
    Except UsageError Scan :=
  if name = "help" ∨ name = "version" then
    if value?.isSome then .error (.unexpectedValue name)
    else s.settle.bind fun _ =>
      .error (if name = "help" then .helpWanted else .versionWanted level.program)
  else
    match level.named.find? fun p => p.name = name with
    | some p => s.name p value?
    | none => .error (.unknownArgument s!"--{name}")

/-- The value after a letter in the same argument, perhaps with an equals sign between. -/
def attached? : List Char → Option String
  | [] => none
  | '=' :: cs => some (String.ofList cs)
  | cs => some (String.ofList cs)

/-- Reads an argument with one dash. -/
def letters (s : Scan) (level : Level) (first : Char) (rest : List Char) :
    Except UsageError Scan :=
  if first = 'h' then s.settle.bind fun _ => .error .helpWanted
  else if first = 'V' then s.settle.bind fun _ => .error (.versionWanted level.program)
  else
    match level.named.find? fun p => p.letter? = some first with
    | some p => s.name p (attached? rest)
    | none => .error (.unknownArgument s!"-{first}")

/-- Reads an argument that stands alone. -/
def single (s : Scan) (level : Level) (literal : Bool) (argument : String) :
    Except UsageError Scan :=
  match level.positional? with
  | some p =>
    if s.alone then .error (.unknownArgument argument)
    else do return { ← s.settle with pending := some (p, some argument), alone := true }
  | none =>
    if level.commands.isEmpty ∨ literal ∧ level.commands.contains argument then
      .error (.unknownArgument argument)
    else .error (.unknownCommand argument)

end Scan

/-- Reads arguments up to a command, or all of them. The result has the command and the arguments
after it. -/
def scan (level : Level) (literal : Bool) (s : Scan) :
    List String → Except UsageError (Scan × Option (String × List String))
  | [] => .ok (s, none)
  | argument :: rest =>
    if literal then do scan level true (← s.single level true argument) rest
    else if s.awaited?.isNone ∧ level.commands.contains argument then
      .ok (s, some (argument, rest))
    else
      match Shape.of argument with
      | .escape => scan level true s rest
      | .long name value? => do scan level false (← s.long level name value?) rest
      | .letters first cs => do scan level false (← s.letters level first cs) rest
      | .plain =>
        match s.awaited? with
        | some p => scan level false { s with pending := some (p, some argument) } rest
        | none => do scan level false (← s.single level false argument) rest

end Trustless.CommandLine
