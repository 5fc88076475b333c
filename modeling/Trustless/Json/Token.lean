import Trustless.Json.Number
import Trustless.Encoding.Hex

/-!
# JSON tokens

The lexical layer of JSON: brackets, separators, words, numbers and strings. `Token.toChars` writes a
token, `Token.next?` reads the first token of a text that does not start with a blank, and
`Token.scan?` a whole text.

Strings are sequences of Unicode scalar values. An escaped surrogate is read only together with its
partner, and a control character must be escaped.
-/

namespace Trustless.Json

/-- A token of a JSON text. -/
inductive Token
  | openArray
  | closeArray
  | openObject
  | closeObject
  | comma
  | colon
  | null
  | bool (b : Bool)
  | number (n : Number)
  | string (s : String)
deriving DecidableEq, Repr

namespace Token

/-! ## Strings -/

/-- The escaped or plain form of a character. -/
def escape (c : Char) : List Char :=
  if c = '"' then ['\\', '"']
  else if c = '\\' then ['\\', '\\']
  else if c = '\n' then ['\\', 'n']
  else if c = '\r' then ['\\', 'r']
  else if c = '\t' then ['\\', 't']
  else if c = '\x08' then ['\\', 'b']
  else if c = '\x0c' then ['\\', 'f']
  else if c.toNat < 0x20 then
    ['\\', 'u', '0', '0', Hex.digit (c.toNat / 16), Hex.digit (c.toNat % 16)]
  else [c]

/-- A quoted string. -/
def quote (s : String) : List Char :=
  '"' :: s.toList.flatMap escape ++ ['"']

/-- The number written with four hex digits. -/
def hex4? (a b c d : Char) : Option Nat := do
  let w ← Hex.digitValue? a
  let x ← Hex.digitValue? b
  let y ← Hex.digitValue? c
  let z ← Hex.digitValue? d
  some (4096 * w + 256 * x + 16 * y + z)

/-- The character that a letter after a backslash stands for. -/
def unescape? : Char → Option Char
  | '"' => some '"'
  | '\\' => some '\\'
  | '/' => some '/'
  | 'b' => some '\x08'
  | 'f' => some '\x0c'
  | 'n' => some '\n'
  | 'r' => some '\r'
  | 't' => some '\t'
  | _ => none

/-- Puts a character in front of what was read. -/
def push (c : Char) (r : Option (List Char × List Char)) : Option (List Char × List Char) :=
  r.map fun (s, rest) => (c :: s, rest)

/-- The characters up to the closing quote, and what follows it. -/
def readString : List Char → Option (List Char × List Char)
  | [] => none
  | '"' :: cs => some ([], cs)
  | '\\' :: 'u' :: a :: b :: c :: d :: cs =>
    match hex4? a b c d with
    | none => none
    | some hi =>
      if 0xDC00 ≤ hi ∧ hi < 0xE000 then none
      else if 0xD800 ≤ hi ∧ hi < 0xDC00 then
        match cs with
        | '\\' :: 'u' :: a :: b :: c :: d :: cs =>
          match hex4? a b c d with
          | none => none
          | some lo =>
            if 0xDC00 ≤ lo ∧ lo < 0xE000 then
              push (Char.ofNat (0x10000 + 0x400 * (hi - 0xD800) + (lo - 0xDC00))) (readString cs)
            else none
        | _ => none
      else push (Char.ofNat hi) (readString cs)
  | '\\' :: c :: cs =>
    match unescape? c with
    | some c => push c (readString cs)
    | none => none
  | c :: cs => if c.toNat < 0x20 ∨ c = '\\' then none else push c (readString cs)

/-! ## Tokens -/

/-- The text of a token. -/
def toChars : Token → List Char
  | openArray => ['[']
  | closeArray => [']']
  | openObject => ['{']
  | closeObject => ['}']
  | comma => [',']
  | colon => [':']
  | null => ['n', 'u', 'l', 'l']
  | bool true => ['t', 'r', 'u', 'e']
  | bool false => ['f', 'a', 'l', 's', 'e']
  | number n => n.toChars
  | string s => quote s

/-- The characters of which numbers are made. -/
def inNumber (c : Char) : Bool :=
  c.isDigit || c == '-' || c == '+' || c == '.' || c == 'e' || c == 'E'

/-- The characters between tokens. -/
def isBlank (c : Char) : Bool :=
  c == ' ' || c == '\n' || c == '\t' || c == '\r'

/-- The first token, and what follows it. -/
def next? : List Char → Option (Token × List Char)
  | '[' :: cs => some (openArray, cs)
  | ']' :: cs => some (closeArray, cs)
  | '{' :: cs => some (openObject, cs)
  | '}' :: cs => some (closeObject, cs)
  | ',' :: cs => some (comma, cs)
  | ':' :: cs => some (colon, cs)
  | 'n' :: 'u' :: 'l' :: 'l' :: cs => some (null, cs)
  | 't' :: 'r' :: 'u' :: 'e' :: cs => some (bool true, cs)
  | 'f' :: 'a' :: 'l' :: 's' :: 'e' :: cs => some (bool false, cs)
  | '"' :: cs => (readString cs).map fun (s, rest) => (string (String.ofList s), rest)
  | cs => (Number.ofChars? (cs.takeWhile inNumber)).map fun n => (number n, cs.dropWhile inNumber)

/-- The tokens of a text, of which there are fewer than `fuel`. -/
def scanWith : (fuel : Nat) → List Char → Option (List Token)
  | 0, _ => none
  | _ + 1, [] => some []
  | fuel + 1, c :: cs =>
    if isBlank c then scanWith fuel cs
    else
      match next? (c :: cs) with
      | none => none
      | some (t, rest) => (scanWith fuel rest).map (t :: ·)

/-- The tokens of a text. -/
def scan? (cs : List Char) : Option (List Token) :=
  scanWith (cs.length + 1) cs

end Token

end Trustless.Json
