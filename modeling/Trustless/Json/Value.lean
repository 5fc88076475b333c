import Trustless.Json.Token

/-!
# JSON values

A value, its tokens, and the reader that turns tokens back into a value. The reader is a fold over
the tokens: it keeps the containers that are still open on a stack, and what may come next. At most
127 containers may be open at a time. An object keeps its fields sorted by key, and of two fields
with one key the later one.

* `Value.record?`, `Value.asBytes?`, `Value.ofBytes`: records and bytes as values.
* `Value.tokens`, `Value.compact`: a value without blanks.
* `Value.ofTokens?`, `Value.parse?`, `Value.ofBytes?`: the value of tokens, of a text, of UTF-8
  bytes.
-/

namespace Trustless.Json

/-- A JSON value. -/
inductive Value
  | null
  | bool (b : Bool)
  | number (n : Number)
  | string (s : String)
  | array (items : List Value)
  | object (fields : List (String × Value))

namespace Value

instance : Inhabited Value :=
  ⟨null⟩

/-! ## Building and looking up -/

/-- Puts a field into fields sorted by key, in place of one with the same key. -/
def insertField (key : String) (v : Value) : List (String × Value) → List (String × Value)
  | [] => [(key, v)]
  | (k, w) :: fields =>
    if key < k then (key, v) :: (k, w) :: fields
    else if key = k then (key, v) :: fields
    else (k, w) :: insertField key v fields

/-- An object with the given fields; of two with one key the later one counts. -/
def ofFields (fields : List (String × Value)) : Value :=
  object (fields.foldl (fun acc f => insertField f.1 f.2 acc) [])

/-- A natural number as a value. -/
def nat (n : Nat) : Value :=
  number (.natural n)

/-- The field of an object. -/
def field? (key : String) : Value → Option Value
  | object fields => fields.lookup key
  | _ => none

/-- The text of a string. -/
def asString? : Value → Option String
  | string s => some s
  | _ => none

/-- The value of a number written as an integer from 0 to `2 ^ 64 - 1`. -/
def asNat? : Value → Option Nat
  | number (.natural n) => some n
  | _ => none

/-- Whether the value is an object. -/
def isObject : Value → Bool
  | object _ => true
  | _ => false

/-! ## Records and bytes

A record with named fields is written as an object. It is read from an object, whatever else that
holds, and also from an array of exactly the fields in their order. Bytes are written as an array of
numbers. -/

/-- The fields of a record with the given names. -/
def record? (names : List String) : Value → Option (List Value)
  | array items => if items.length = names.length then some items else none
  | object fields => names.mapM fun name => fields.lookup name
  | _ => none

/-- The byte that a number stands for. -/
def asByte? (v : Value) : Option UInt8 := do
  let n ← v.asNat?
  if n < 256 then some n.toUInt8 else none

/-- The bytes that an array of numbers stands for. -/
def asBytes? : Value → Option ByteArray
  | array items => (items.mapM asByte?).map fun bs => ⟨bs.toArray⟩
  | _ => none

/-- Bytes as an array of numbers. -/
def ofBytes (b : ByteArray) : Value :=
  array (b.data.toList.map fun x => nat x.toNat)

/-! ## Writing -/

mutual

/-- The tokens of a value. -/
def tokens : Value → List Token
  | null => [.null]
  | bool b => [.bool b]
  | number n => [.number n]
  | string s => [.string s]
  | array [] => [.openArray, .closeArray]
  | array (v :: vs) => .openArray :: (tokens v ++ itemTokens vs)
  | object [] => [.openObject, .closeObject]
  | object ((k, v) :: fs) => .openObject :: .string k :: .colon :: (tokens v ++ fieldTokens fs)

/-- The tokens of an array after its first item. -/
def itemTokens : List Value → List Token
  | [] => [.closeArray]
  | v :: vs => .comma :: (tokens v ++ itemTokens vs)

/-- The tokens of an object after its first field. -/
def fieldTokens : List (String × Value) → List Token
  | [] => [.closeObject]
  | (k, v) :: fs => .comma :: .string k :: .colon :: (tokens v ++ fieldTokens fs)

end

/-- The text of a value without blanks. -/
def compact (v : Value) : String :=
  String.ofList (v.tokens.flatMap Token.toChars)

mutual

/-- The text of a value with one line for every item, `depth` steps of two blanks from the left. -/
def prettyChars (depth : Nat) : Value → List Char
  | null => Token.null.toChars
  | bool b => (Token.bool b).toChars
  | number n => (Token.number n).toChars
  | string s => (Token.string s).toChars
  | array [] => ['[', ']']
  | array (v :: vs) =>
    '[' :: '\n' :: List.replicate (2 * depth + 2) ' ' ++ prettyChars (depth + 1) v
      ++ prettyItems depth vs
  | object [] => ['{', '}']
  | object ((k, v) :: fs) =>
    '{' :: '\n' :: List.replicate (2 * depth + 2) ' ' ++ Token.quote k ++ [':', ' ']
      ++ prettyChars (depth + 1) v ++ prettyFields depth fs

/-- The lines of an array after its first item. -/
def prettyItems (depth : Nat) : List Value → List Char
  | [] => '\n' :: List.replicate (2 * depth) ' ' ++ [']']
  | v :: vs =>
    ',' :: '\n' :: List.replicate (2 * depth + 2) ' ' ++ prettyChars (depth + 1) v
      ++ prettyItems depth vs

/-- The lines of an object after its first field. -/
def prettyFields (depth : Nat) : List (String × Value) → List Char
  | [] => '\n' :: List.replicate (2 * depth) ' ' ++ ['}']
  | (k, v) :: fs =>
    ',' :: '\n' :: List.replicate (2 * depth + 2) ' ' ++ Token.quote k ++ [':', ' ']
      ++ prettyChars (depth + 1) v ++ prettyFields depth fs

end

/-- The text of a value over several lines. -/
def pretty (v : Value) : String :=
  String.ofList (prettyChars 0 v)

/-! ## Reading -/

/-- A container that is waiting for the value of an item. -/
inductive Frame
  | array (items : List Value)
  | object (fields : List (String × Value)) (key : String)

/-- What may come next. Items are kept last first. -/
inductive Expect
  | value
  | firstItem
  | firstKey
  | key (fields : List (String × Value))
  | colon (fields : List (String × Value)) (key : String)
  | afterItem (items : List Value)
  | afterField (fields : List (String × Value))
  | nothing (result : Value)

/-- The state between two tokens. -/
structure Reader where
  expect : Expect
  stack : List Frame

namespace Reader

/-- How many containers may be open at a time. -/
def maxDepth : Nat := 127

/-- Before the first token. -/
def start : Reader :=
  ⟨.value, []⟩

/-- A value is complete: hands it to the innermost open container. -/
def deliver (v : Value) : List Frame → Reader
  | [] => ⟨.nothing v, []⟩
  | .array items :: stack => ⟨.afterItem (v :: items), stack⟩
  | .object fields key :: stack => ⟨.afterField (insertField key v fields), stack⟩

/-- A token where a value is expected. -/
def beginValue (stack : List Frame) : Token → Option Reader
  | .null => some (deliver .null stack)
  | .bool b => some (deliver (.bool b) stack)
  | .number n => some (deliver (.number n) stack)
  | .string s => some (deliver (.string s) stack)
  | .openArray => if stack.length < maxDepth then some ⟨.firstItem, stack⟩ else none
  | .openObject => if stack.length < maxDepth then some ⟨.firstKey, stack⟩ else none
  | _ => none

/-- Takes one token. -/
def step (r : Reader) (t : Token) : Option Reader :=
  match r.expect, t with
  | .value, t => beginValue r.stack t
  | .firstItem, .closeArray => some (deliver (.array []) r.stack)
  | .firstItem, t => beginValue (.array [] :: r.stack) t
  | .firstKey, .closeObject => some (deliver (.object []) r.stack)
  | .firstKey, .string k => some ⟨.colon [] k, r.stack⟩
  | .key fields, .string k => some ⟨.colon fields k, r.stack⟩
  | .colon fields k, .colon => some ⟨.value, .object fields k :: r.stack⟩
  | .afterItem items, .comma => some ⟨.value, .array items :: r.stack⟩
  | .afterItem items, .closeArray => some (deliver (.array items.reverse) r.stack)
  | .afterField fields, .comma => some ⟨.key fields, r.stack⟩
  | .afterField fields, .closeObject => some (deliver (.object fields) r.stack)
  | _, _ => none

/-- Takes tokens in order. -/
def run (r : Reader) : List Token → Option Reader
  | [] => some r
  | t :: ts => step r t >>= fun r => run r ts

/-- The value that was read, if it is complete. -/
def result? (r : Reader) : Option Value :=
  match r.expect with
  | .nothing v => some v
  | _ => none

end Reader

/-- The value that tokens stand for. -/
def ofTokens? (ts : List Token) : Option Value :=
  Reader.start.run ts >>= Reader.result?

/-- The value of a JSON text. -/
def parse? (s : String) : Option Value :=
  Token.scan? s.toList >>= ofTokens?

/-- The value of a JSON text in UTF-8. -/
def ofBytes? (b : ByteArray) : Option Value :=
  String.fromUTF8? b >>= parse?

end Value

end Trustless.Json
