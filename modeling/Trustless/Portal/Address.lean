import Trustless.Portal.Message
import Trustless.Text

/-!
# Addresses of portals

A portal is named by a host, which is then asked over HTTPS, or by a whole address with a scheme.
-/

namespace Trustless.Portal

/-- The name of a portal without blanks around it and slashes after it. -/
def bareName (portal : String) : String :=
  String.ofList (Text.dropTrailing (· == '/') (Text.trimChars portal.toList))

/-- What separates the scheme of an address from the rest. -/
def schemeMark : List Char := [':', '/', '/']

/-- Whether the mark of a scheme stands somewhere in a text. -/
def hasMark : List Char → Bool
  | [] => false
  | c :: cs => schemeMark.isPrefixOf (c :: cs) || hasMark cs

/-- Whether a name comes with a scheme. -/
def hasScheme (name : String) : Bool :=
  hasMark name.toList

/-- The address of an endpoint at a portal. -/
def address (portal endpoint : String) : Except TransportError String :=
  let name := bareName portal
  if name.isEmpty || name.toList.any Text.isBlank then .error (.invalidUrl name)
  else if hasScheme name then .ok (name ++ endpoint)
  else .ok ("https://" ++ name ++ endpoint)

/-- Whether a character may stand in a scheme after the first. -/
def isSchemeChar (c : Char) : Bool :=
  c.isAlphanum || c == '+' || c == '-' || c == '.'

/-- Whether an address starts with a scheme. -/
def startsWithScheme (url : String) : Bool :=
  match url.toList with
  | [] => false
  | c :: cs => c.isAlpha && (cs.dropWhile isSchemeChar).head? == some ':'

end Trustless.Portal
