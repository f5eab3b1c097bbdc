import Mientras.Text.Json
import Mientras.Token.Basic

/-!
# Dumps of tokens

`Token.dumpAll` writes a list of tokens as a JSON array without spaces.  Each token is an object
with its kind, its text and its span.
-/

namespace Mientras

open Text (jsonText)

/-- A position as a JSON object. -/
def Position.dump (position : Position) : String :=
  "\x7b\"offset\":" ++ toString position.offset ++ ",\"line\":" ++ toString position.line
    ++ ",\"column\":" ++ toString position.column ++ "\x7d"

/-- A span as a JSON object. -/
def Span.dump (span : Span) : String :=
  "\x7b\"start\":" ++ span.start.dump ++ ",\"end\":" ++ span.stop.dump ++ "\x7d"

namespace Token

/-- A token as a JSON object. -/
def dump (token : Token) : String :=
  "\x7b\"kind\":" ++ jsonText token.kind.name ++ ",\"value\":" ++ jsonText token.value
    ++ ",\"span\":" ++ token.span.dump ++ "\x7d"

/-- The tokens as the elements of a JSON array. -/
def dumpElements : List Token → String
  | [] => ""
  | [token] => token.dump
  | token :: others => token.dump ++ "," ++ dumpElements others

/-- The tokens as a JSON array. -/
def dumpAll (tokens : List Token) : String :=
  "[" ++ dumpElements tokens ++ "]"

/-- The tokens, each displayed on a line of its own. -/
def displayLines : List Token → String
  | [] => ""
  | token :: others => token.display ++ "\n" ++ displayLines others

end Token

end Mientras
