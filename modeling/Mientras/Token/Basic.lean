import Mientras.Source.Position
import Mientras.Text.Quoted
import Mientras.Token.Kind

/-!
# Tokens

A `Token` is a piece of source text with its kind and its place.  `display` shows all of a token
on one line, and `description` is how a message speaks of a token that it found.
-/

namespace Mientras

/-- A piece of source text, with its kind and its place. -/
structure Token where
  kind : Kind
  /-- The source text of the token. -/
  value : String
  span : Span
  deriving DecidableEq, Repr, Inhabited

namespace Token

/-- The token that stands at the end of the input. -/
def endAt (position : Position) : Token :=
  ⟨.endOfInput, "", ⟨position, position⟩⟩

/-- The token stands at the end of the input. -/
def isEnd (token : Token) : Bool :=
  token.kind == .endOfInput

@[simp]
theorem isEnd_endAt (position : Position) :
  (endAt position).isEnd = true
  := rfl

/-- The token between angle brackets: its kind, its quoted text, the offsets of its start and
its end, and the line and the column of its start. -/
def display (token : Token) : String :=
  "<" ++ token.kind.name ++ ", " ++ Text.quoteText token.value ++ ", "
    ++ toString token.span.start.offset ++ ", " ++ toString token.span.stop.offset ++ ", "
    ++ toString token.span.start.line ++ ", " ++ toString token.span.start.column ++ ">"

/-- How a message speaks of a token that it found.  A token whose kind leaves its text open is
shown with both. -/
def description (token : Token) : String :=
  match token.kind with
  | .endOfInput => "end of input"
  | .text | .identifier | .integer | .float | .boolean | .typeName =>
    token.kind.name ++ " `" ++ token.value ++ "`"
  | _ => "`" ++ token.value ++ "`"

end Token

end Mientras
