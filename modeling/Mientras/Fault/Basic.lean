import Mientras.Source.Position
import Mientras.Text.Quoted

/-!
# Faults

A `Fault` is the reason why a source text is refused: a `Cause` and the position where it was
found.  A cause has a name, a message, and for most causes a tip on what to do about it.  The
causes that scanning finds show the line of the source in their message.
-/

namespace Mientras

/-- The reasons to refuse a source text. -/
inductive Cause where
  /-- No token starts with the character, at the column of the line. -/
  | unrecognised (char : Char) (line : String) (column : Nat)
  /-- The block comment that starts at the column of the line has no end. -/
  | unterminated (line : String) (column : Nat)
  /-- Something else than expected was found. -/
  | unexpected (expected found : String)
  /-- The input ended where something was expected. -/
  | unexpectedEnd (expected : String)
  /-- No statement starts with what was found. -/
  | expectedStatement (found : String)
  /-- A `retornar` stands outside of every function. -/
  | resultOutsideFunction
  /-- A `sino` stands after no `si` block. -/
  | strayAlternative
  /-- More than `limit` blocks, groups and argument lists are open together. -/
  | tooDeep (limit : Nat)
  deriving DecidableEq, Repr, Inhabited

namespace Cause

/-- The name of a cause. -/
def name : Cause → String
  | unrecognised .. => "UnrecognisedToken"
  | unterminated .. => "UnterminatedComment"
  | unexpected .. => "UnexpectedToken"
  | unexpectedEnd .. => "UnexpectedEof"
  | expectedStatement .. => "ExpectedStatement"
  | resultOutsideFunction => "ReturnOutsideFunction"
  | strayAlternative => "UnexpectedElse"
  | tooDeep .. => "NestingTooDeep"

/-- What stands below the characters of a line before the column: a tab below a tab and a space
below every other character. -/
def underline (line : String) (column : Nat) : String :=
  String.ofList ((line.toList.take (column - 1)).map fun c => if c = '\t' then '\t' else ' ')

/-- The line, and below it a caret at the column. -/
def frame (line : String) (column : Nat) : String :=
  "\n\n\t" ++ line ++ "\n\t" ++ underline line column ++ "^\n"

/-- What a cause says. -/
def message : Cause → String
  | unrecognised char line column =>
    "unrecognised character " ++ Text.quoteChar char ++ frame line column
  | unterminated line column => "unterminated block comment" ++ frame line column
  | unexpected expected found => "expected " ++ expected ++ ", found " ++ found
  | unexpectedEnd expected => "expected " ++ expected ++ ", found end of input"
  | expectedStatement found =>
    "expected a declaration, assignment, call, loop, conditional or function declaration, found "
      ++ found
  | resultOutsideFunction => "`retornar` outside of a function body"
  | strayAlternative => "`sino` without a preceding `si` block"
  | tooDeep limit => "nesting deeper than " ++ toString limit ++ " levels"

/-- What to do about a cause. -/
def tip? : Cause → Option String
  | unterminated .. => some "close the comment with `*/`"
  | unexpected expected _ =>
    if expected = "`;`" then some "did you miss a semicolon?"
    else if expected = "`)`" then some "did you forget to close a parenthesis?"
    else none
  | unexpectedEnd _ => some "is a closing `\x7d` missing?"
  | resultOutsideFunction => some "move the `retornar` into the body of a `funcion`"
  | strayAlternative => some "a `sino` block must directly follow a `si` block"
  | tooDeep _ => some "split the code into smaller functions"
  | unrecognised .. | expectedStatement _ => none

/-- The message of the cause shows the line of the source. -/
def isFramed : Cause → Bool
  | unrecognised .. | unterminated .. => true
  | _ => false

end Cause

/-- A reason to refuse a source text, and where it was found. -/
structure Fault where
  cause : Cause
  position : Position
  deriving DecidableEq, Repr, Inhabited

/-- What a fault says. -/
def Fault.message (fault : Fault) : String :=
  "syntax error at line " ++ toString fault.position.line ++ ", column "
    ++ toString fault.position.column ++ ": " ++ fault.cause.message

end Mientras
