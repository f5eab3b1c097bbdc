import Mientras.Fault.Basic
import Mientras.Source.Line

/-!
# Reports

`fault.report source file` is what is shown for a fault of the source text that came from the
file: its message, its tip and the name of the file.  Unless the message shows the line of the
source, the line follows, with an arrow below it that ends under the column of the fault.
-/

namespace Mientras

open Text (isBlank trimEnd)

namespace Fault

/-- The character repeated, as a text. -/
def repeatChar (n : Nat) (c : Char) : String :=
  String.ofList (List.replicate n c)

/-- A space or a tab. -/
def isMargin (c : Char) : Bool :=
  c == ' ' || c == '\t'

/-- The numbered line, without its margin and the blanks at its end, and an arrow below it.  The
arrow ends under the column of the fault. -/
def excerpt (number column : Nat) (line : List Char) : String :=
  let margin := (line.takeWhile isMargin).length
  let shown := String.ofList (trimEnd isBlank (line.dropWhile isMargin))
  let number := toString number
  let bar := repeatChar (number.length + 1) ' ' ++ "|"
  bar ++ "\n" ++ number ++ " | " ++ shown ++ "\n"
    ++ bar ++ " " ++ repeatChar (column - margin - 1) '-' ++ "^\n"

/-- What is shown for a fault of the source text that came from the file. -/
def report (fault : Fault) (source file : String) : String :=
  let framed := fault.cause.isFramed
  let tip := match fault.cause.tip? with
    | some tip => "   (" ++ tip ++ ")\n"
    | none => ""
  "SyntaxError: " ++ fault.message ++ (if framed then "" else "\n") ++ tip ++ "-> " ++ file ++ "\n"
    ++ (if framed then ""
        else excerpt fault.position.line fault.position.column
          (Source.lineAt source fault.position.offset).text.toList)

end Fault

end Mientras
