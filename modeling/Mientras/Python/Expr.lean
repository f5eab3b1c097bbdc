import Mientras.Python.Style
import Mientras.Tree.Basic

/-!
# Expressions as Python text

`e.toPython style` is the expression `e` as Python text.  An operator stands in parentheses
where it did in the source and, unless the style asks for no other parentheses, wherever it is
an operand.
-/

namespace Mientras

open Python (builtinName truthValue commaSeparated)

namespace Expr

mutual

/-- The expression as Python text; `nested` when it is an operand. -/
def operandToPython (style : Style) (nested : Bool) : Expr → String
  | .atom .boolean text => truthValue text
  | .atom _ text => text
  | .binary operator left right grouped =>
    let text := operandToPython style true left ++ " " ++ operator ++ " "
      ++ operandToPython style true right
    if grouped || (nested && !style.sourceParensOnly) then "(" ++ text ++ ")" else text
  | .call callee arguments =>
    builtinName callee ++ "(" ++ commaSeparated (argumentsToPython style arguments) ++ ")"

/-- The arguments of a call as Python texts. -/
def argumentsToPython (style : Style) : List Expr → List String
  | [] => []
  | argument :: others => operandToPython style false argument :: argumentsToPython style others

end

/-- The expression as Python text. -/
def toPython (style : Style) (e : Expr) : String :=
  e.operandToPython style false

/-- A call as Python text. -/
def callToPython (style : Style) (callee : String) (arguments : List Expr) : String :=
  (Expr.call callee arguments).toPython style

theorem argumentsToPython_eq_map (style : Style) (arguments : List Expr) :
  argumentsToPython style arguments = arguments.map (toPython style)
  := by
  induction arguments with
  | nil => simp [argumentsToPython]
  | cons argument others ih => simp [argumentsToPython, ih, toPython]

end Expr

end Mientras
