/-!
# Names and layout of Python text

A `Style` says how Python text is laid out.  `typeName` and `builtinName` give the Python names
of the types and of the functions that have another name there.
-/

namespace Mientras

/-- How Python text is laid out. -/
structure Style where
  /-- What stands at the front of a line, once for each block that the line is in. -/
  indent : String := "\t"
  /-- Only the parentheses of the source are written.  Otherwise an operand that is an operator
  itself always stands in parentheses, so that the order of evaluation cannot change. -/
  sourceParensOnly : Bool := false
  deriving DecidableEq, Repr, Inhabited

namespace Style

/-- What stands at the front of a line that is in `level` blocks. -/
def margin (style : Style) : Nat → String
  | 0 => ""
  | level + 1 => style.indent ++ margin style level

/-- A line that is in `level` blocks. -/
def line (style : Style) (level : Nat) (text : String) : String :=
  style.margin level ++ text ++ "\n"

end Style

namespace Python

/-- The Python name of a type. -/
def typeName : String → String
  | "entero" => "int"
  | "flotante" => "float"
  | "texto" => "str"
  | "booleano" => "bool"
  | name => name

/-- The Python name of a function. -/
def builtinName : String → String
  | "imprimir" => "print"
  | name => name

/-- The Python form of a truth value. -/
def truthValue : String → String
  | "verdadero" => "True"
  | "falso" => "False"
  | text => text

/-- The texts with a comma and a space between them. -/
def commaSeparated : List String → String
  | [] => ""
  | [text] => text
  | text :: others => text ++ ", " ++ commaSeparated others

end Python

end Mientras
