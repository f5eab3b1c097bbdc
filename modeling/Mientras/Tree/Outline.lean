import Mientras.Text.Quoted
import Mientras.Tree.Basic

/-!
# Outlines of trees

An `Outline` is a value that is shown over several lines, each part on lines of its own and four
spaces deeper than the whole.  `program.outline` is the outline of a program, and `render` shows
an outline.
-/

namespace Mientras

/-- A value as it is shown over several lines. -/
inductive Outline where
  /-- A value that stands on one line. -/
  | plain (text : String)
  /-- Values between square brackets. -/
  | list (items : List Outline)
  /-- A named value between parentheses. -/
  | variant (name : String) (content : Outline)
  /-- Fields between curly brackets. -/
  | record (name : String) (fields : List Outline)
  /-- A field of a record. -/
  | field (name : String) (value : Outline)
  deriving Inhabited

namespace Outline

/-- The space in front of a line at the given level. -/
def margin (level : Nat) : String :=
  String.ofList (List.replicate (4 * level) ' ')

mutual

/-- The outline as text, where the line that it ends on is at the given level. -/
def render (level : Nat) : Outline → String
  | .plain text => text
  | .list [] => "[]"
  | .list (item :: items) => "[\n" ++ renderLines (level + 1) (item :: items) ++ margin level ++ "]"
  | .variant name content =>
    name ++ "(\n" ++ margin (level + 1) ++ render (level + 1) content ++ ",\n"
      ++ margin level ++ ")"
  | .record name fields =>
    name ++ " \x7b\n" ++ renderLines (level + 1) fields ++ margin level ++ "\x7d"
  | .field name value => name ++ ": " ++ render level value

/-- The outlines as text, each on lines of its own that a comma ends. -/
def renderLines (level : Nat) : List Outline → String
  | [] => ""
  | item :: items => margin level ++ render level item ++ ",\n" ++ renderLines level items

end

/-- A text as it is shown between quotation marks. -/
def quoted (text : String) : Outline :=
  .plain (Text.quoteText text)

/-- A truth value. -/
def truth (b : Bool) : Outline :=
  .plain (if b then "true" else "false")

end Outline

open Outline (quoted truth)

/-- The name under which a sort of atoms is shown. -/
def Atom.title : Atom → String
  | .name => "Identifier"
  | .integer => "Integer"
  | .float => "Float"
  | .text => "String"
  | .boolean => "Boolean"

/-- The outline of a call with the outlines of its arguments. -/
def Outline.call (callee : String) (arguments : List Outline) : Outline :=
  .record "FunctionCall" [.field "identifier" (quoted callee), .field "arguments" (.list arguments)]

namespace Expr

mutual

/-- The outline of an expression. -/
def outline : Expr → Outline
  | .atom sort text => .variant sort.title (quoted text)
  | .binary operator left right grouped =>
    .variant "Binary" (.record "BinaryExpr"
      [.field "operator" (quoted operator), .field "left" left.outline,
       .field "right" right.outline, .field "parenthesized" (truth grouped)])
  | .call callee arguments => .variant "Call" (Outline.call callee (outlines arguments))

/-- The outlines of expressions. -/
def outlines : List Expr → List Outline
  | [] => []
  | e :: others => e.outline :: outlines others

end

end Expr

/-- The outline of a parameter. -/
def Parameter.outline (parameter : Parameter) : Outline :=
  .record "Parameter"
    [.field "data_type" (quoted parameter.type), .field "name" (quoted parameter.name)]

namespace Stmt

mutual

/-- The outline of a statement. -/
def outline : Stmt → Outline
  | .declaration type name value =>
    .variant "Declaration" (.record "Declaration"
      [.field "data_type" (quoted type), .field "identifier" (quoted name),
       .field "value" value.outline])
  | .assignment name value =>
    .variant "Assignment" (.record "Assignment"
      [.field "identifier" (quoted name), .field "value" value.outline])
  | .call callee arguments =>
    .variant "FunctionCall" (Outline.call callee (Expr.outlines arguments))
  | .conditional condition body =>
    .variant "Conditional" (.record "Conditional"
      [.field "condition" condition.outline, .field "body" (.list (outlines body))])
  | .alternative body =>
    .variant "ConditionalElse" (.record "ConditionalElse" [.field "body" (.list (outlines body))])
  | .loop condition body =>
    .variant "WhileLoop" (.record "WhileLoop"
      [.field "condition" condition.outline, .field "body" (.list (outlines body))])
  | .function name parameters body =>
    .variant "FunctionDeclaration" (.record "FunctionDeclaration"
      [.field "identifier" (quoted name),
       .field "parameters" (.list (parameters.map Parameter.outline)),
       .field "body" (.list (outlines body))])
  | .result value => .variant "Return" (.record "Return" [.field "value" value.outline])

/-- The outlines of statements. -/
def outlines : List Stmt → List Outline
  | [] => []
  | stmt :: others => stmt.outline :: outlines others

end

end Stmt

/-- The outline of a program. -/
def Program.outline (program : Program) : Outline :=
  .record "Program" [.field "body" (.list (Stmt.outlines program.body))]

end Mientras
