/-!
# Trees of programs

A `Program` is a list of statements (`Stmt`), whose parts are expressions (`Expr`).  The parts
that were written as they are stand in the tree as their source text.
-/

namespace Mientras

/-- The sorts of expressions without parts. -/
inductive Atom where
  | name
  | integer
  | float
  | text
  | boolean
  deriving DecidableEq, Repr, Inhabited

/-- The expressions. -/
inductive Expr where
  /-- A name or a literal, as it was written. -/
  | atom (sort : Atom) (text : String)
  /-- An operator between two operands; `grouped` when it was written in parentheses. -/
  | binary (operator : String) (left right : Expr) (grouped : Bool)
  /-- A function applied to arguments. -/
  | call (callee : String) (arguments : List Expr)
  deriving Repr, Inhabited

namespace Expr

/-- The expression as it stands in parentheses, which only an operator remembers. -/
def group : Expr → Expr
  | binary operator left right _ => binary operator left right true
  | e => e

/-- The expression is an operator between two operands. -/
def isBinary : Expr → Bool
  | binary .. => true
  | _ => false

theorem group_eq_self {e : Expr} (h : e.isBinary = false) :
  e.group = e
  := by
  cases e with
  | binary => cases h
  | atom | call => rfl

end Expr

/-- A parameter of a function. -/
structure Parameter where
  type : String
  name : String
  deriving DecidableEq, Repr, Inhabited

/-- The statements. -/
inductive Stmt where
  /-- A new variable with its type and its first value. -/
  | declaration (type name : String) (value : Expr)
  /-- A new value for a variable. -/
  | assignment (name : String) (value : Expr)
  /-- A function applied to arguments for its effect. -/
  | call (callee : String) (arguments : List Expr)
  /-- Statements for the case that the condition holds. -/
  | conditional (condition : Expr) (body : List Stmt)
  /-- Statements for the case that the condition just before does not hold. -/
  | alternative (body : List Stmt)
  /-- Statements to repeat while the condition holds. -/
  | loop (condition : Expr) (body : List Stmt)
  /-- A new function. -/
  | function (name : String) (parameters : List Parameter) (body : List Stmt)
  /-- The result of the function that is running. -/
  | result (value : Expr)
  deriving Repr, Inhabited

/-- A whole program. -/
structure Program where
  body : List Stmt
  deriving Repr, Inhabited

end Mientras
