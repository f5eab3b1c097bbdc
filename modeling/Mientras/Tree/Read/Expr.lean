import Mientras.Tree.Basic
import Mientras.Tree.Cursor

/-!
# Reading expressions

An expression is a factor, or several factors with operators between them, which are all taken
from left to right.  A factor is an atom, a call or a group, and within the parentheses of a
call or a group stand expressions again.  `exprWithin levels` reads the expressions that open at
most `levels` parentheses within one another; since no more than `maxDepth` may be open, `expr`
needs no more levels than that.
-/

namespace Mientras

/-- The sort of the atoms that a token of the given kind stands for. -/
def Kind.atom? : Kind → Option Atom
  | .identifier => some .name
  | .integer => some .integer
  | .float => some .float
  | .text => some .text
  | .boolean => some .boolean
  | _ => none

namespace Read

/-- Reads an expression in parentheses, where `inner` reads what stands within. -/
def groupOf (inner : Read Expr) : Read Expr := do
  nest
  let _ ← expect .openParen
  let e ← inner
  let _ ← expect .closeParen
  unnest
  return e.group

/-- Reads the arguments of a call, where `inner` reads each of them. -/
def argumentsOf (inner : Read Expr) : Read (List Expr) := do
  nest
  let list ← itemsInParens inner
  unnest
  return list

/-- Reads a factor, where `inner` reads what stands within parentheses. -/
def factorOf (inner : Read Expr) : Read Expr := do
  match (← kind).atom? with
  | some .name =>
    let name ← advance
    if (← kind) = .openParen then
      let list ← argumentsOf inner
      return .call name.value list
    else return .atom .name name.value
  | some sort =>
    let token ← advance
    return .atom sort token.value
  | none => if (← kind) = .openParen then groupOf inner else unexpected "an expression"

/-- Reads more factors while an operator stands at the cursor, at most `count` of them.  Each
operator takes all that was read before it as its left operand. -/
def chain (factor : Read Expr) : Nat → Expr → Read Expr
  | 0, left => pure left
  | count + 1, left => do
    if (← kind).isOperator then
      let operator ← advance
      let right ← factor
      chain factor count (.binary operator.value left right false)
    else return left

/-- Reads one or more factors with operators between them. -/
def chainOf (factor : Read Expr) : Read Expr := do
  let first ← factor
  chain factor (← get).rest.length first

/-- Reads an expression with at most `levels` parentheses open within one another. -/
def exprWithin : Nat → Read Expr
  | 0 => fail fun _ => .tooDeep maxDepth
  | levels + 1 => chainOf (factorOf (exprWithin levels))

/-- Reads an expression. -/
def expr : Read Expr :=
  exprWithin (maxDepth + 1)

/-- Reads a factor. -/
def factor : Read Expr :=
  factorOf expr

/-- Reads an expression in parentheses. -/
def group : Read Expr :=
  groupOf expr

/-- Reads the arguments of a call. -/
def arguments : Read (List Expr) :=
  argumentsOf expr

end Read

end Mientras
