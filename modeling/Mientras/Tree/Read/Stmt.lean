import Mientras.Tree.Read.Expr

/-!
# Reading statements

The first token of a statement shows its form, and `stmt` reads it accordingly.  A block is a
list of statements in curly brackets; `blockWithin levels` reads the blocks that open at most
`levels` blocks within one another.  A conditional and its alternative are two statements of the
list.  A reader that fails in the alternative has read the conditional, and says so in the
`Interruption` with which it fails.
-/

namespace Mientras

/-- A failure, and the statements that were read before it. -/
structure Interruption where
  fault : Fault
  kept : List Stmt
  deriving Repr, Inhabited

/-- A reader that adds statements to a list. -/
abbrev ReadStmts := EStateM Interruption Cursor (List Stmt)

namespace Read

/-- Reads on after the statements in `kept`, which a failure reports. -/
def keeping {α : Type} (kept : List Stmt) (read : Read α) : EStateM Interruption Cursor α :=
  read.adaptExcept fun fault => ⟨fault, kept⟩

/-- Reads statements, of which a failure leaves none. -/
def whole (read : ReadStmts) : Read (List Stmt) :=
  read.adaptExcept (·.fault)

/-! ### Statements without a block -/

/-- Reads a declaration. -/
def declaration : Read Stmt := do
  let type ← advance
  let name ← expect .identifier
  let _ ← expect .assignment
  let value ← expr
  let _ ← expect .semicolon
  return .declaration type.value name.value value

/-- Reads an assignment from its sign on. -/
def assignment (name : String) : Read Stmt := do
  let _ ← expect .assignment
  let value ← expr
  let _ ← expect .semicolon
  return .assignment name value

/-- Reads a call from its arguments on.  A semicolon may follow. -/
def call (callee : String) : Read Stmt := do
  let list ← arguments
  if (← kind) = .semicolon then
    let _ ← advance
  return .call callee list

/-- Reads a statement that starts with a name. -/
def named : Read Stmt := do
  let name ← advance
  if (← kind) = .assignment then assignment name.value
  else if (← kind) = .openParen then call name.value
  else unexpected "`=` or `(`"

/-- Reads the result of a function. -/
def result : Read Stmt := do
  if (← get).inFunction then
    let _ ← advance
    let value ← expr
    let _ ← expect .semicolon
    return .result value
  else fail fun _ => .resultOutsideFunction

/-! ### Statements with a block -/

/-- Reads a condition in parentheses. -/
def condition : Read Expr := do
  let _ ← expect .openParen
  let e ← expr
  let _ ← expect .closeParen
  return e

/-- Reads a parameter. -/
def parameter : Read Parameter := do
  let type ← expect .typeName
  let name ← expect .identifier
  return ⟨type.value, name.value⟩

/-- Reads a loop, where `block` reads its block. -/
def loopOf (block : Scope → Read (List Stmt)) : Read Stmt := do
  let _ ← advance
  let condition ← condition
  let body ← block .loop
  return .loop condition body

/-- Reads a function, where `block` reads its block. -/
def functionOf (block : Scope → Read (List Stmt)) : Read Stmt := do
  let _ ← advance
  let name ← expect .identifier
  let parameters ← itemsInParens parameter
  let body ← block .function
  return .function name.value parameters body

/-- Reads the case that a condition holds, where `block` reads its block. -/
def consequenceOf (block : Scope → Read (List Stmt)) : Read Stmt := do
  let _ ← advance
  let condition ← condition
  let body ← block .conditional
  return .conditional condition body

/-- Reads the alternative to a conditional, if there is one, where `block` reads its block. -/
def alternativeOf (block : Scope → Read (List Stmt)) : Read (List Stmt) := do
  if (← kind) = .sino then
    let _ ← advance
    let body ← block .conditional
    return [.alternative body]
  else return []

/-- Reads a conditional and its alternative, where `block` reads their blocks. -/
def conditionalOf (block : Scope → Read (List Stmt)) : ReadStmts := do
  let consequence ← keeping [] (consequenceOf block)
  let alternative ← keeping [consequence] (alternativeOf block)
  return consequence :: alternative

/-- Reads a statement, where `block` reads the blocks in it.  A semicolon alone is no statement,
and a conditional with its alternative is two. -/
def stmtOf (block : Scope → Read (List Stmt)) : ReadStmts := do
  match (← get).kind.form with
  | .declaration => keeping [] do return [← declaration]
  | .identifier => keeping [] do return [← named]
  | .conditional => conditionalOf block
  | .alternative => keeping [] (fail fun _ => .strayAlternative)
  | .loop => keeping [] do return [← loopOf block]
  | .function => keeping [] do return [← functionOf block]
  | .result => keeping [] do return [← result]
  | .empty => keeping [] do
    let _ ← advance
    return []
  | .invalid => keeping [] (fail fun token => .expectedStatement token.description)

/-- Reads statements up to a closing curly bracket, at most `count` times. -/
def stmtsToClose (stmts : Read (List Stmt)) : Nat → Read (List Stmt)
  | 0 => unexpected Kind.closeCurly.description
  | count + 1 => do
    match ← kind with
    | .closeCurly => return []
    | .endOfInput => unexpected Kind.closeCurly.description
    | _ =>
      let first ← stmts
      let others ← stmtsToClose stmts count
      return first ++ others

/-- Reads a block with at most `levels` blocks open within one another. -/
def blockWithin : Nat → Scope → Read (List Stmt)
  | 0, _ => fail fun _ => .tooDeep maxDepth
  | levels + 1, scope => do
    enterScope scope
    let _ ← expect .openCurly
    let body ← stmtsToClose (whole (stmtOf (blockWithin levels))) (← get).rest.length
    exitScope
    let _ ← expect .closeCurly
    return body

/-- Reads a block. -/
def block (scope : Scope) : Read (List Stmt) :=
  blockWithin (maxDepth + 1) scope

/-- Reads a loop. -/
def loop : Read Stmt :=
  loopOf block

/-- Reads a function. -/
def function : Read Stmt :=
  functionOf block

/-- Reads a conditional and its alternative. -/
def conditional : ReadStmts :=
  conditionalOf block

/-- Reads a statement. -/
def stmt : ReadStmts :=
  stmtOf block

/-! ### Programs -/

/-- Reads statements up to the end of the input, at most `count` times. -/
def stmtsToEnd (stmts : Read (List Stmt)) : Nat → Read (List Stmt)
  | 0 => pure []
  | count + 1 => do
    if (← get).atEnd then return []
    else
      let first ← stmts
      let others ← stmtsToEnd stmts count
      return first ++ others

/-- Reads a whole program. -/
def program : Read Program := do
  let body ← stmtsToEnd (whole stmt) (← get).rest.length
  return ⟨body⟩

end Read

/-- The program that the tokens spell. -/
def Program.ofTokens (tokens : List Token) : Except Fault Program :=
  match Read.program (Cursor.ofTokens tokens) with
  | .ok program _ => .ok program
  | .error fault _ => .error fault

end Mientras
