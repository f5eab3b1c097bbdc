import Mientras.Python.Expr

/-!
# Programs as Python text

`stmt.toPython style level` is the statement `stmt` as the lines of Python text that stand
within `level` blocks: its own line, and the lines of its body one level deeper.  A body without
statements is written as `pass`.  A `Page` is text to which such lines are added step by step: it
counts the blocks that it is within, which are entered and left with the bodies.
-/

namespace Mientras

open Python (typeName commaSeparated)

namespace Stmt

/-- A parameter as Python text. -/
def parameterToPython (parameter : Parameter) : String :=
  parameter.name ++ ": " ++ typeName parameter.type

/-- The statement's own line, without what it stands within. -/
def headToPython (style : Style) : Stmt → String
  | .declaration _ name value => name ++ " = " ++ value.toPython style
  | .assignment name value => name ++ " = " ++ value.toPython style
  | .call callee arguments => Expr.callToPython style callee arguments
  | .conditional condition _ => "if (" ++ condition.toPython style ++ "):"
  | .alternative _ => "else:"
  | .loop condition _ => "while (" ++ condition.toPython style ++ "):"
  | .function name parameters _ =>
    "def " ++ name ++ "(" ++ commaSeparated (parameters.map parameterToPython) ++ "):"
  | .result value => "return " ++ value.toPython style

mutual

/-- The statement as Python text within `level` blocks. -/
def toPython (style : Style) (level : Nat) (stmt : Stmt) : String :=
  style.line level (stmt.headToPython style) ++
    match stmt with
    | .conditional _ body => bodyToPython style (level + 1) body
    | .alternative body => bodyToPython style (level + 1) body
    | .loop _ body => bodyToPython style (level + 1) body
    | .function _ _ body => bodyToPython style (level + 1) body
    | _ => ""

/-- The body of a statement as Python text within `level` blocks. -/
def bodyToPython (style : Style) (level : Nat) : List Stmt → String
  | [] => style.line level "pass"
  | stmt :: others => toPython style level stmt ++ listToPython style level others

/-- Statements as Python text within `level` blocks. -/
def listToPython (style : Style) (level : Nat) : List Stmt → String
  | [] => ""
  | stmt :: others => toPython style level stmt ++ listToPython style level others

end

/-- Statements are written one after the other. -/
theorem listToPython_append (style : Style) (level : Nat) (first second : List Stmt) :
  listToPython style level (first ++ second)
    = listToPython style level first ++ listToPython style level second
  := by
  induction first with
  | nil => simp [listToPython]
  | cons stmt first ih => simp [listToPython, ih, String.append_assoc]

/-- A body with statements is written as these statements. -/
theorem bodyToPython_of_ne_nil (style : Style) (level : Nat) {body : List Stmt} (h : body ≠ []) :
  bodyToPython style level body = listToPython style level body
  := by
  cases body with
  | nil => contradiction
  | cons stmt others => simp [bodyToPython, listToPython]

end Stmt

/-- The program as Python text. -/
def Program.toPython (style : Style) (program : Program) : String :=
  Stmt.listToPython style 0 program.body

/-! ### Pages -/

/-- Python text that is being written. -/
structure Page where
  style : Style
  /-- The number of blocks that the next line stands within. -/
  level : Nat
  text : String

/-- What can be added to a page. -/
inductive Page.Step where
  /-- A line. -/
  | line (text : String)
  /-- The body of a statement. -/
  | body (stmts : List Stmt)
  /-- A statement. -/
  | stmt (stmt : Stmt)
  /-- A line with a call. -/
  | call (callee : String) (arguments : List Expr)

namespace Page

/-- The page without text. -/
def empty (style : Style) : Page :=
  ⟨style, 0, ""⟩

/-- The page with more text. -/
def add (page : Page) (text : String) : Page :=
  { page with text := page.text ++ text }

/-- The page with one more line. -/
def addLine (page : Page) (text : String) : Page :=
  page.add (page.style.line page.level text)

/-- The page within one more block. -/
def enter (page : Page) : Page :=
  { page with level := page.level + 1 }

/-- The page within one block less, unless it is within none. -/
def leave? (page : Page) : Option Page :=
  match page.level with
  | 0 => none
  | level + 1 => some { page with level }

mutual

/-- The page with one more statement, which is its own line and then its body. -/
def addStmt? (page : Page) (stmt : Stmt) : Option Page :=
  let headed := page.addLine (stmt.headToPython page.style)
  match stmt with
  | .conditional _ body => addBody? headed body
  | .alternative body => addBody? headed body
  | .loop _ body => addBody? headed body
  | .function _ _ body => addBody? headed body
  | _ => some headed

/-- The page with the body of a statement, for which a block is entered and left again. -/
def addBody? (page : Page) : List Stmt → Option Page
  | [] => (page.enter.addLine "pass").leave?
  | stmt :: others =>
    ((addStmt? page.enter stmt).bind fun within => addStmts? within others).bind leave?

/-- The page with more statements. -/
def addStmts? (page : Page) : List Stmt → Option Page
  | [] => some page
  | stmt :: others => (addStmt? page stmt).bind fun next => addStmts? next others

end

/-- The page after a step, or none where a block is left that was not entered. -/
def write? (page : Page) : Step → Option Page
  | .line text => some (page.addLine text)
  | .body stmts => page.addBody? stmts
  | .stmt s => page.addStmt? s
  | .call callee arguments => some (page.addLine (Expr.callToPython page.style callee arguments))

/-- The text that a step adds within `level` blocks. -/
def Step.toPython (style : Style) (level : Nat) : Step → String
  | .line text => style.line level text
  | .body stmts => Stmt.bodyToPython style (level + 1) stmts
  | .stmt s => s.toPython style level
  | .call callee arguments => style.line level (Expr.callToPython style callee arguments)

@[simp]
theorem style_add (page : Page) (text : String) :
  (page.add text).style = page.style
  := rfl

@[simp]
theorem level_add (page : Page) (text : String) :
  (page.add text).level = page.level
  := rfl

theorem add_empty (page : Page) :
  page.add "" = page
  := by
  simp [add]

theorem add_add (page : Page) (first second : String) :
  (page.add first).add second = page.add (first ++ second)
  := by
  simp [add, String.append_assoc]

/-- A block that was entered can be left. -/
theorem leave?_add_enter (page : Page) (text : String) :
  (page.enter.add text).leave? = some (page.add text)
  := rfl

mutual

/-- A statement adds its text, and as many blocks are left as were entered for it. -/
theorem addStmt?_eq (page : Page) (stmt : Stmt) :
  page.addStmt? stmt = some (page.add (stmt.toPython page.style page.level))
  := by
  cases stmt with
  | conditional _ body | alternative body | loop _ body | function _ _ body =>
    rw [addStmt?, addBody?_eq, Stmt.toPython, addLine, add_add]
    rfl
  | declaration | assignment | call | result => simp [addStmt?, Stmt.toPython, addLine]

theorem addBody?_eq (page : Page) (body : List Stmt) :
  page.addBody? body = some (page.add (Stmt.bodyToPython page.style (page.level + 1) body))
  := by
  cases body with
  | nil => rfl
  | cons stmt others =>
    rw [addBody?, addStmt?_eq, Option.bind_some, addStmts?_eq, Option.bind_some, add_add,
      leave?_add_enter]
    rfl

theorem addStmts?_eq (page : Page) (stmts : List Stmt) :
  page.addStmts? stmts = some (page.add (Stmt.listToPython page.style page.level stmts))
  := by
  cases stmts with
  | nil => rw [addStmts?, Stmt.listToPython, add_empty]
  | cons stmt others =>
    rw [addStmts?, addStmt?_eq, Option.bind_some, addStmts?_eq, add_add]
    rfl

end

/-- Every step leads to a page, which has more text and is within the same blocks. -/
theorem write?_eq (page : Page) (step : Step) :
  page.write? step = some (page.add (step.toPython page.style page.level))
  := by
  cases step with
  | line text => rfl
  | body stmts => apply addBody?_eq
  | stmt s => apply addStmt?_eq
  | call callee arguments => rfl

/-- A program is written as its statements on a page without text. -/
theorem addStmts?_empty (style : Style) (program : Program) :
  (empty style).addStmts? program.body = some ⟨style, 0, program.toPython style⟩
  := by
  simp [addStmts?_eq, empty, add, Program.toPython]

/-- The page after a step, which there always is. -/
def write (page : Page) (step : Step) : Page :=
  (page.write? step).get (by simp [write?_eq])

end Page

end Mientras
