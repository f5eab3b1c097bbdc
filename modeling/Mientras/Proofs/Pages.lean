import Mathlib.Tactic.Common
import Mientras.Proofs.Image
import Mientras.Proofs.Lines

/-!
# Pages made of lines

`step.lines parens level` is the list of the lines that a step adds to a page within `level` blocks,
each line with the number of blocks that it is in.  The indentation has no part in it, since the
text of a line depends on no more of the style than its parentheses (`Stmt.headToPython_congr`), and
within more blocks the lines are the same but for as many blocks more (`Stmt.lines_add`).  A page
consists of the lines of its steps, and each step leaves it within as many blocks as it was
(`Page.addedLines_lines`).  The statements may be any, also those that no source spells.
-/

namespace Mientras

/-! ### Lines and the indentation -/

section Parens

variable {style style' : Style} (h : style.sourceParensOnly = style'.sourceParensOnly)

include h

theorem Expr.operandToPython_congr (e : Expr) (nested : Bool) :
  e.operandToPython style nested = e.operandToPython style' nested
  := by
  induction e using part_induction generalizing nested with
  | atom sort text => cases sort <;> simp only [operandToPython]
  | binary operator left right grouped ihleft ihright =>
    rw [operandToPython, operandToPython, ihleft, ihright, h]
  | call callee arguments ih =>
    have harguments : arguments.map (toPython style) = arguments.map (toPython style') := by
      apply List.map_congr_left
      intro e he
      apply ih e he
    rw [operandToPython, operandToPython, argumentsToPython_eq_map, argumentsToPython_eq_map,
      harguments]

/-- The text of a call is the same in styles with the same parentheses. -/
theorem Expr.callToPython_congr (callee : String) (arguments : List Expr) :
  callToPython style callee arguments = callToPython style' callee arguments
  := operandToPython_congr h _ false

/-- The own line of a statement is the same in styles with the same parentheses. -/
theorem Stmt.headToPython_congr (stmt : Stmt) :
  stmt.headToPython style = stmt.headToPython style'
  := by
  have hvalue (e : Expr) : e.toPython style = e.toPython style' := e.operandToPython_congr h false
  cases stmt with
  | call callee arguments => apply Expr.callToPython_congr h
  | alternative | function => rfl
  | declaration | assignment | conditional | loop | result => simp only [headToPython, hvalue]

theorem Stmt.lines_congr (stmts : List Stmt) (level : Nat) :
  lines style level stmts = lines style' level stmts
  := by
  induction stmts using body_induction generalizing level with
  | nil => simp only [lines]
  | cons stmt others ihbody ihothers =>
    rw [lines, lines, bodyLines_eq, bodyLines_eq, ihbody, ihothers, headToPython_congr h]

end Parens

/-! ### Lines within more blocks -/

/-- The line in more blocks. -/
def deepen (more : Nat) (line : Nat × String) : Nat × String :=
  (line.1 + more, line.2)

theorem map_orOne {α β : Type} (f : α → β) (one : α) (items : List α) :
  (orOne one items).map f = orOne (f one) (items.map f)
  := by
  cases items <;> rfl

/-- Within more blocks, statements have the same lines in as many blocks more. -/
theorem Stmt.lines_add (style : Style) (stmts : List Stmt) (level more : Nat) :
  lines style (level + more) stmts = (lines style level stmts).map (deepen more)
  := by
  induction stmts using body_induction generalizing level with
  | nil => simp [lines]
  | cons stmt others ihbody ihothers =>
    have hbody : bodyLines style (level + more + 1) stmt
        = (bodyLines style (level + 1) stmt).map (deepen more) := by
      have hlevel : level + more + 1 = level + 1 + more := by omega
      rw [bodyLines_eq, bodyLines_eq, hlevel, ihbody]
      split
      · rw [map_orOne]
        rfl
      · rfl
    rw [lines, lines, hbody, ihothers, List.map_append, List.map_cons]
    rfl

/-! ### Lines as text -/

/-- The text of lines, each behind a copy of the indentation for every block that it is in. -/
def laidOut (indent : String) (lines : List (Nat × String)) : String :=
  String.join (lines.map fun line => String.join (List.replicate line.1 indent) ++ line.2 ++ "\n")

theorem laidOut_append (indent : String) (first second : List (Nat × String)) :
  laidOut indent (first ++ second) = laidOut indent first ++ laidOut indent second
  := by
  rw [laidOut, List.map_append, String.join_append]
  rfl

theorem Style.margin_eq_join (style : Style) (level : Nat) :
  style.margin level = String.join (List.replicate level style.indent)
  := by
  induction level with
  | zero => rfl
  | succ level ih => rw [margin, ih, List.replicate_succ, String.join_cons]

theorem Style.line_eq_laidOut (style : Style) (level : Nat) (text : String) :
  style.line level text = laidOut style.indent [(level, text)]
  := by
  simp [line, laidOut, margin_eq_join]

theorem Style.toList_laidOut (style : Style) (lines : List (Nat × String)) :
  (laidOut style.indent lines).toList = style.write lines
  := by
  induction lines with
  | nil => rfl
  | cons line lines ih =>
    rw [← List.singleton_append, laidOut_append, ← line_eq_laidOut, String.toList_append, ih,
      write_append]
    simp [write]

namespace Page

/-- The lines that a step adds within `level` blocks, each with the number of blocks it is in. -/
def Step.lines (parens : Bool) (level : Nat) : Step → List (Nat × String)
  | .line text => [(level, text)]
  | .body stmts =>
    orOne (level + 1, "pass") (Stmt.lines { sourceParensOnly := parens } (level + 1) stmts)
  | .stmt s => Stmt.lines { sourceParensOnly := parens } level [s]
  | .call callee arguments =>
    [(level, Expr.callToPython { sourceParensOnly := parens } callee arguments)]

/-- The text that a step adds is that of its lines. -/
theorem Step.toPython_eq_laidOut (style : Style) (level : Nat) (step : Step) :
  step.toPython style level = laidOut style.indent (step.lines style.sourceParensOnly level)
  := by
  have hstyle : Style.sourceParensOnly { sourceParensOnly := style.sourceParensOnly }
      = style.sourceParensOnly := rfl
  cases step with
  | line text => apply Style.line_eq_laidOut
  | body stmts =>
    rw [lines, Stmt.lines_congr hstyle, toPython, ← String.toList_inj, Style.toList_laidOut]
    apply Stmt.toList_bodyToPython_of
    apply Stmt.toList_listToPython
  | stmt s =>
    have hlist : s.toPython style level = Stmt.listToPython style level [s] := by
      simp [Stmt.listToPython]
    rw [lines, Stmt.lines_congr hstyle, toPython, hlist, ← String.toList_inj, Style.toList_laidOut]
    apply Stmt.toList_listToPython
  | call callee arguments =>
    rw [lines, Expr.callToPython_congr hstyle, toPython]
    apply Style.line_eq_laidOut

/-- Within more blocks, a step adds the same lines in as many blocks more. -/
theorem Step.lines_eq_map (parens : Bool) (level : Nat) (step : Step) :
  step.lines parens level = (step.lines parens 0).map (deepen level)
  := by
  cases step with
  | line text => simp [lines, deepen]
  | body stmts =>
    rw [lines, lines, map_orOne, ← Stmt.lines_add, Nat.add_comm level 1]
    rfl
  | stmt s => rw [lines, lines, ← Stmt.lines_add, Nat.zero_add]
  | call callee arguments => simp [lines, deepen]

/-- Steps add their lines one after the other, all within the blocks that the page is within. -/
theorem foldlM_write? (page : Page) (steps : List Step) :
  steps.foldlM write? page
    = some (page.add (laidOut page.style.indent
        (steps.flatMap (Step.lines page.style.sourceParensOnly page.level))))
  := by
  induction steps generalizing page with
  | nil => exact congrArg some page.add_empty.symm
  | cons step steps ih =>
    -- the step keeps the style and the level, so that the other steps have the same lines after it
    rw [List.foldlM_cons, write?_eq, Option.bind_eq_bind, Option.bind_some, ih, add_add, style_add,
      level_add, List.flatMap_cons, laidOut_append, Step.toPython_eq_laidOut]

/-- The lines are those that steps add to the pages of all styles with the parentheses, whatever
the indentation. -/
structure AddedLines (parens : Bool) (lines : Nat → Step → List (Nat × String)) : Prop where
  /-- After any steps, the page consists of the lines of these steps. -/
  steps : ∀ (indent : String) (steps : List Step),
    steps.foldlM write? (empty ⟨indent, parens⟩)
      = some ⟨⟨indent, parens⟩, 0, laidOut indent (steps.flatMap (lines 0))⟩
  /-- Whatever stands on a page, a step only adds its lines, and the page is within as many blocks
  as before. -/
  step : ∀ (indent : String) (level : Nat) (text : String) (step : Step),
    write? ⟨⟨indent, parens⟩, level, text⟩ step
      = some ⟨⟨indent, parens⟩, level, text ++ laidOut indent (lines level step)⟩
  /-- Within blocks, a step adds the lines that it adds outside of them, in as many blocks more. -/
  deeper : ∀ (level : Nat) (step : Step), lines level step = (lines 0 step).map (deepen level)

/-- Steps add the same lines to all pages with the same parentheses, and leave all blocks that they
enter. -/
theorem addedLines_lines (parens : Bool) :
  AddedLines parens (Step.lines parens)
  := by
  constructor
  case steps =>
    intro indent steps
    rw [foldlM_write?, empty, add, String.empty_append]
  case step =>
    intro indent level text step
    rw [write?_eq, Step.toPython_eq_laidOut, add]
  case deeper => apply Step.lines_eq_map

end Page

end Mientras
