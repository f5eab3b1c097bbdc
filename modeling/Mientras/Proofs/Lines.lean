import Mathlib.Data.List.Chain
import Mathlib.Tactic.Common
import Mientras.Proofs.OneLine

/-!
# Lines of statements

`Stmt.lines style level stmts` is the list of the lines of statements within `level` blocks: the
own line of each statement and then the lines of its body, each line with the number of blocks that
it is in.  These are the lines that statements are written as (`toList_listToPython`), and splitting
the text at its newlines gives them back (`splitOn_write`).  A line that ends in a colon stands
before a line one level deeper, and any other line before one that is no deeper (`laid_lines`).
-/

namespace Mientras

open Text Python

/-- The list, or the one item when the list is empty. -/
def orOne {α : Type} (one : α) : List α → List α
  | [] => [one]
  | item :: items => item :: items

theorem orOne_ne_nil {α : Type} (one : α) (items : List α) :
  orOne one items ≠ []
  := by
  cases items <;> simp [orOne]

theorem orOne_of_ne_nil {α : Type} (one : α) {items : List α} (h : items ≠ []) :
  orOne one items = items
  := by
  cases items with
  | nil => contradiction
  | cons item items => rfl

namespace Stmt

/-! ### Bodies -/

/-- The statements of the body, none when the statement has no body. -/
def body : Stmt → List Stmt
  | .conditional _ body | .alternative body | .loop _ body | .function _ _ body => body
  | _ => []

theorem MadeOf.body {p : Lexeme → Prop} {stmt : Stmt} (h : stmt.MadeOf p) :
  ∀ inner ∈ stmt.body, inner.MadeOf p
  := by
  cases h with
  | conditional _ hbody | alternative hbody | loop _ hbody | function _ _ hbody => exact hbody
  | _ => simp [Stmt.body]

theorem sizeOf_body_lt (stmt : Stmt) (others : List Stmt) :
  sizeOf stmt.body < sizeOf (stmt :: others)
  := by
  cases stmt <;> simp [body] <;> omega

/-- What holds of no statements, and of statements when it holds of the body of the first and of
the others, holds of all statements. -/
@[elab_as_elim]
theorem body_induction {motive : List Stmt → Prop} (nil : motive [])
    (cons : ∀ stmt others, motive stmt.body → motive others → motive (stmt :: others))
    (stmts : List Stmt) :
  motive stmts
  := by
  match stmts with
  | [] => exact nil
  | stmt :: others =>
    have := sizeOf_body_lt stmt others
    apply cons stmt others (body_induction nil cons stmt.body) (body_induction nil cons others)
termination_by sizeOf stmts

/-! ### Lines -/

mutual

/-- The lines of the body of a statement, which are within `level` blocks. -/
def bodyLines (style : Style) (level : Nat) : Stmt → List (Nat × String)
  | .conditional _ body => orOne (level, "pass") (lines style level body)
  | .alternative body => orOne (level, "pass") (lines style level body)
  | .loop _ body => orOne (level, "pass") (lines style level body)
  | .function _ _ body => orOne (level, "pass") (lines style level body)
  | _ => []

/-- The lines of statements within `level` blocks, each with the number of blocks it is in. -/
def lines (style : Style) (level : Nat) : List Stmt → List (Nat × String)
  | [] => []
  | stmt :: others =>
    ((level, stmt.headToPython style) :: bodyLines style (level + 1) stmt)
      ++ lines style level others

end

theorem bodyLines_eq (style : Style) (level : Nat) (stmt : Stmt) :
  bodyLines style level stmt
    = if stmt.hasBody then orOne (level, "pass") (lines style level stmt.body) else []
  := by
  cases stmt <;> simp [bodyLines, hasBody, body]

/-- What holds of no lines, of a single `pass` and of the lines of the statements in a body holds
of the lines of the body. -/
theorem bodyLines_cases {P : List (Nat × String) → Prop} {style : Style} {level : Nat} {stmt : Stmt}
    (hnil : P []) (hpass : P [(level, "pass")]) (hbody : P (lines style level stmt.body)) :
  P (bodyLines style level stmt)
  := by
  rw [bodyLines_eq]
  split
  · cases hlines : lines style level stmt.body with
    | nil => exact hpass
    | cons line others => rwa [orOne, ← hlines]
  · exact hnil

theorem isEmpty_bodyLines (style : Style) (level : Nat) (stmt : Stmt) :
  (bodyLines style level stmt).isEmpty = !stmt.hasBody
  := by
  rw [bodyLines_eq]
  split <;> simp_all [orOne_ne_nil]

/-! ### Lines as text -/

theorem toPython_eq (style : Style) (level : Nat) (stmt : Stmt) :
  toPython style level stmt
    = style.line level (stmt.headToPython style)
      ++ if stmt.hasBody then bodyToPython style (level + 1) stmt.body else ""
  := by
  cases stmt <;> simp [toPython, hasBody, body]

end Stmt

/-- The characters of lines, each of which is within the number of blocks it comes with. -/
def Style.write (style : Style) (lines : List (Nat × String)) : List Char :=
  lines.flatMap fun line => (style.line line.1 line.2).toList

theorem Style.write_append (style : Style) (first second : List (Nat × String)) :
  style.write (first ++ second) = style.write first ++ style.write second
  := List.flatMap_append

theorem Style.write_cons (style : Style) (line : Nat × String) (lines : List (Nat × String)) :
  style.write (line :: lines) = (style.line line.1 line.2).toList ++ style.write lines
  := List.flatMap_cons

/-- A body is written as its lines when statements are. -/
theorem Stmt.toList_bodyToPython_of {style : Style} {level : Nat} {body : List Stmt}
    (h : (listToPython style level body).toList = style.write (lines style level body)) :
  (bodyToPython style level body).toList
    = style.write (orOne (level, "pass") (lines style level body))
  := by
  cases body with
  | nil => simp [bodyToPython, lines, orOne, Style.write]
  | cons stmt others =>
    rw [bodyToPython_of_ne_nil style level (List.cons_ne_nil stmt others), h]
    simp [lines, orOne]

/-- Statements are written as their lines. -/
theorem Stmt.toList_listToPython (style : Style) (stmts : List Stmt) (level : Nat) :
  (listToPython style level stmts).toList = style.write (lines style level stmts)
  := by
  induction stmts using body_induction generalizing level with
  | nil => simp [listToPython, lines, Style.write]
  | cons stmt others ihbody ihothers =>
    have hbody := toList_bodyToPython_of (ihbody (level + 1))
    rw [listToPython, toPython_eq, lines, Style.write_append, Style.write_cons, bodyLines_eq,
      String.toList_append, String.toList_append, ihothers]
    cases stmt.hasBody with
    | false => simp [Style.write]
    | true => simp [hbody]

/-- The characters of a line without the newline that ends it. -/
def Style.rowOf (style : Style) (line : Nat × String) : List Char :=
  (style.margin line.1).toList ++ line.2.toList

/-- Lines without newlines are found again by splitting their text at the newlines.  Nothing comes
after the last newline. -/
theorem Style.splitOn_write {style : Style} {lines : List (Nat × String)}
    (h : ∀ line ∈ lines, '\n' ∉ style.rowOf line) :
  (style.write lines).splitOn '\n' = lines.map style.rowOf ++ [[]]
  := by
  induction lines with
  | nil => simp [write]
  | cons line lines ih =>
    rw [List.forall_mem_cons] at h
    have hline : (style.line line.1 line.2).toList = style.rowOf line ++ ['\n'] := by
      simp [Style.line, rowOf]
    rw [write_cons, hline, List.append_assoc, List.singleton_append,
      List.splitOn_append_cons_self_of_not_mem h.1, ih h.2, List.map_cons, List.cons_append]

/-! ### Texts of lines -/

theorem standsAlone_pass :
  StandsAlone "pass" false
  := ⟨by decide, by decide, by decide⟩

/-- Every line stands on one line and does not start with a blank. -/
theorem Stmt.standsAlone_of_mem_lines (style : Style) {stmts : List Stmt}
    (h : ∀ stmt ∈ stmts, stmt.MadeOf Lexeme.Proper) (level : Nat) :
  ∀ line ∈ lines style level stmts, StandsAlone line.2 (isHeader line.2)
  := by
  induction stmts using body_induction generalizing level with
  | nil => simp [lines]
  | cons stmt others ihbody ihothers =>
    rw [List.forall_mem_cons] at h
    rw [lines, List.forall_mem_append, List.forall_mem_cons]
    and_intros
    · have hhead := standsAlone_headToPython style h.1
      rwa [hhead.isHeader_eq]
    · apply bodyLines_cases (P := fun lines => ∀ line ∈ lines, StandsAlone line.2 (isHeader line.2))
      · simp
      · simpa [standsAlone_pass.isHeader_eq] using standsAlone_pass
      · apply ihbody h.1.body
    · apply ihothers h.2

/-! ### Lines next to each other -/

/-- The second line may come next after the first: it is one level deeper than a line that ends in
a colon, and no deeper than any other. -/
def Adjacent (line next : Nat × String) : Prop :=
  if isHeader line.2 then next.1 = line.1 + 1 else next.1 ≤ line.1

/-- The lines are those of a block within `level` blocks. -/
structure Laid (level : Nat) (lines : List (Nat × String)) : Prop where
  first : ∀ line ∈ lines.head?, line.1 = level
  adjacent : lines.IsChain Adjacent
  last : ∀ line ∈ lines.getLast?, level ≤ line.1 ∧ isHeader line.2 = false

theorem Laid.nil {level : Nat} :
  Laid level []
  := by
  constructor <;> simp

theorem Laid.append {level : Nat} {first second : List (Nat × String)} (h : Laid level first)
    (h' : Laid level second) :
  Laid level (first ++ second)
  := by
  cases second with
  | nil => rwa [List.append_nil]
  | cons _ second =>
    constructor
    case first =>
      cases first with
      | nil => exact h'.first
      | cons line first => exact h.first
    case adjacent =>
      apply List.isChain_append.mpr
      use h.adjacent, h'.adjacent
      intro line hline other hother
      obtain ⟨hlevel, hheader⟩ := h.last line hline
      rw [Adjacent, hheader, h'.first other hother]
      simpa using hlevel
    case last =>
      rw [List.getLast?_append_cons]
      exact h'.last

/-- A line before the lines that it owns. -/
theorem Laid.cons {level : Nat} {text : String} {lines : List (Nat × String)}
    (h : Laid (level + 1) lines) (hheader : isHeader text = !lines.isEmpty) :
  Laid level ((level, text) :: lines)
  := by
  cases lines with
  | nil =>
    constructor
    case first => simp
    case adjacent => simp
    case last => simpa using hheader
  | cons next lines =>
    constructor
    case first => simp
    case adjacent =>
      apply List.IsChain.cons_cons _ h.adjacent
      rw [Adjacent, if_pos (by simpa using hheader)]
      apply h.first next rfl
    case last =>
      intro line hline
      obtain ⟨hlevel, hplain⟩ := h.last line hline
      exact ⟨by omega, hplain⟩

/-- The lines of statements are those of a block. -/
theorem Stmt.laid_lines (style : Style) {stmts : List Stmt}
    (h : ∀ stmt ∈ stmts, stmt.MadeOf Lexeme.Proper) (level : Nat) :
  Laid level (lines style level stmts)
  := by
  induction stmts using body_induction generalizing level with
  | nil => simpa [lines] using Laid.nil
  | cons stmt others ihbody ihothers =>
    rw [List.forall_mem_cons] at h
    have hbody : Laid (level + 1) (bodyLines style (level + 1) stmt) := by
      apply bodyLines_cases
      · apply Laid.nil
      · apply Laid.nil.cons standsAlone_pass.isHeader_eq
      · apply ihbody h.1.body
    rw [lines]
    apply Laid.append _ (ihothers h.2 level)
    apply hbody.cons
    rw [isEmpty_bodyLines, Bool.not_not]
    exact (standsAlone_headToPython style h.1).isHeader_eq

end Mientras
