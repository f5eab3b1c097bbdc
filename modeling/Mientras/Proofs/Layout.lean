import Mathlib.Tactic.Common
import Mientras.Proofs.Lines

/-!
# The layout of a program

`Stmt.blocks style stmts` is the nesting of statements: a block for each statement with the blocks
of its body, where a conditional and the alternative after it share one block, and where the body
without statements is a single `pass`.  The text that a program is written as is laid out so that
its indentation gives back this nesting (`layout_toPython`).  An alternative stands only after its
conditional, since the program is read from a source (`Paired`), and therefore no `else:` finds
another line to belong to.
-/

namespace Mientras

open Text Python

namespace Stmt

/-! ### Blocks of statements -/

mutual

/-- The blocks of the body of a statement. -/
def bodyBlocks (style : Style) : Stmt → List Block
  | .conditional _ body => orOne (.mk "pass" [] []) (blocks style body)
  | .alternative body => orOne (.mk "pass" [] []) (blocks style body)
  | .loop _ body => orOne (.mk "pass" [] []) (blocks style body)
  | .function _ _ body => orOne (.mk "pass" [] []) (blocks style body)
  | _ => []

/-- The blocks of statements. -/
def blocks (style : Style) : List Stmt → List Block
  | [] => []
  | .conditional condition body :: .alternative other :: others =>
    .mk ((Stmt.conditional condition body).headToPython style)
        (bodyBlocks style (.conditional condition body)) (bodyBlocks style (.alternative other))
      :: blocks style others
  | stmt :: others =>
    .mk (stmt.headToPython style) (bodyBlocks style stmt) [] :: blocks style others

end

theorem bodyBlocks_eq (style : Style) (stmt : Stmt) :
  bodyBlocks style stmt
    = if stmt.hasBody then orOne (.mk "pass" [] []) (blocks style stmt.body) else []
  := by
  cases stmt <;> simp [bodyBlocks, hasBody, body]

theorem isEmpty_bodyBlocks (style : Style) (stmt : Stmt) :
  (bodyBlocks style stmt).isEmpty = !stmt.hasBody
  := by
  rw [bodyBlocks_eq]
  split <;> simp_all [orOne_ne_nil]

theorem blocks_ne_nil (style : Style) (stmt : Stmt) (others : List Stmt) :
  blocks style (stmt :: others) ≠ []
  := by
  rw [blocks.eq_def]
  split <;> simp_all

/-- Every alternative among the statements and in their bodies comes directly after a
conditional. -/
inductive Paired : List Stmt → Prop where
  | nil : Paired []
  | cons {stmt : Stmt} {others : List Stmt} (hstmt : ∀ body, stmt ≠ .alternative body)
      (hbody : Paired stmt.body) (hs : Paired others) :
      Paired (stmt :: others)
  | alternative {condition : Expr} {body other others : List Stmt} (hbody : Paired body)
      (hother : Paired other) (hs : Paired others) :
      Paired (.conditional condition body :: .alternative other :: others)

/-- A statement that no alternative follows has a block of its own. -/
theorem blocks_cons (style : Style) (stmt : Stmt) {others : List Stmt} (h : Paired others) :
  blocks style (stmt :: others)
    = .mk (stmt.headToPython style) (bodyBlocks style stmt) [] :: blocks style others
  := by
  apply blocks.eq_3
  rintro condition body other rest _ rfl
  cases h with
  | cons hstmt => exact hstmt other rfl

end Stmt

/-! ### Programs of a source -/

namespace Grammar

open Stmt

mutual

theorem Statement.paired : ∀ {depth : Nat} {inFunction : Bool} {tokens : List Token}
    {stmts others : List Stmt}, Statement depth inFunction tokens stmts → Paired others →
    Paired (stmts ++ others)
  | _, _, _, _, _, .declaration .., hs => .cons (by simp) .nil hs
  | _, _, _, _, _, .assignment .., hs => .cons (by simp) .nil hs
  | _, _, _, _, _, .call .., hs => .cons (by simp) .nil hs
  | _, _, _, _, _, .callEnded .., hs => .cons (by simp) .nil hs
  | _, _, _, _, _, .conditional _ _ hbody, hs => .cons (by simp) hbody.paired hs
  | _, _, _, _, _, .alternative _ _ hbody _ hother, hs =>
      .alternative hbody.paired hother.paired hs
  | _, _, _, _, _, .loop _ _ hbody, hs => .cons (by simp) hbody.paired hs
  | _, _, _, _, _, .function _ _ _ hbody, hs => .cons (by simp) hbody.paired hs
  | _, _, _, _, _, .result .., hs => .cons (by simp) .nil hs
  | _, _, _, _, _, .empty _, hs => hs

theorem Block.paired : ∀ {depth : Nat} {inFunction : Bool} {tokens : List Token}
    {body : List Stmt}, Block depth inFunction tokens body → Paired body
  | _, _, _, _, .mk _ _ h _ => h.paired

theorem Statements.paired : ∀ {depth : Nat} {inFunction : Bool} {tokens : List Token}
    {stmts : List Stmt}, Statements depth inFunction tokens stmts → Paired stmts
  | _, _, _, _, .nil => .nil
  | _, _, _, _, .cons h hs => h.paired hs.paired

end

end Grammar

/-- In a program that is read from a source, every alternative comes directly after a
conditional. -/
theorem paired_of_ofSource {source : String} {program : Program}
    (h : Program.ofSource source = .ok program) :
  Stmt.Paired program.body
  := by
  obtain ⟨tokens, hderives, _⟩ := derives_of_ofSource h
  apply Grammar.Statements.paired hderives

/-! ### Columns of levels -/

namespace Style

/-- The column of the lines within `level` blocks. -/
def column (style : Style) (tab level : Nat) : Nat :=
  columnAfter tab (style.margin level).toList

/-- The line as it is read. -/
def lineAt (style : Style) (tab : Nat) (line : Nat × String) : Line :=
  ⟨style.column tab line.1, line.2⟩

theorem toList_margin_succ (style : Style) (level : Nat) :
  (style.margin (level + 1)).toList = (style.margin level).toList ++ style.indent.toList
  := by
  induction level with
  | zero => simp [margin]
  | succ level ih =>
    have hnext : (style.margin (level + 1)).toList
        = style.indent.toList ++ (style.margin level).toList := String.toList_append
    rw [margin, String.toList_append, ih, ← List.append_assoc, ← hnext, ih]

/-- A margin is made of what the indentation is made of. -/
theorem forall_mem_margin {style : Style} {p : Char → Prop} (h : ∀ c ∈ style.indent.toList, p c)
    (level : Nat) :
  ∀ c ∈ (style.margin level).toList, p c
  := by
  induction level with
  | zero => simp [margin]
  | succ level ih =>
    rw [toList_margin_succ, List.forall_mem_append]
    exact ⟨ih, h⟩

theorem column_lt_succ {style : Style} (hindent : style.indent ≠ "") {tab : Nat} (htab : 0 < tab)
    (level : Nat) :
  style.column tab level < style.column tab (level + 1)
  := by
  rw [column, column, toList_margin_succ]
  apply columnAfter_lt_append htab
  simpa using hindent

end Style

/-! ### Nesting -/

namespace Stmt

variable {style : Style} {tab : Nat}

theorem headToPython_ne_else (style : Style) {stmt : Stmt} (h : stmt.MadeOf Lexeme.Proper)
    (hstmt : ∀ body, stmt ≠ .alternative body) :
  stmt.headToPython style ≠ "else:"
  := by
  intro helse
  have hheader := (standsAlone_headToPython style h).isHeader_eq
  have hfirst := congrArg (fun text => text.toList.head?) helse
  rw [helse] at hheader
  -- Only the lines of statements with a body end in a colon, and they start with other letters.
  cases stmt with
  | alternative body => exact hstmt body rfl
  | conditional | loop | function => simp [headToPython] at hfirst
  | _ => simp [hasBody, isHeader] at hheader

/-- The blocks of statements may follow others in the same column. -/
theorem follow_blocks (style : Style) {stmts : List Stmt} (h : Paired stmts)
    (hmade : ∀ stmt ∈ stmts, stmt.MadeOf Lexeme.Proper) {column : Nat}
    {after : List (Nat × Block)} (hafter : Follow column after) :
  Follow column ((blocks style stmts).map (column, ·) ++ after)
  := by
  cases h with
  | nil => simpa [blocks] using hafter
  | cons hstmt _ hs =>
    rw [List.forall_mem_cons] at hmade
    have hne := headToPython_ne_else style hmade.1 hstmt
    rw [blocks_cons style _ hs]
    simpa [Follow, Block.text] using hne
  | alternative =>
    rw [List.forall_mem_cons] at hmade
    have hne := headToPython_ne_else style hmade.1 (by simp)
    rw [blocks]
    simpa [Follow, Block.text] using hne

section

variable (hcolumn : ∀ level, style.column tab level < style.column tab (level + 1))
include hcolumn

/-- The lines of the body of a statement nest when those of the statements in it do. -/
theorem nest_bodyLines {stmt : Stmt} {level : Nat} {after : List (Nat × Block)}
    (hafter : Follow (style.column tab level) after)
    (hbody : nest ((lines style level stmt.body).map (style.lineAt tab)) after
      = some ((blocks style stmt.body).map (style.column tab level, ·) ++ after)) :
  nest ((bodyLines style level stmt).map (style.lineAt tab)) after
    = some ((bodyBlocks style stmt).map (style.column tab level, ·) ++ after)
  := by
  rw [bodyLines_eq, bodyBlocks_eq]
  cases stmt.hasBody with
  | false => rfl
  | true =>
    cases hstmts : stmt.body with
    | nil =>
      have hpass := @place_eq ⟨style.column tab level, "pass"⟩ [] standsAlone_pass.isHeader_eq _
        (hcolumn level) after (fun block hblock => (hafter block hblock).1)
      rw [attach_of_follow hafter] at hpass
      exact hpass
    | cons inner others =>
      have hlines : lines style level stmt.body ≠ [] := by simp [hstmts, lines]
      have hblocks : blocks style stmt.body ≠ [] := by simp [hstmts, blocks_ne_nil]
      rw [← hstmts]
      simpa [orOne_of_ne_nil, hlines, hblocks] using hbody

/-- The own line of a statement takes the blocks of its body. -/
theorem nest_stmt {stmt : Stmt} (hmade : stmt.MadeOf Lexeme.Proper) {level : Nat}
    {after : List (Nat × Block)} (hafter : ∀ block ∈ after.head?, block.1 ≤ style.column tab level)
    (hbody : Follow (style.column tab (level + 1)) after →
      nest ((lines style (level + 1) stmt.body).map (style.lineAt tab)) after
        = some ((blocks style stmt.body).map (style.column tab (level + 1), ·) ++ after)) :
  nest (((level, stmt.headToPython style) :: bodyLines style (level + 1) stmt).map
      (style.lineAt tab)) after
    = some (attach ⟨style.column tab level, stmt.headToPython style⟩ (bodyBlocks style stmt) after)
  := by
  have hfollow : Follow (style.column tab (level + 1)) after := by
    apply follow_of_lt
    intro block hblock
    apply Nat.lt_of_le_of_lt (hafter block hblock) (hcolumn level)
  rw [List.map_cons, nest, nest_bodyLines hcolumn hfollow (hbody hfollow)]
  apply place_eq
  · rw [isEmpty_bodyBlocks, Bool.not_not]
    exact (standsAlone_headToPython style hmade).isHeader_eq
  · apply hcolumn level
  · apply hafter

/-- The lines of statements nest to their blocks. -/
theorem nest_lines {stmts : List Stmt} (h : Paired stmts)
    (hmade : ∀ stmt ∈ stmts, stmt.MadeOf Lexeme.Proper) (level : Nat)
    {after : List (Nat × Block)} (hafter : Follow (style.column tab level) after) :
  nest ((lines style level stmts).map (style.lineAt tab)) after
    = some ((blocks style stmts).map (style.column tab level, ·) ++ after)
  := by
  induction h generalizing level after with
  | nil => rfl
  | cons hstmt hbody hs ihbody ihs =>
    rw [List.forall_mem_cons] at hmade
    have hfollow := follow_blocks style hs hmade.2 hafter
    rw [lines, List.map_append, nest_append, ihs hmade.2 level hafter, Option.bind_some,
      nest_stmt hcolumn hmade.1 (fun block hblock => (hfollow block hblock).1)
        (ihbody hmade.1.body (level + 1)),
      attach_of_follow hfollow, blocks_cons style _ hs, List.map_cons, List.cons_append]
  | alternative _ _ hs ihbody ihother ihs =>
    rw [List.forall_mem_cons, List.forall_mem_cons] at hmade
    obtain ⟨hconditional, halternative, hothers⟩ := hmade
    have hfollow := follow_blocks style hs hothers hafter
    -- The alternative is placed as a block of its own, which the conditional then takes.
    rw [lines, List.map_append, nest_append, lines, List.map_append, nest_append,
      ihs hothers level hafter, Option.bind_some,
      nest_stmt hcolumn halternative (fun block hblock => (hfollow block hblock).1)
        (ihother halternative.body (level + 1)),
      attach_of_follow hfollow, Option.bind_some,
      nest_stmt hcolumn hconditional (by simp) (ihbody hconditional.body (level + 1)), blocks,
      List.map_cons, List.cons_append]
    apply congrArg some
    apply attach_else

end

end Stmt

/-! ### Programs -/

namespace Program

/-- The lines of the program, each with the number of blocks it is in. -/
def lines (style : Style) (program : Program) : List (Nat × String) :=
  Stmt.lines style 0 program.body

/-- The blocks of the program. -/
def blocks (style : Style) (program : Program) : List Block :=
  Stmt.blocks style program.body

end Program

/-- The text is the program laid out in the style. -/
structure Layout (style : Style) (program : Program) (text : String) : Prop where
  /-- The text is made up of the lines of the program, each after its margin. -/
  rows : text.toList.splitOn '\n' = (program.lines style).map style.rowOf ++ [[]]
  /-- No line starts with a blank after its margin. -/
  plain : ∀ line ∈ program.lines style, StartsPlain line.2.toList
  /-- No line has a newline in it. -/
  no_newline : ∀ line ∈ program.lines style, '\n' ∉ line.2.toList
  /-- A header stands before a line one level deeper, any other line before one no deeper. -/
  adjacent : (program.lines style).IsChain Adjacent
  /-- The last line is not a header. -/
  last : ∀ line ∈ (program.lines style).getLast?, isHeader line.2 = false
  /-- The indentation gives back the blocks of the program, whatever the width of a tab. -/
  nesting : ∀ tab, 0 < tab → blocksOf tab text = some (program.blocks style)

/-- The lines of a text, read with their columns. -/
theorem linesOf_eq {style : Style} (hindent : ∀ c ∈ style.indent.toList, isIndent c = true)
    {lines : List (Nat × String)} (hlines : ∀ line ∈ lines, StartsPlain line.2.toList)
    {text : String} (htext : text.toList.splitOn '\n' = lines.map style.rowOf ++ [[]]) (tab : Nat) :
  linesOf tab text = lines.map (style.lineAt tab)
  := by
  have hread : lines.map (Line.ofChars tab ∘ style.rowOf) = lines.map (style.lineAt tab) := by
    apply List.map_congr_left
    intro line hline
    have hmargin := Style.forall_mem_margin hindent line.1
    rw [Function.comp_apply, Style.rowOf, Line.ofChars_append hmargin (hlines line hline),
      String.ofList_toList]
    rfl
  have hkept : ∀ line ∈ lines.map (style.lineAt tab), decide (line.text ≠ "") = true := by
    rw [List.forall_mem_map]
    intro line hline
    obtain ⟨c, hc, _⟩ := hlines line hline
    apply decide_eq_true
    intro hempty
    simp [show line.2 = "" from hempty] at hc
  rw [linesOf, htext, List.map_append, List.map_map, List.filter_append,
    hread, List.filter_eq_self.mpr hkept]
  simp [Line.ofChars]

/-- The text of a program that is read from a source is laid out so that its lines are those of the
statements and its indentation is their nesting. -/
theorem layout_toPython {source : String} {program : Program}
    (hprogram : Program.ofSource source = .ok program) {style : Style} (hindent : style.indent ≠ "")
    (hblank : ∀ c ∈ style.indent.toList, isIndent c = true) :
  Layout style program (program.toPython style)
  := by
  have hmade := madeOf_of_ofSource hprogram
  have halone := Stmt.standsAlone_of_mem_lines style hmade 0
  have hlaid := Stmt.laid_lines style hmade 0
  have hrows : (program.toPython style).toList.splitOn '\n'
      = (program.lines style).map style.rowOf ++ [[]] := by
    rw [Program.toPython, Stmt.toList_listToPython, Style.splitOn_write]
    · rfl
    · intro line hline
      have hmargin : '\n' ∉ (style.margin line.1).toList := by
        intro hmem
        have := Style.forall_mem_margin hblank line.1 _ hmem
        revert this
        decide
      simp [Style.rowOf, hmargin, (halone line hline).no_newline]
  have hplain : ∀ line ∈ program.lines style, StartsPlain line.2.toList :=
    fun line hline => (halone line hline).starts
  constructor
  case rows => exact hrows
  case plain => exact hplain
  case no_newline => exact fun line hline => (halone line hline).no_newline
  case adjacent => exact hlaid.adjacent
  case last => exact fun line hline => (hlaid.last line hline).2
  case nesting =>
    intro tab htab
    have hfollow : Follow (style.column tab 0) [] := by simp [Follow]
    have hnest := Stmt.nest_lines (Style.column_lt_succ hindent htab) (paired_of_ofSource hprogram)
      hmade 0 hfollow
    rw [blocksOf, linesOf_eq hblank hplain hrows, Program.lines, hnest, Option.bind_some, if_pos]
    · simp [Function.comp_def, Program.blocks]
    · simp [Style.column, Style.margin, columnAfter]

/-- An alternative after an empty body, with a loop in it, indented by a tab and a space. -/
theorem layout_alternative_with_loop :
  ∃ program, Program.ofSource "si(a)\x7b\x7dsino\x7bmientras(b)\x7bf()\x7d\x7d" = .ok program
    ∧ program.toPython ⟨"\t ", false⟩
      = "if (a):\n\t pass\nelse:\n\t while (b):\n\t \t f()\n"
    ∧ Layout ⟨"\t ", false⟩ program (program.toPython ⟨"\t ", false⟩)
  := by
  have htext : (Program.ofSource "si(a)\x7b\x7dsino\x7bmientras(b)\x7bf()\x7d\x7d").map
      (Program.toPython ⟨"\t ", false⟩)
        = .ok "if (a):\n\t pass\nelse:\n\t while (b):\n\t \t f()\n" := by decide +kernel
  cases hprogram : Program.ofSource "si(a)\x7b\x7dsino\x7bmientras(b)\x7bf()\x7d\x7d" with
  | error fault =>
    rw [hprogram] at htext
    contradiction
  | ok program =>
    rw [hprogram] at htext
    use program, rfl, Except.ok.inj htext
    apply layout_toPython hprogram
    · decide
    · simp [isIndent]

end Mientras
