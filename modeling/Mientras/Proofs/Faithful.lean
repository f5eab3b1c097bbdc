import Mathlib.Order.Monotone.Basic
import Mathlib.Tactic.Common
import Mientras.Proofs.Layout
import Mientras.Proofs.Shown

/-!
# What the text of a program shows

The text of a program does not show which assignments were declarations, nor what the text of an
expression does not show; `program.shown` is what is left.  Programs that are read from sources have
the same text exactly when they show the same (`toPython_eq_iff_shown_eq`).  For this the text is
read back: its lines are known with their levels, the first word of a line and what comes after it
tell what kind of statement it is the line of (`formOf_line`), and the expressions in it are known
from their texts.
-/

namespace Mientras

open Text Python

namespace Stmt

/-! ### Statements without what their text does not show -/

mutual

/-- What the text of the statement shows. -/
def shown : Stmt → Stmt
  | .declaration _ name value => .assignment name value.shown
  | .assignment name value => .assignment name value.shown
  | .call callee arguments => .call (Expr.renamedCallee callee) (arguments.map Expr.shown)
  | .conditional condition body => .conditional condition.shown (shownOf body)
  | .alternative body => .alternative (shownOf body)
  | .loop condition body => .loop condition.shown (shownOf body)
  | .function name parameters body => .function name parameters (shownOf body)
  | .result value => .result value.shown

/-- What the text of statements shows. -/
def shownOf : List Stmt → List Stmt
  | [] => []
  | stmt :: others => stmt.shown :: shownOf others

end

/-- The statement with other statements in its body, if it has one. -/
def withBody (body : List Stmt) : Stmt → Stmt
  | .conditional condition _ => .conditional condition body
  | .alternative _ => .alternative body
  | .loop condition _ => .loop condition body
  | .function name parameters _ => .function name parameters body
  | stmt => stmt

/-- What the own line of the statement shows. -/
def shownLine (stmt : Stmt) : Stmt :=
  stmt.shown.withBody []

theorem shown_eq_withBody (stmt : Stmt) :
  stmt.shown = stmt.shownLine.withBody (shownOf stmt.body)
  := by
  cases stmt <;> simp [shown, shownLine, withBody, body]

theorem hasBody_shown (stmt : Stmt) :
  stmt.shown.hasBody = stmt.hasBody
  := by
  cases stmt <;> simp [shown, hasBody]

theorem body_shown (stmt : Stmt) :
  stmt.shown.body = shownOf stmt.body
  := by
  cases stmt <;> simp [shown, body, shownOf]

theorem body_of_not_hasBody {stmt : Stmt} (h : stmt.hasBody = false) :
  stmt.body = []
  := by
  cases stmt with
  | conditional | alternative | loop | function => cases h
  | _ => rfl

/-! ### The text is that of what it shows -/

section

variable {style : Style} (hparens : style.sourceParensOnly = false)
include hparens

theorem headToPython_shown (stmt : Stmt) :
  stmt.shown.headToPython style = stmt.headToPython style
  := by
  cases stmt with
  | call callee arguments =>
    have hshown := Expr.shownAs_call false callee arguments
    rw [shown, headToPython, headToPython, Expr.callToPython, Expr.callToPython,
      ← Expr.builtinName_eq, ← hshown]
    apply Expr.toPython_shown hparens
  | _ => simp [shown, headToPython, Expr.toPython_shown hparens]

/-- The lines of statements are those of what they show. -/
theorem lines_shownOf (stmts : List Stmt) (level : Nat) :
  lines style level (shownOf stmts) = lines style level stmts
  := by
  induction stmts using body_induction generalizing level with
  | nil => rw [shownOf]
  | cons stmt others ihbody ihothers =>
    rw [shownOf, lines, lines, bodyLines_eq, bodyLines_eq, headToPython_shown hparens,
      hasBody_shown, body_shown, ihbody, ihothers]

end

/-! ### The first word of a line -/

/-- The word that the own line of the statement starts with. -/
def lineWord : Stmt → String
  | .declaration _ name _ | .assignment name _ => name
  | .call callee _ => builtinName callee
  | .conditional _ _ => "if"
  | .alternative _ => "else"
  | .loop _ _ => "while"
  | .function _ _ _ => "def"
  | .result _ => "return"

/-- What comes after the first word of the own line of the statement. -/
def lineTail (style : Style) : Stmt → List Char
  | .declaration _ _ value | .assignment _ value =>
    ' ' :: '=' :: ' ' :: (value.toPython style).toList
  | .call _ arguments =>
    '(' :: ((commaSeparated (arguments.map (Expr.toPython style))).toList ++ [')'])
  | .conditional condition _ | .loop condition _ =>
    ' ' :: '(' :: ((condition.toPython style).toList ++ [')', ':'])
  | .alternative _ => [':']
  | .function name parameters _ =>
    ' ' :: (name.toList
      ++ '(' :: ((commaSeparated (parameters.map parameterToPython)).toList ++ [')', ':']))
  | .result value => ' ' :: (value.toPython style).toList

theorem toList_headToPython (style : Style) (stmt : Stmt) :
  (stmt.headToPython style).toList = stmt.lineWord.toList ++ stmt.lineTail style
  := by
  cases stmt with
  | call callee arguments => apply toList_operandToPython_call style callee arguments false
  | _ => simp [headToPython, lineWord, lineTail]

end Stmt

/-- A word is known from a text that starts with it and goes on with something else. -/
theorem eq_of_word {word word' : List Char} (hword : ∀ c ∈ word, isWord c = true)
    (hword' : ∀ c ∈ word', isWord c = true) {rest rest' : List Char}
    (hrest : atWordEnd rest = true) (hrest' : atWordEnd rest' = true)
    (htext : word ++ rest = word' ++ rest') :
  word = word' ∧ rest = rest'
  := by
  have hstop : ∀ {rest : List Char}, atWordEnd rest = true →
      ∀ c ∈ rest.head?, isWord c = false := by
    intro rest hend c hc
    simpa [atWordEnd, Option.mem_def.mp hc] using hend
  constructor
  · have hsame := congrArg (List.takeWhile isWord) htext
    rwa [takeWhile_append_of_stop hword (hstop hrest),
      takeWhile_append_of_stop hword' (hstop hrest')] at hsame
  · have hsame := congrArg (List.dropWhile isWord) htext
    rwa [dropWhile_append_of_stop hword (hstop hrest),
      dropWhile_append_of_stop hword' (hstop hrest')] at hsame

theorem Lexeme.Proper.isWord {name : String} (h : Lexeme.Proper ⟨.identifier, name⟩) :
  ∀ c ∈ name.toList, isWord c = true
  := isWord_of_written_identifier h.written

namespace Stmt

theorem isWord_lineWord {stmt : Stmt} (h : stmt.MadeOf Lexeme.Proper) :
  ∀ c ∈ stmt.lineWord.toList, isWord c = true
  := by
  have hword : ∀ word ∈ ["if", "else", "while", "def", "return"],
      word.toList.all isWord = true := by decide
  simp only [List.all_eq_true] at hword
  cases h with
  | declaration _ hname _ | assignment hname _ => apply hname.isWord
  | call h =>
    cases h with
    | call hcallee _ => apply (proper_builtinName hcallee).isWord
  | _ =>
    apply hword
    simp [lineWord]

theorem atWordEnd_lineTail (style : Style) (stmt : Stmt) :
  atWordEnd (stmt.lineTail style) = true
  := by
  cases stmt <;> rfl

/-- The first word of a line and what comes after it are known from the line. -/
theorem eq_of_headToPython {style : Style} {stmt other : Stmt} (h : stmt.MadeOf Lexeme.Proper)
    (h' : other.MadeOf Lexeme.Proper)
    (htext : stmt.headToPython style = other.headToPython style) :
  stmt.lineWord = other.lineWord ∧ stmt.lineTail style = other.lineTail style
    ∧ stmt.hasBody = other.hasBody
  := by
  have hline := congrArg String.toList htext
  rw [toList_headToPython, toList_headToPython] at hline
  obtain ⟨hword, htail⟩ := eq_of_word (isWord_lineWord h) (isWord_lineWord h')
    (atWordEnd_lineTail style stmt) (atWordEnd_lineTail style other) hline
  have hheader := (standsAlone_headToPython style h).isHeader_eq
  rw [htext, (standsAlone_headToPython style h').isHeader_eq] at hheader
  exact ⟨String.toList_injective hword, htail, hheader.symm⟩

/-- No statement is written as the line of a body without statements. -/
theorem headToPython_ne_pass (style : Style) {stmt : Stmt} (h : stmt.MadeOf Lexeme.Proper) :
  stmt.headToPython style ≠ "pass"
  := by
  intro htext
  have hline := congrArg String.toList htext
  have hpass : "pass".toList.all isWord = true := by decide
  rw [toList_headToPython, ← List.append_nil "pass".toList] at hline
  obtain ⟨_, htail⟩ := eq_of_word (isWord_lineWord h) (List.all_eq_true.mp hpass)
    (atWordEnd_lineTail style stmt) rfl hline
  cases stmt <;> cases htail

/-! ### The form of a line -/

/-- The kinds of statements that have lines of their own. -/
inductive Form where
  | assignment
  | call
  | conditional
  | alternative
  | loop
  | function
  | result
  deriving DecidableEq

/-- What kind of statement the statement is. -/
def form : Stmt → Form
  | .declaration _ _ _ | .assignment _ _ => .assignment
  | .call _ _ => .call
  | .conditional _ _ => .conditional
  | .alternative _ => .alternative
  | .loop _ _ => .loop
  | .function _ _ _ => .function
  | .result _ => .result

/-- The kind of statement that a line is the own line of, where the line starts with `word` and goes
on with `tail`, and `header` says whether it ends in a colon. -/
def formOf (word : String) (tail : List Char) (header : Bool) : Form :=
  match tail with
  | '(' :: _ => .call
  | ':' :: _ => .alternative
  | _ =>
    if header then
      if word = "if" then .conditional else if word = "while" then .loop else .function
    -- no value starts with the sign of an assignment
    else if tail.tail.head? = some '=' then .assignment else .result

theorem formOf_line (style : Style) {stmt : Stmt} (h : stmt.MadeOf Lexeme.Proper) :
  formOf stmt.lineWord (stmt.lineTail style) stmt.hasBody = stmt.form
  := by
  cases h with
  | result hvalue =>
    obtain ⟨c, hc, _, hsign⟩ := Expr.exists_first style hvalue false
    have hvalue : (Expr.toPython style _).toList.head? = some c := hc
    simp [formOf, lineTail, hasBody, form, hvalue, hsign]
  | _ => simp [formOf, lineWord, lineTail, hasBody, form]

end Stmt

/-! ### Parameters -/

/-- The names of the types are in the list of the language. -/
theorem Lexeme.Proper.mem_typeNames {type : String} (h : Lexeme.Proper ⟨.typeName, type⟩) :
  (type, Kind.typeName) ∈ Kind.typeNames
  := by
  have hwords : ∀ word ∈ Kind.words, word.2 = .typeName → word ∈ Kind.typeNames := by decide
  have hsigns : ∀ sign ∈ Kind.signs, sign.2 ≠ .typeName := by decide
  have hwritten : Written .typeName type.toList := h.written
  generalize hkind : Kind.typeName = kind at hwritten
  generalize htext : type.toList = text at hwritten
  cases hwritten with
  | word hmem =>
    obtain rfl := String.toList_injective htext
    apply hwords _ hmem hkind.symm
  | sign hmem => exact absurd hkind.symm (hsigns _ hmem)
  | _ => simp at hkind

/-- The parameters of a function are known from their text up to the closing parenthesis. -/
theorem eq_of_parameters {parameters others : List Parameter}
    (h : ∀ parameter ∈ parameters, Lexeme.Proper ⟨.typeName, parameter.type⟩
      ∧ Lexeme.Proper ⟨.identifier, parameter.name⟩)
    (hothers : ∀ parameter ∈ others, Lexeme.Proper ⟨.typeName, parameter.type⟩
      ∧ Lexeme.Proper ⟨.identifier, parameter.name⟩) {rest rest' : List Char}
    (htext : (commaSeparated (parameters.map Stmt.parameterToPython)).toList ++ ')' :: rest
      = (commaSeparated (others.map Stmt.parameterToPython)).toList ++ ')' :: rest') :
  parameters = others
  := by
  have hword : ∀ type ∈ Kind.typeNames, (typeName type.1).toList.all isWord = true := by decide
  have hinj : ∀ type ∈ Kind.typeNames, ∀ other ∈ Kind.typeNames,
      typeName type.1 = typeName other.1 → type.1 = other.1 := by decide
  have hends : ∀ {rest : List Char}, EndsWhole rest → atWordEnd rest = true := by
    intro rest hrest
    cases rest with
    | nil => rfl
    | cons c rest =>
      rcases hrest c rfl with rfl | rfl <;> rfl
  rw [← List.map_id parameters, ← List.map_id others]
  refine (eq_of_commaSeparated ?_ ?_ h hothers htext).1
  · rintro ⟨type, name⟩ ⟨type', name'⟩ ⟨htype, hname⟩ ⟨htype', hname'⟩ rest rest' hrest hrest' hsame
    simp only [Stmt.parameterToPython, String.toList_append, List.append_assoc] at hsame
    obtain ⟨hname, hafter⟩ := eq_of_word hname.isWord hname'.isWord rfl rfl hsame
    obtain ⟨htypes, hend⟩ := eq_of_word (List.all_eq_true.mp (hword _ htype.mem_typeNames))
      (List.all_eq_true.mp (hword _ htype'.mem_typeNames)) (hends hrest) (hends hrest')
      (List.append_cancel_left hafter)
    have htype := hinj _ htype.mem_typeNames _ htype'.mem_typeNames (String.toList_injective htypes)
    exact ⟨congrArg₂ Parameter.mk htype (String.toList_injective hname), hend⟩
  · intro parameter hparameter
    have hname : Lexeme.Proper ⟨.identifier, parameter.name⟩ := hparameter.elim And.right And.right
    obtain ⟨c, hc, hne, _⟩ := Expr.exists_first_of_written hname.written rfl
    rw [Stmt.parameterToPython, String.toList_append, String.toList_append, List.append_assoc]
    exact ⟨c, List.mem_head?_append_of_mem_head? hc, hne⟩

/-! ### Bodies -/

/-- The first of the lines, if any, is in fewer than `level` blocks. -/
def Outdents (level : Nat) (lines : List (Nat × String)) : Prop :=
  ∀ line ∈ lines.head?, line.1 < level

/-- The lines of statements with more lines after them do not start in fewer blocks. -/
theorem Outdents.ne_lines_append {style : Style} {level : Nat} {after : List (Nat × String)}
    (h : Outdents level after) (stmt : Stmt) (others : List Stmt) (after' : List (Nat × String)) :
  after ≠ Stmt.lines style level (stmt :: others) ++ after'
  := by
  rintro rfl
  rw [Stmt.lines] at h
  exact Nat.lt_irrefl level (h _ rfl)

/-- What comes after the body of a statement is in fewer blocks than the body. -/
theorem Outdents.lines_append {style : Style} {level : Nat} {after : List (Nat × String)}
    (h : Outdents level after) (stmts : List Stmt) :
  Outdents (level + 1) (Stmt.lines style level stmts ++ after)
  := by
  cases stmts with
  | nil =>
    intro line hline
    exact Nat.lt_succ_of_lt (h line hline)
  | cons stmt others =>
    rw [Stmt.lines]
    rintro line ⟨⟩
    exact Nat.lt_succ_self level

namespace Stmt

theorem orOne_lines_cons (style : Style) (level : Nat) (inner : Stmt) (stmts : List Stmt)
    (one : Nat × String) :
  orOne one (lines style level (inner :: stmts)) = lines style level (inner :: stmts)
  := by
  rw [lines]
  rfl

/-- The body of a statement is known from its lines when the statements in it are. -/
theorem eq_of_bodyLines {style : Style} {stmt other : Stmt} (h : stmt.MadeOf Lexeme.Proper)
    (h' : other.MadeOf Lexeme.Proper) (hbody : stmt.hasBody = other.hasBody) {level : Nat}
    {after after' : List (Nat × String)}
    (hstmts : lines style level stmt.body ++ after = lines style level other.body ++ after' →
      shownOf stmt.body = shownOf other.body ∧ after = after')
    (hlines : bodyLines style level stmt ++ after = bodyLines style level other ++ after') :
  shownOf stmt.body = shownOf other.body ∧ after = after'
  := by
  -- a body without statements has a line that no statement has
  have hpass : ∀ {stmt inner : Stmt} {stmts : List Stmt} {after after' : List (Nat × String)},
      stmt.MadeOf Lexeme.Proper → stmt.body = inner :: stmts →
      (level, "pass") :: after ≠ lines style level (inner :: stmts) ++ after' := by
    intro stmt inner stmts after after' hmade heq hsame
    have hinner := hmade.body inner (heq ▸ List.mem_cons_self)
    rw [lines] at hsame
    exact headToPython_ne_pass style hinner (Prod.mk.inj (List.cons.inj hsame).1).2.symm
  rw [bodyLines_eq, bodyLines_eq, hbody] at hlines
  cases hother : other.hasBody with
  | false =>
    rw [body_of_not_hasBody hother, body_of_not_hasBody (hbody.trans hother)]
    rw [hother] at hlines
    exact ⟨rfl, hlines⟩
  | true =>
    rw [hother, if_pos rfl, if_pos rfl] at hlines
    cases hinner : stmt.body with
    | nil =>
      cases hinner' : other.body with
      | nil =>
        rw [hinner, hinner'] at hlines
        exact ⟨rfl, (List.cons.inj hlines).2⟩
      | cons inner' stmts' =>
        rw [hinner, hinner', orOne_lines_cons] at hlines
        exact absurd hlines (hpass h' hinner')
    | cons inner stmts =>
      cases hinner' : other.body with
      | nil =>
        rw [hinner, hinner', orOne_lines_cons] at hlines
        exact absurd hlines.symm (hpass h hinner)
      | cons inner' stmts' =>
        rw [hinner, hinner', orOne_lines_cons, orOne_lines_cons] at hlines
        rw [hinner, hinner'] at hstmts
        apply hstmts hlines

/-! ### What a line shows -/

section

variable {style : Style} (hparens : style.sourceParensOnly = false)
include hparens

/-- A condition is known from what comes after the first word of the line. -/
theorem eq_of_condition {condition other : Expr} (h : condition.MadeOf Lexeme.Proper)
    (h' : other.MadeOf Lexeme.Proper)
    (htail : ' ' :: '(' :: ((condition.toPython style).toList ++ [')', ':'])
      = ' ' :: '(' :: ((other.toPython style).toList ++ [')', ':'])) :
  condition.shown = other.shown
  := by
  have htext := (List.cons.inj (List.cons.inj htail).2).2
  exact (Expr.legible hparens h h' (endsWhole_close _) (endsWhole_close _) htext).1

/-- A value at the end of a line is known from its text. -/
theorem eq_of_value {value other : Expr} (h : value.MadeOf Lexeme.Proper)
    (h' : other.MadeOf Lexeme.Proper)
    (htext : (value.toPython style).toList = (other.toPython style).toList) :
  value.shown = other.shown
  := by
  have hsame := congrArg (· ++ []) htext
  exact (Expr.legible hparens h h' endsWhole_nil endsWhole_nil hsame).1

/-- An assignment is known from its line. -/
theorem eq_of_assignment {name name' : String} {value value' : Expr}
    (h : value.MadeOf Lexeme.Proper) (h' : value'.MadeOf Lexeme.Proper) (hname : name = name')
    (htail : ' ' :: '=' :: ' ' :: (value.toPython style).toList
      = ' ' :: '=' :: ' ' :: (value'.toPython style).toList) :
  Stmt.assignment name value.shown = .assignment name' value'.shown
  := by
  have htext := (List.cons.inj (List.cons.inj (List.cons.inj htail).2).2).2
  rw [hname, eq_of_value hparens h h' htext]

/-- What the own line of a statement shows is known from the line. -/
theorem shownLine_eq_of_headToPython {stmt other : Stmt} (h : stmt.MadeOf Lexeme.Proper)
    (h' : other.MadeOf Lexeme.Proper)
    (htext : stmt.headToPython style = other.headToPython style) :
  stmt.shownLine = other.shownLine
  := by
  obtain ⟨hword, htail, hbody⟩ := eq_of_headToPython h h' htext
  have hform : stmt.form = other.form := by
    rw [← formOf_line style h, ← formOf_line style h', hword, htail, hbody]
  rw [shownLine, shownLine]
  cases h with
  | declaration _ _ hvalue | assignment _ hvalue =>
    cases h' with
    | declaration _ _ hvalue' | assignment _ hvalue' =>
      rw [shown, shown, withBody.eq_def, withBody.eq_def]
      apply eq_of_assignment hparens hvalue hvalue' hword htail
    | _ => cases hform
  | call h =>
    cases h' with
    | call h' =>
      cases h with
      | call _ harguments =>
      cases h' with
      | call _ harguments' =>
      have hlegible := fun e he =>
        And.intro (harguments e he) (Expr.legible hparens (harguments e he))
      obtain ⟨hsame, _⟩ := Expr.eq_of_arguments hlegible harguments' (List.cons.inj htail).2
      rw [shown, shown, ← Expr.builtinName_eq, ← Expr.builtinName_eq, hsame]
      exact congrArg (Stmt.call · _) hword
    | _ => cases hform
  | conditional hcondition _ =>
    cases h' with
    | conditional hcondition' _ =>
      rw [shown, shown, eq_of_condition hparens hcondition hcondition' htail]
      rfl
    | _ => cases hform
  | alternative _ =>
    cases h' with
    | alternative _ => rw [shown, shown, withBody, withBody]
    | _ => cases hform
  | loop hcondition _ =>
    cases h' with
    | loop hcondition' _ =>
      rw [shown, shown, eq_of_condition hparens hcondition hcondition' htail]
      rfl
    | _ => cases hform
  | function hname hparameters _ =>
    cases h' with
    | function hname' hparameters' _ =>
      obtain ⟨hsame, hafter⟩ :=
        eq_of_word hname.isWord hname'.isWord rfl rfl (List.cons.inj htail).2
      have hlist := eq_of_parameters hparameters hparameters' (List.cons.inj hafter).2
      rw [shown, shown, String.toList_injective hsame, hlist]
      rfl
    | _ => cases hform
  | result hvalue =>
    cases h' with
    | result hvalue' =>
      rw [shown, shown, eq_of_value hparens hvalue hvalue' (List.cons.inj htail).2]
    | _ => cases hform

/-! ### What lines show -/

/-- Statements are known from their lines before lines in fewer blocks. -/
theorem shownOf_eq_of_lines {stmts others : List Stmt}
    (h : ∀ stmt ∈ stmts, stmt.MadeOf Lexeme.Proper)
    (h' : ∀ stmt ∈ others, stmt.MadeOf Lexeme.Proper) {level : Nat}
    {after after' : List (Nat × String)} (hafter : Outdents level after)
    (hafter' : Outdents level after')
    (hlines : lines style level stmts ++ after = lines style level others ++ after') :
  shownOf stmts = shownOf others ∧ after = after'
  := by
  induction stmts using body_induction generalizing others level after after' with
  | nil =>
    cases others with
    | nil => exact ⟨rfl, hlines⟩
    | cons other others => exact absurd hlines (hafter.ne_lines_append other others after')
  | cons stmt stmts ihbody ihothers =>
    cases others with
    | nil => exact absurd hlines.symm (hafter'.ne_lines_append stmt stmts after)
    | cons other others =>
      rw [List.forall_mem_cons] at h h'
      rw [lines, lines, List.append_assoc, List.append_assoc] at hlines
      obtain ⟨hhead, htail⟩ := List.cons.inj hlines
      have hline := (Prod.mk.inj hhead).2
      obtain ⟨_, _, hbody⟩ := eq_of_headToPython h.1 h'.1 hline
      obtain ⟨hinner, hrest⟩ := eq_of_bodyLines h.1 h'.1 hbody
        (ihbody h.1.body h'.1.body (hafter.lines_append stmts) (hafter'.lines_append others)) htail
      obtain ⟨hothers, hend⟩ := ihothers h.2 h'.2 hafter hafter' hrest
      rw [shownOf, shownOf, shown_eq_withBody stmt, shown_eq_withBody other,
        shownLine_eq_of_headToPython hparens h.1 h'.1 hline, hinner, hothers]
      exact ⟨rfl, hend⟩

end

end Stmt

/-! ### Programs -/

/-- What the text of the program shows. -/
def Program.shown (program : Program) : Program :=
  ⟨Stmt.shownOf program.body⟩

/-- The lines of a program are known from its text. -/
theorem linesOf_toPython {style : Style} (hblank : ∀ c ∈ style.indent.toList, isIndent c = true)
    {program : Program} (h : ∀ stmt ∈ program.body, stmt.MadeOf Lexeme.Proper) (tab : Nat) :
  linesOf tab (program.toPython style) = (program.lines style).map (style.lineAt tab)
  := by
  have halone := Stmt.standsAlone_of_mem_lines style h 0
  apply linesOf_eq hblank
  · intro line hline
    exact (halone line hline).starts
  · rw [Program.toPython, Stmt.toList_listToPython]
    apply Style.splitOn_write
    intro line hline
    have hnewline : isIndent '\n' = false := by decide
    have hmargin : '\n' ∉ (style.margin line.1).toList := by
      intro hmem
      have hindent := Style.forall_mem_margin hblank line.1 _ hmem
      rw [hnewline] at hindent
      contradiction
    simp [Style.rowOf, hmargin, (halone line hline).no_newline]

theorem Style.lineAt_injective {style : Style} (hindent : style.indent ≠ "") {tab : Nat}
    (htab : 0 < tab) :
  Function.Injective (style.lineAt tab)
  := by
  rintro ⟨level, text⟩ ⟨level', text'⟩ hsame
  obtain ⟨hcolumn, htext⟩ := Line.mk.inj hsame
  have hmono : StrictMono (style.column tab) :=
    strictMono_nat_of_lt_succ (column_lt_succ hindent htab)
  exact Prod.ext (hmono.injective hcolumn) htext

/-- Two programs that are read from sources have the same text exactly when they are the same but
for what the text does not show: which assignments are declarations, which operands are groups, and
the names that are others in Python. -/
theorem toPython_eq_iff_shown_eq {source source' : String} {program program' : Program}
    (h : Program.ofSource source = .ok program) (h' : Program.ofSource source' = .ok program')
    {style : Style} (hparens : style.sourceParensOnly = false) (hindent : style.indent ≠ "")
    (hblank : ∀ c ∈ style.indent.toList, isIndent c = true) :
  program.toPython style = program'.toPython style ↔ program.shown = program'.shown
  := by
  have hmade := madeOf_of_ofSource h
  have hmade' := madeOf_of_ofSource h'
  constructor
  · intro htext
    have hsame := congrArg (linesOf 1) htext
    rw [linesOf_toPython hblank hmade, linesOf_toPython hblank hmade'] at hsame
    have hlines := (Style.lineAt_injective hindent Nat.one_pos).list_map hsame
    have hend : Outdents 0 [] := nofun
    have hbody := (Stmt.shownOf_eq_of_lines hparens hmade hmade' hend hend
      (congrArg (· ++ []) hlines)).1
    rw [Program.shown, Program.shown, hbody]
  · intro hshown
    apply String.toList_injective
    rw [Program.toPython, Program.toPython, Stmt.toList_listToPython, Stmt.toList_listToPython,
      ← Stmt.lines_shownOf hparens program.body, ← Stmt.lines_shownOf hparens program'.body,
      show Stmt.shownOf program.body = Stmt.shownOf program'.body from congrArg Program.body hshown]

/-- A declaration and an assignment, a group and no group, and two names for each of a function and
a truth value. -/
theorem shown_eq_of_renamed_call :
  ∃ program program',
    Program.ofSource "entero x = (1 + 2) * 3; imprimir(x, verdadero);" = .ok program
    ∧ Program.ofSource "x = 1 + 2 * 3; print(x, True);" = .ok program'
    ∧ program.toPython {} = "x = (1 + 2) * 3\nprint(x, True)\n"
    ∧ program.shown = program'.shown
  := by
  have hread : ∀ {source text : String},
      (Program.ofSource source).map (Program.toPython {}) = .ok text →
      ∃ program, Program.ofSource source = .ok program ∧ program.toPython {} = text := by
    intro source text htext
    cases hprogram : Program.ofSource source with
    | error fault =>
      rw [hprogram] at htext
      contradiction
    | ok program =>
      rw [hprogram] at htext
      exact ⟨program, rfl, Except.ok.inj htext⟩
  obtain ⟨program, hprogram, htext⟩ :=
    @hread "entero x = (1 + 2) * 3; imprimir(x, verdadero);" "x = (1 + 2) * 3\nprint(x, True)\n"
      (by decide +kernel)
  obtain ⟨program', hprogram', htext'⟩ :=
    @hread "x = 1 + 2 * 3; print(x, True);" "x = (1 + 2) * 3\nprint(x, True)\n" (by decide +kernel)
  have hiff : program.toPython {} = program'.toPython {} ↔ program.shown = program'.shown :=
    toPython_eq_iff_shown_eq hprogram hprogram' rfl (by decide) (by simp [isIndent])
  exact ⟨program, program', hprogram, hprogram', htext, hiff.mp (htext.trans htext'.symm)⟩

end Mientras
