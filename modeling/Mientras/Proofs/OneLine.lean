import Mathlib.Tactic.Common
import Mientras.Proofs.EvaluationOrder
import Mientras.Proofs.Indentation
import Mientras.Python.Stmt

/-!
# Texts of one line

The text of an expression and the own line of a statement stand on one line: they have no newline
and do not start with a blank.  An expression does not end in a colon, so that the own line of a
statement ends in one exactly when the statement has a body (`standsAlone_headToPython`).
-/

namespace Mientras

open Text Python Rule

/-- The text ends in a character that is not a colon. -/
def EndsPlain (text : List Char) : Prop :=
  ∃ c ∈ text.getLast?, c ≠ ':'

instance (text : List Char) : Decidable (EndsPlain text) :=
  decidable_of_iff (text.getLast?.any (· ≠ ':') = true) (by simp [EndsPlain, Option.any_eq_true])

theorem EndsPlain.append {second : List Char} (h : EndsPlain second) (first : List Char) :
  EndsPlain (first ++ second)
  := by
  obtain ⟨c, hc, hne⟩ := h
  exact ⟨c, List.mem_getLast?_append_of_mem_getLast? hc, hne⟩

theorem EndsPlain.cons {text : List Char} (h : EndsPlain text) (c : Char) :
  EndsPlain (c :: text)
  := h.append [c]

/-- The text stands on one line, does not start with a blank and does not end in a colon. -/
structure Inline (text : List Char) : Prop where
  starts : StartsPlain text
  no_newline : '\n' ∉ text
  ends : EndsPlain text

theorem Inline.append {first second : List Char} (h : Inline first) (hnewline : '\n' ∉ second)
    (hends : EndsPlain second) :
  Inline (first ++ second)
  := by
  constructor
  case starts => apply h.starts.append
  case no_newline => simp [h.no_newline, hnewline]
  case ends => apply hends.append

theorem isHeader_of_inline {text : String} (h : Inline text.toList) :
  isHeader text = false
  := by
  obtain ⟨c, hc, hne⟩ := h.ends
  rw [isHeader, Option.mem_def.mp hc]
  simpa using hne

/-! ### Lexemes -/

/-- A run of characters none of which is a newline or a colon. -/
theorem ends_of_forall {p : Char → Bool} (hp : ∀ c, p c = true → c ≠ '\n' ∧ c ≠ ':')
    {text : List Char} (hne : text ≠ []) (h : ∀ c ∈ text, p c = true) :
  '\n' ∉ text ∧ EndsPlain text
  := by
  constructor
  · intro hmem
    exact (hp _ (h _ hmem)).1 rfl
  · use text.getLast hne, List.getLast?_eq_some_getLast hne
    apply (hp _ (h _ (List.getLast_mem hne))).2

theorem ends_of_written {kind : Kind} {text : List Char} (h : Written kind text)
    (htrivia : kind.isTrivia = false) :
  '\n' ∉ text ∧ EndsPlain text
  := by
  have hwords : ∀ word ∈ Kind.words ++ Kind.signs,
      '\n' ∉ word.1.toList ∧ EndsPlain word.1.toList := by decide
  have hdigit : ∀ c : Char, c.isDigit = true → c ≠ '\n' ∧ c ≠ ':' := by
    intro c hc
    constructor <;>
    · rintro rfl
      simp at hc
  cases h with
  | lineComment => simp [Kind.isTrivia] at htrivia
  | blockComment => simp [Kind.isTrivia] at htrivia
  | blank => simp [Kind.isTrivia] at htrivia
  | word h => apply hwords _ (List.mem_append_left _ h)
  | sign h => apply hwords _ (List.mem_append_right _ h)
  | @float whole fraction hwhole hfraction h =>
    rw [List.forall_mem_append] at h
    obtain ⟨hnewline, _⟩ := ends_of_forall hdigit hwhole h.1
    obtain ⟨hnewline', hends⟩ := ends_of_forall hdigit hfraction h.2
    constructor
    · simp [hnewline, hnewline']
    · apply (hends.cons '.').append
  | integer hne h => apply ends_of_forall hdigit hne h
  | @text inside h =>
    constructor
    · simp only [List.mem_cons, List.mem_append, List.not_mem_nil, or_false, not_or]
      and_intros
      · decide
      · intro hmem
        have := h _ hmem
        simp [insideText] at this
      · decide
    · apply EndsPlain.append _ ('"' :: inside)
      decide
  | identifier hc h =>
    have hcontinues : ∀ c : Char, continuesIdentifier c = true → c ≠ '\n' ∧ c ≠ ':' := by
      intro c hc
      constructor <;>
      · rintro rfl
        revert hc
        decide
    apply ends_of_forall hcontinues (List.cons_ne_nil _ _)
    rw [List.forall_mem_cons]
    exact ⟨by simp [continuesIdentifier, Char.isAlphanum, hc], h⟩

theorem Lexeme.Proper.inline {lexeme : Lexeme} (h : lexeme.Proper) :
  Inline lexeme.text
  := by
  obtain ⟨hnewline, hends⟩ := ends_of_written h.written h.not_trivia
  exact ⟨h.startsPlain, hnewline, hends⟩

/-! ### Expressions -/

theorem not_mem_commaSeparated {texts : List String} (h : ∀ text ∈ texts, '\n' ∉ text.toList) :
  '\n' ∉ (commaSeparated texts).toList
  := by
  cases texts with
  | nil => simp [commaSeparated]
  | cons text others =>
    rw [List.forall_mem_cons] at h
    rw [toList_commaSeparated]
    simp only [List.mem_append, List.mem_flatMap, List.mem_cons, not_or, not_exists, not_and]
    use h.1
    intro other hother
    exact ⟨by decide, by decide, h.2 other hother⟩

theorem inline_group {text : List Char} (h : '\n' ∉ text) :
  Inline ('(' :: (text ++ [')']))
  := by
  constructor
  case starts => exact ⟨'(', rfl, by decide⟩
  case no_newline => simp [h]
  case ends =>
    apply EndsPlain.append _ ('(' :: text)
    decide

/-- The text of an expression stands on one line. -/
theorem inline_operandToPython (style : Style) {e : Expr} (h : e.MadeOf Lexeme.Proper)
    (nested : Bool) :
  Inline (e.operandToPython style nested).toList
  := by
  induction h generalizing nested with
  | atom hkind h =>
    obtain ⟨lexeme, hproper, _, htext, _⟩ := exists_proper_of_atom hkind h nested
    rw [htext]
    apply hproper.inline
  | @binary kind operator left right grouped _ h _ _ ihleft ihright =>
    have hoperator : '\n' ∉ operator.toList := h.inline.no_newline
    rw [toList_operandToPython_binary]
    have hinside : Inline ((left.operandToPython style true).toList
        ++ ' ' :: (operator.toList ++ ' ' :: (right.operandToPython style true).toList)) := by
      apply (ihleft true).append
      · simp [(ihright true).no_newline, hoperator]
      · apply EndsPlain.cons
        apply EndsPlain.append
        apply (ihright true).ends.cons
    cases grouped || (nested && !style.sourceParensOnly) with
    | false => exact hinside
    | true => apply inline_group hinside.no_newline
  | @call callee arguments h _ ih =>
    have harguments : '\n' ∉ (commaSeparated (arguments.map (Expr.toPython style))).toList := by
      apply not_mem_commaSeparated
      rw [List.forall_mem_map]
      intro e he
      apply (ih e he false).no_newline
    rw [toList_operandToPython_call]
    have hgroup := inline_group harguments
    apply (proper_builtinName h).inline.append hgroup.no_newline hgroup.ends

/-! ### Statements -/

/-- The statement has a body. -/
def Stmt.hasBody : Stmt → Bool
  | .conditional .. | .alternative .. | .loop .. | .function .. => true
  | _ => false

theorem not_mem_parameterToPython {parameter : Parameter}
    (htype : Lexeme.Proper ⟨.typeName, parameter.type⟩)
    (hname : Lexeme.Proper ⟨.identifier, parameter.name⟩) :
  '\n' ∉ (Stmt.parameterToPython parameter).toList
  := by
  have htypeName : '\n' ∉ (typeName parameter.type).toList := by
    rw [typeName.eq_def]
    split
    · decide
    · decide
    · decide
    · decide
    · apply htype.inline.no_newline
  have hname : '\n' ∉ parameter.name.toList := hname.inline.no_newline
  simp [Stmt.parameterToPython, hname, htypeName]

/-- The text stands on one line, does not start with a blank, and ends in a colon exactly if it
should. -/
structure StandsAlone (text : String) (header : Bool) : Prop where
  starts : StartsPlain text.toList
  no_newline : '\n' ∉ text.toList
  isHeader_eq : isHeader text = header

theorem Inline.standsAlone {text : String} (h : Inline text.toList) :
  StandsAlone text false
  := ⟨h.starts, h.no_newline, isHeader_of_inline h⟩

theorem standsAlone_header {opening text : String}
    (hopening : StartsPlain opening.toList ∧ '\n' ∉ opening.toList) (htext : '\n' ∉ text.toList) :
  StandsAlone (opening ++ text ++ "):") true
  := by
  constructor
  case starts =>
    rw [String.toList_append, String.toList_append]
    apply (hopening.1.append _).append
  case no_newline => simp [hopening.2, htext]
  case isHeader_eq => simp [isHeader]

/-- An assignment stands on one line. -/
theorem standsAlone_assignment (style : Style) {name : String} {value : Expr}
    (hname : Lexeme.Proper ⟨.identifier, name⟩) (hvalue : value.MadeOf Lexeme.Proper) :
  StandsAlone (name ++ " = " ++ value.toPython style) false
  := by
  have hinline := inline_operandToPython style hvalue false
  have hsign : Inline (name.toList ++ " = ".toList) := by
    apply hname.inline.append
    · decide
    · decide
  apply Inline.standsAlone
  rw [String.toList_append, String.toList_append]
  apply hsign.append hinline.no_newline hinline.ends

/-- The own line of a statement ends in a colon exactly when the statement has a body. -/
theorem standsAlone_headToPython (style : Style) {stmt : Stmt} (h : stmt.MadeOf Lexeme.Proper) :
  StandsAlone (stmt.headToPython style) stmt.hasBody
  := by
  cases h with
  | declaration _ hname hvalue => apply standsAlone_assignment style hname hvalue
  | assignment hname hvalue => apply standsAlone_assignment style hname hvalue
  | call h =>
    apply Inline.standsAlone
    apply inline_operandToPython style h false
  | conditional hcondition _ =>
    apply standsAlone_header (by decide) (inline_operandToPython style hcondition false).no_newline
  | alternative _ =>
    have helse : StandsAlone "else:" true := ⟨by decide, by decide, by decide⟩
    exact helse
  | loop hcondition _ =>
    apply standsAlone_header (by decide) (inline_operandToPython style hcondition false).no_newline
  | function hname hparameters _ =>
    have hname : '\n' ∉ String.toList _ := hname.inline.no_newline
    apply standsAlone_header
    · rw [String.toList_append, String.toList_append]
      constructor
      · apply (StartsPlain.append _ _).append
        decide
      · simp [hname]
    · apply not_mem_commaSeparated
      rw [List.forall_mem_map]
      intro parameter hparameter
      obtain ⟨htype, hname⟩ := hparameters parameter hparameter
      apply not_mem_parameterToPython htype hname
  | result hvalue =>
    have hinline := inline_operandToPython style hvalue false
    have hreturn : Inline "return ".toList := by constructor <;> decide
    apply Inline.standsAlone
    rw [Stmt.headToPython, String.toList_append]
    apply hreturn.append hinline.no_newline hinline.ends

end Mientras
