import Mathlib.Tactic.Common
import Mientras.Proofs.Image

/-!
# Reading the text of an expression again

Where only the parentheses of the source are written, the text of an expression is one of the
source language again.  It is read as the expression itself, with the groups where they were, but
for what has another name in Python: `e.renamed` is the expression `e` with these names.  The text
of an expression of a program is scanned and read as `e.renamed`, up to its end
(`expr_toPython_eq_renamed`).
-/

namespace Mientras

open Text Python Grammar

namespace Expr

mutual

/-- The expression with the names of Python: the truth values are the names `True` and `False`, and
`imprimir` is called `print`. -/
def renamed : Expr → Expr
  | .atom .boolean text =>
    if text = "verdadero" then .atom .name "True"
    else if text = "falso" then .atom .name "False"
    else .atom .boolean text
  | .atom sort text => .atom sort text
  | .binary operator left right grouped => .binary operator left.renamed right.renamed grouped
  | .call callee arguments => .call (renamedCallee callee) (renamedArguments arguments)

/-- The arguments of a call with the names of Python. -/
def renamedArguments : List Expr → List Expr
  | [] => []
  | argument :: others => argument.renamed :: renamedArguments others

end

theorem renamedArguments_eq_map (arguments : List Expr) :
  renamedArguments arguments = arguments.map renamed
  := by
  induction arguments with
  | nil => rw [renamedArguments, List.map_nil]
  | cons argument others ih => rw [renamedArguments, List.map_cons, ih]

theorem renamed_call (callee : String) (arguments : List Expr) :
  (call callee arguments).renamed = .call (builtinName callee) (arguments.map renamed)
  := by
  rw [renamed, renamedArguments_eq_map, builtinName_eq]

end Expr

/-- The text of an atom is a name or a literal, which stands for the atom with the names of
Python. -/
theorem exists_lexeme_of_atom (style : Style) (nested : Bool) {kind : Kind} {sort : Atom}
    {text : String} (hkind : kind.atom? = some sort) (h : Lexeme.Proper ⟨kind, text⟩) :
  ∃ lexeme : Lexeme, ∃ other, lexeme.Proper ∧ lexeme.kind.atom? = some other
    ∧ (Expr.atom sort text).operandToPython style nested = lexeme.value
    ∧ (Expr.atom sort text).renamed = .atom other lexeme.value
  := by
  cases kind with
  | identifier =>
    obtain rfl := Option.some.inj hkind
    exact ⟨_, _, h, rfl, rfl, rfl⟩
  | integer =>
    obtain rfl := Option.some.inj hkind
    exact ⟨_, _, h, rfl, rfl, rfl⟩
  | float =>
    obtain rfl := Option.some.inj hkind
    exact ⟨_, _, h, rfl, rfl, rfl⟩
  | text =>
    obtain rfl := Option.some.inj hkind
    exact ⟨_, _, h, rfl, rfl, rfl⟩
  | boolean =>
    obtain rfl := Option.some.inj hkind
    refine ⟨_, .name, proper_truthValue h, rfl, rfl, ?_⟩
    rcases h.written.of_boolean with htext | htext
    · obtain rfl := String.toList_injective htext
      rfl
    · obtain rfl := String.toList_injective htext
      rfl
  | _ => simp [Kind.atom?] at hkind

/-! ### Parts of what fits -/

/-- A part of an expression fits where the expression does. -/
theorem Expr.IsPart.fits {e whole : Expr} (h : e.IsPart whole) {depth : Nat}
    (hwhole : whole.Fits depth) :
  e.Fits depth
  := by
  induction h with
  | self => exact hwhole
  | left _ ih =>
    apply ih
    apply (fits_binary_iff.mp hwhole).2.1.mono (Nat.le_add_right _ _)
  | right _ ih =>
    apply ih
    apply (fits_binary_iff.mp hwhole).2.2.mono (Nat.le_add_right _ _)
  | argument hargument _ ih =>
    apply ih
    apply ((fits_call_iff.mp hwhole).2 _ hargument).mono (Nat.le_add_right _ _)

/-- An expression in the body of a statement fits where the statement does, when it fits where a
statement of the body does. -/
theorem Expr.Fits.of_body {e : Expr} {stmt inner : Stmt} {depth : Nat} {inFunction : Bool}
    (hstmt : stmt.Fits depth inFunction) (hhas : stmt.hasBody = true) (hinner : inner ∈ stmt.body)
    (h : ∀ {depth : Nat} {inFunction : Bool}, inner.Fits depth inFunction → e.Fits depth) :
  e.Fits depth
  := by
  obtain ⟨_, _, hblock⟩ := Stmt.fits_iff.mp hstmt
  apply (h ((hblock hhas).2 inner hinner)).mono (Nat.le_add_right _ _)

/-- An expression of a statement fits where the statement does. -/
theorem Expr.IsIn.fits {e : Expr} {stmt : Stmt} (h : e.IsIn stmt) {depth : Nat} {inFunction : Bool}
    (hstmt : stmt.Fits depth inFunction) :
  e.Fits depth
  := by
  induction h generalizing depth inFunction with
  | declaration h | assignment h | call h | condition h | loopCondition h | result h =>
    apply h.fits
    apply (Stmt.fits_iff.mp hstmt).2.1 _ rfl
  | conditional hinner _ ih | alternative hinner _ ih | loop hinner _ ih | function hinner _ ih =>
    apply Expr.Fits.of_body hstmt rfl hinner ih

/-! ### Texts that spell a part of a tree -/

section

variable {α : Type}

/-- The text is read as lexemes that spell `a` wherever they stand, where `form` says which tokens
spell what. -/
structure Spells (form : List Token → α → Prop) (text : List Char) (a : α) : Prop where
  plain : StartsPlain text
  lexes : ∃ lexemes, Lexes text lexemes
    ∧ ∀ tokens : List Token, tokens.map Token.lexeme = lexemes.filter (!·.kind.isTrivia) →
        form tokens a

theorem Spells.imp {β : Type} {form : List Token → α → Prop} {form' : List Token → β → Prop}
    {text : List Char} {a : α} {b : β} (h : Spells form text a)
    (hform : ∀ {tokens : List Token}, form tokens a → form' tokens b) :
  Spells form' text b
  := by
  obtain ⟨hplain, lexemes, hlexes, hspell⟩ := h
  exact ⟨hplain, lexemes, hlexes, fun tokens htokens => hform (hspell tokens htokens)⟩

/-- A proper lexeme is spelled by the tokens that it is the lexeme of. -/
theorem Lexeme.Proper.spells {form : List Token → α → Prop} {lexeme : Lexeme} {a : α}
    (h : lexeme.Proper) (hform : ∀ {token : Token}, token.lexeme = lexeme → form [token] a) :
  Spells form lexeme.text a
  := by
  refine ⟨h.startsPlain, [lexeme], h.lexes, ?_⟩
  intro tokens htokens
  rw [List.filter_singleton, h.not_trivia] at htokens
  obtain ⟨token, rfl, htoken⟩ := List.map_eq_singleton_iff.mp htokens
  apply hform htoken

end

/-- Tokens with the lexemes of parentheses around others are parentheses around tokens. -/
theorem exists_inParens_of_map {tokens : List Token} {lexemes : List Lexeme}
    (h : tokens.map Token.lexeme
      = (⟨.openParen, "("⟩ :: (lexemes ++ [⟨.closeParen, ")"⟩])).filter (!·.kind.isTrivia)) :
  ∃ opening inside closing, tokens = opening :: inside ++ [closing] ∧ opening.kind = .openParen
    ∧ inside.map Token.lexeme = lexemes.filter (!·.kind.isTrivia) ∧ closing.kind = .closeParen
  := by
  rw [List.filter_cons_of_pos rfl, List.filter_append] at h
  obtain ⟨opening, rest, rfl, hopening, hrest⟩ := List.map_eq_cons_iff.mp h
  obtain ⟨inside, last, rfl, hinside, hlast⟩ := List.map_eq_append_iff.mp hrest
  obtain ⟨closing, rfl, hclosing⟩ := List.map_eq_singleton_iff.mp hlast
  exact ⟨opening, inside, closing, rfl, congrArg Lexeme.kind hopening, hinside,
    congrArg Lexeme.kind hclosing⟩

section

variable {depth : Nat}

theorem Spells.group {text : List Char} {e : Expr} (h : Spells (Expression (depth + 1)) text e)
    (hdepth : depth < maxDepth) :
  Spells (Factor depth) ('(' :: (text ++ [')'])) e.group
  := by
  obtain ⟨_, lexemes, hlexes, hspell⟩ := h
  refine ⟨⟨'(', rfl, by decide⟩, _, hlexes.closeParen.openParen, ?_⟩
  intro tokens htokens
  obtain ⟨opening, inside, closing, rfl, hopening, hinside, hclosing⟩ :=
    exists_inParens_of_map htokens
  apply Factor.ofGroup hdepth hopening (hspell inside hinside) hclosing

theorem Spells.operator {sign : Lexeme} (hsign : sign.Proper) (hkind : sign.kind.isOperator = true)
    {first second : List Char} {left right : Expr} (hleft : Spells (Expression depth) first left)
    (hright : Spells (Factor depth) second right) :
  Spells (Expression depth) (first ++ ' ' :: (sign.text ++ ' ' :: second))
    (.binary sign.value left right false)
  := by
  obtain ⟨hplain, lexemes, hlexes, hspell⟩ := hleft
  obtain ⟨hplain', lexemes', hlexes', hspell'⟩ := hright
  have hspace : delimits ' ' = true := by decide
  have hlexes'' : Lexes (sign.text ++ ' ' :: second) ([sign] ++ ⟨.blank, " "⟩ :: lexemes') :=
    hsign.lexes.append (hlexes'.space hplain') (delimited_cons hspace _)
  refine ⟨hplain.append _, _,
    hlexes.append (hlexes''.space (hsign.startsPlain.append _)) (delimited_cons hspace _), ?_⟩
  intro tokens htokens
  have hfilter : (lexemes ++ ⟨.blank, " "⟩ :: ([sign] ++ ⟨.blank, " "⟩ :: lexemes')).filter
        (!·.kind.isTrivia)
      = lexemes.filter (!·.kind.isTrivia) ++ sign :: lexemes'.filter (!·.kind.isTrivia) := by
    have hblank : Kind.blank.isTrivia = true := rfl
    simp [hsign.not_trivia, hblank]
  rw [hfilter] at htokens
  obtain ⟨before, rest, rfl, hbefore, hrest⟩ := List.map_eq_append_iff.mp htokens
  obtain ⟨token, after, rfl, rfl, hafter⟩ := List.map_eq_cons_iff.mp hrest
  apply Expression.operator (hspell before hbefore) hkind (hspell' after hafter)

/-- Texts of expressions, with a comma and a space between them, spell the expressions. -/
theorem Spells.separated {f : Expr → String} {g : Expr → Expr} {e : Expr} {others : List Expr}
    (h : ∀ other ∈ e :: others, Spells (Expression depth) (f other).toList (g other)) :
  Spells (Separated (Expression depth)) (commaSeparated ((e :: others).map f)).toList
    ((e :: others).map g)
  := by
  induction others generalizing e with
  | nil => apply (h e List.mem_cons_self).imp Separated.one
  | cons next others ih =>
    rw [List.forall_mem_cons] at h
    obtain ⟨⟨hplain, lexemes, hlexes, hspell⟩, hothers⟩ := h
    obtain ⟨hplain', lexemes', hlexes', hspell'⟩ := ih hothers
    have htext : (commaSeparated ((e :: next :: others).map f)).toList
        = (f e).toList ++ ',' :: ' ' :: (commaSeparated ((next :: others).map f)).toList := by
      rw [List.map_cons, List.map_cons, toList_commaSeparated, toList_commaSeparated]
      rfl
    rw [htext]
    refine ⟨hplain.append _, _,
      hlexes.append (hlexes'.comma hplain') (delimited_cons (by decide) _), ?_⟩
    intro tokens htokens
    rw [List.filter_append, List.filter_cons_of_pos rfl, List.filter_cons_of_neg (by decide)]
      at htokens
    obtain ⟨before, rest, rfl, hbefore, hrest⟩ := List.map_eq_append_iff.mp htokens
    obtain ⟨comma, after, rfl, hcomma, hafter⟩ := List.map_eq_cons_iff.mp hrest
    apply Separated.more (hspell before hbefore) (congrArg Lexeme.kind hcomma)
      (hspell' after hafter)

/-- A name before the texts of its arguments in parentheses spells a call. -/
theorem Spells.call {name : String} (hname : Lexeme.Proper ⟨.identifier, name⟩)
    {f : Expr → String} {g : Expr → Expr} {arguments : List Expr} (hdepth : depth < maxDepth)
    (h : ∀ e ∈ arguments, Spells (Expression (depth + 1)) (f e).toList (g e)) :
  Spells (Factor depth)
    (name.toList ++ '(' :: ((commaSeparated (arguments.map f)).toList ++ [')']))
    (.call name (arguments.map g))
  := by
  -- what stands between the parentheses, and how it makes a list in parentheses
  obtain ⟨lexemes, hlexes, hspell⟩ : ∃ lexemes,
      Lexes (commaSeparated (arguments.map f)).toList lexemes
        ∧ ∀ {opening closing : Token} {inside : List Token}, opening.kind = .openParen →
          inside.map Token.lexeme = lexemes.filter (!·.kind.isTrivia) →
          closing.kind = .closeParen →
          InParens (Expression (depth + 1)) (opening :: inside ++ [closing])
            (arguments.map g) := by
    cases arguments with
    | nil =>
      refine ⟨[], lexes_nil, ?_⟩
      intro opening closing inside hopening hinside hclosing
      obtain rfl := List.map_eq_nil_iff.mp hinside
      apply InParens.none hopening hclosing
    | cons e others =>
      obtain ⟨_, lexemes, hlexes, hspell⟩ := Spells.separated h
      refine ⟨lexemes, hlexes, ?_⟩
      intro opening closing inside hopening hinside hclosing
      apply InParens.some hopening (hspell inside hinside) hclosing
  refine ⟨hname.startsPlain.append _, _,
    hname.lexes.append hlexes.closeParen.openParen (delimited_cons (by decide) _), ?_⟩
  intro tokens htokens
  rw [List.filter_append, List.filter_singleton, hname.not_trivia] at htokens
  obtain ⟨token, rest, rfl, htoken, hrest⟩ := List.map_eq_cons_iff.mp htokens
  obtain ⟨opening, inside, closing, rfl, hopening, hinside, hclosing⟩ :=
    exists_inParens_of_map hrest
  have hvalue : token.value = name := congrArg Lexeme.value htoken
  rw [← hvalue]
  apply Factor.call (congrArg Lexeme.kind htoken)
  apply arguments_iff.mpr
  exact ⟨hdepth, hspell hopening hinside hclosing⟩

end

/-! ### The text of an expression -/

/-- The text of an expression spells it with the names of Python, and spells a factor when the
expression is one. -/
theorem spells_operandToPython {style : Style} (hstyle : style.sourceParensOnly = true) {e : Expr}
    (hmade : e.MadeOf Lexeme.Proper) {depth : Nat} (hfits : e.Fits depth) (nested : Bool) :
  Spells (Expression depth) (e.operandToPython style nested).toList e.renamed
    ∧ (e.isFactor = true → Spells (Factor depth) (e.operandToPython style nested).toList e.renamed)
  := by
  induction hmade generalizing depth nested with
  | @atom kind sort text hkind h =>
    obtain ⟨lexeme, other, hproper, hatom, htext, hrenamed⟩ :=
      exists_lexeme_of_atom style nested hkind h
    have hfactor : Spells (Factor depth) lexeme.text (.atom other lexeme.value) := by
      apply hproper.spells
      rintro token rfl
      apply Factor.atom hatom
    rw [htext, hrenamed]
    exact ⟨hfactor.imp .factor, fun _ => hfactor⟩
  | @binary kind operator left right grouped hkind h _ _ ihleft ihright =>
    obtain ⟨hright, hl, hr⟩ := Expr.fits_binary_iff.mp hfits
    -- the operator without its parentheses, at the depth within them
    have hoperator := Spells.operator h hkind (ihleft hl true).1 ((ihright hr true).2 hright)
    rw [toList_operandToPython_binary, hstyle, Bool.not_true, Bool.and_false, Bool.or_false,
      Expr.renamed]
    cases grouped with
    | false => exact ⟨hoperator, fun hfactor => by contradiction⟩
    | true =>
      have hdepth : depth < maxDepth := Nat.lt_of_lt_of_le (Nat.lt_succ_self _)
        (Nat.le_trans (Nat.le_add_right _ _) hl.nesting_le)
      have hfactor := hoperator.group hdepth
      exact ⟨hfactor.imp .factor, fun _ => hfactor⟩
  | @call callee arguments h _ ih =>
    obtain ⟨hdepth, harguments⟩ := Expr.fits_call_iff.mp hfits
    have hfactor := Spells.call (proper_builtinName h) hdepth
      (f := Expr.toPython style) (g := Expr.renamed)
      fun e he => (ih e he (harguments e he) false).1
    rw [toList_operandToPython_call, Expr.renamed_call]
    exact ⟨hfactor.imp .factor, fun _ => hfactor⟩

/-- A text that spells an expression is scanned, and its tokens are read as the expression. -/
theorem Spells.expr_eq {text : String} {e : Expr} (h : Spells (Expression 0) text.toList e) :
  ∃ tokens, tokenize text = .ok tokens
    ∧ Read.expr (Cursor.ofTokens tokens) = .ok e ((Cursor.ofTokens tokens).withRest [])
  := by
  obtain ⟨_, lexemes, hlexes, hspell⟩ := h
  have hscans := hlexes (show Delimited [] by simp [Delimited]) Scans.nil
  rw [List.append_nil, List.append_nil] at hscans
  obtain ⟨tokens, htokens, hlexemes⟩ := tokenize_of_scans hscans
  use tokens, htokens
  have hvalid := Cursor.valid_ofTokens tokens
  apply Read.complete_expr hvalid (List.append_nil _).symm (hspell _ hlexemes)
  rw [hvalid.kind_nil]
  exact ⟨rfl, by simp⟩

/-- With the parentheses of the source only, the text of an expression of a program is scanned and
read as the expression again, up to the end of the text and but for the names of Python. -/
theorem expr_toPython_eq_renamed {source : String} {program : Program}
    (hprogram : Program.ofSource source = .ok program) {e : Expr} (he : e.OccursIn program)
    {style : Style} (hstyle : style.sourceParensOnly = true) :
  ∃ tokens last, tokenize (e.toPython style) = .ok tokens
    ∧ Read.expr (Cursor.ofTokens tokens) = .ok e.renamed last
    ∧ last.rest = [] ∧ last.kind = .endOfInput
  := by
  obtain ⟨stmt, hstmt, he⟩ := he
  obtain ⟨spelling, hderives, _⟩ := derives_of_ofSource hprogram
  have hmade := he.madeOf (madeOf_of_ofSource hprogram stmt hstmt)
  have hfits := he.fits ((Program.wellFormed_iff.mp hderives.wellFormed).2 stmt hstmt)
  obtain ⟨tokens, htokens, hread⟩ := (spells_operandToPython hstyle hmade hfits false).1.expr_eq
  exact ⟨tokens, _, htokens, hread, rfl, (Cursor.valid_ofTokens tokens).kind_nil⟩

/-- A call in a group, before an operator and a group that has no operator in it, is read again. -/
theorem expr_toPython_call_in_group :
  ∃ program, ∃ e : Expr, Program.ofSource "x=(a-imprimir(verdadero))*(falso);" = .ok program
    ∧ e.OccursIn program ∧ e.toPython ⟨"\t", true⟩ = "(a - print(True)) * False"
    ∧ ∃ tokens last, tokenize (e.toPython ⟨"\t", true⟩) = .ok tokens
      ∧ Read.expr (Cursor.ofTokens tokens) = .ok e.renamed last
      ∧ last.rest = [] ∧ last.kind = .endOfInput
  := by
  have htexts : (Program.ofSource "x=(a-imprimir(verdadero))*(falso);").map (fun program =>
      (program.body.filterMap Stmt.expr?).map (Expr.toPython ⟨"\t", true⟩))
        = .ok ["(a - print(True)) * False"] := by decide +kernel
  cases hprogram : Program.ofSource "x=(a-imprimir(verdadero))*(falso);" with
  | error fault =>
    rw [hprogram] at htexts
    contradiction
  | ok program =>
    rw [hprogram] at htexts
    obtain ⟨e, hexprs, htext⟩ := List.map_eq_singleton_iff.mp (Except.ok.inj htexts)
    obtain ⟨stmt, hstmt, hexpr⟩ := List.mem_filterMap.mp (hexprs ▸ List.mem_singleton_self e)
    have hoccurs : e.OccursIn program :=
      ⟨stmt, hstmt, Stmt.isIn_iff.mpr (.inl ⟨e, hexpr, .self⟩)⟩
    exact ⟨program, e, rfl, hoccurs, htext, expr_toPython_eq_renamed hprogram hoccurs rfl⟩

end Mientras
