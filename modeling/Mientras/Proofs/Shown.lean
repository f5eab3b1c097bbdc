import Mathlib.Tactic.Common
import Mientras.Proofs.RoundTrip

/-!
# What the text of an expression shows

Where every operand that is an operator itself stands in parentheses, the text of an expression does
not show whether such an operand was a group in the source, and it shows some names as those of
Python.  `e.shown` is what is left of the expression `e`.  The text is that of `e.shown`
(`toPython_shown`), and it shows no less: a text that starts with the text of an expression does so
for no expression that shows otherwise, and what comes after it is known too (`legible`).
-/

namespace Mientras

open Text Python

namespace Expr

mutual

/-- The expression without the marks of the groups that are operands, where `operand` says whether
the expression is one itself. -/
def ungrouped (operand : Bool) : Expr → Expr
  | .atom sort text => .atom sort text
  | .binary operator left right grouped =>
    .binary operator (left.ungrouped true) (right.ungrouped true) (grouped && !operand)
  | .call callee arguments => .call callee (ungroupedArguments arguments)

/-- The arguments of a call without the marks of the groups that are operands. -/
def ungroupedArguments : List Expr → List Expr
  | [] => []
  | argument :: others => argument.ungrouped false :: ungroupedArguments others

end

/-- What the text of the expression shows, where `operand` says whether the expression is an
operand: the names of Python, and the groups but for those that are operands. -/
def shownAs (operand : Bool) (e : Expr) : Expr :=
  e.renamed.ungrouped operand

/-- What the text of the expression shows. -/
def shown (e : Expr) : Expr :=
  e.shownAs false

theorem ungroupedArguments_eq_map (arguments : List Expr) :
  ungroupedArguments arguments = arguments.map (ungrouped false)
  := by
  induction arguments with
  | nil => rw [ungroupedArguments, List.map_nil]
  | cons argument others ih => rw [ungroupedArguments, List.map_cons, ih]

theorem exists_atom_eq_renamed (sort : Atom) (text : String) :
  ∃ other text', (atom sort text).renamed = .atom other text'
  := by
  cases sort with
  | boolean =>
    rw [renamed]
    split
    · exact ⟨_, _, rfl⟩
    · split <;> exact ⟨_, _, rfl⟩
  | _ =>
    rw [renamed]
    · exact ⟨_, _, rfl⟩
    · simp

theorem shownAs_atom (operand : Bool) (sort : Atom) (text : String) :
  (atom sort text).shownAs operand = (atom sort text).renamed
  := by
  obtain ⟨other, text', hrenamed⟩ := exists_atom_eq_renamed sort text
  rw [shownAs, hrenamed, ungrouped]

theorem shownAs_binary (operand : Bool) (operator : String) (left right : Expr) (grouped : Bool) :
  (binary operator left right grouped).shownAs operand
    = .binary operator (left.shownAs true) (right.shownAs true) (grouped && !operand)
  := by
  rw [shownAs, renamed, ungrouped]
  rfl

theorem shownAs_call (operand : Bool) (callee : String) (arguments : List Expr) :
  (call callee arguments).shownAs operand = .call (builtinName callee) (arguments.map shown)
  := by
  rw [shownAs, renamed_call, ungrouped, ungroupedArguments_eq_map, List.map_map]
  rfl

/-! ### The text is that of what it shows -/

theorem operandToPython_renamed_atom (style : Style) (operand : Bool) (sort : Atom)
    (text : String) :
  (atom sort text).renamed.operandToPython style operand
    = (atom sort text).operandToPython style operand
  := by
  cases sort with
  | boolean =>
    rw [renamed]
    split
    · rename_i htext
      rw [htext]
      rfl
    · split
      · rename_i htext
        rw [htext]
        rfl
      · rfl
  | _ =>
    rw [renamed]
    simp

theorem builtinName_builtinName (callee : String) :
  builtinName (builtinName callee) = builtinName callee
  := by
  simp only [builtinName_eq, renamedCallee]
  split
  · decide
  · rfl

theorem operandToPython_shownAs {style : Style} (hstyle : style.sourceParensOnly = false) (e : Expr)
    (operand : Bool) :
  (e.shownAs operand).operandToPython style operand = e.operandToPython style operand
  := by
  induction e using part_induction generalizing operand with
  | atom sort text => rw [shownAs_atom, operandToPython_renamed_atom]
  | binary operator left right grouped ihleft ihright =>
    rw [shownAs_binary, operandToPython, operandToPython, ihleft, ihright, hstyle]
    cases grouped <;> cases operand <;> rfl
  | call callee arguments ih =>
    have harguments :
        (arguments.map shown).map (toPython style) = arguments.map (toPython style) := by
      rw [List.map_map]
      apply List.map_congr_left
      intro e he
      apply ih e he
    rw [shownAs_call, operandToPython, operandToPython, argumentsToPython_eq_map,
      argumentsToPython_eq_map, harguments, builtinName_builtinName]

/-- The text of an expression is the text of what it shows. -/
theorem toPython_shown {style : Style} (hstyle : style.sourceParensOnly = false) (e : Expr) :
  e.shown.toPython style = e.toPython style
  := operandToPython_shownAs hstyle e false

end Expr

/-! ### Telling texts apart -/

/-- What is found in front of a text is known from the text. -/
theorem Lexeme.Fronts.unique {lexeme other : Lexeme} {rest rest' : List Char}
    (h : lexeme.Fronts rest) (h' : other.Fronts rest')
    (htext : lexeme.text ++ rest = other.text ++ rest') :
  lexeme = other ∧ rest = rest'
  := by
  have hfound := h.2
  rw [htext, h'.2] at hfound
  obtain ⟨hkind, hlength⟩ := Prod.mk.inj (Option.some.inj hfound)
  obtain ⟨hsame, hrest⟩ := List.append_inj htext hlength.symm
  refine ⟨?_, hrest⟩
  cases lexeme
  cases other
  congr
  · exact hkind.symm
  · apply String.toList_injective hsame

/-- What may come after the text of an operand. -/
def EndsOperand (rest : List Char) : Prop :=
  ∀ c ∈ rest.head?, c = ' ' ∨ c = ',' ∨ c = ')'

/-- What may come after the text of an expression that is no operand. -/
def EndsWhole (rest : List Char) : Prop :=
  ∀ c ∈ rest.head?, c = ',' ∨ c = ')'

theorem EndsOperand.delimited {rest : List Char} (h : EndsOperand rest) :
  Delimited rest
  := by
  intro c hc
  rcases h c hc with rfl | rfl | rfl <;> decide

theorem EndsWhole.endsOperand {rest : List Char} (h : EndsWhole rest) :
  EndsOperand rest
  := by
  intro c hc
  exact .inr (h c hc)

theorem endsOperand_space (rest : List Char) :
  EndsOperand (' ' :: rest)
  := by
  rintro c ⟨⟩
  exact .inl rfl

theorem not_endsOperand_open (rest : List Char) :
  ¬ EndsOperand ('(' :: rest)
  := by
  intro h
  have hopen := h '(' rfl
  contradiction

theorem not_endsWhole_space (rest : List Char) :
  ¬ EndsWhole (' ' :: rest)
  := by
  intro h
  have hspace := h ' ' rfl
  contradiction

theorem endsWhole_comma (rest : List Char) :
  EndsWhole (',' :: rest)
  := by
  rintro c ⟨⟩
  exact .inl rfl

theorem endsWhole_close (rest : List Char) :
  EndsWhole (')' :: rest)
  := by
  rintro c ⟨⟩
  exact .inr rfl

theorem endsWhole_nil :
  EndsWhole []
  := by
  rintro c ⟨⟩

section

variable {α β : Type} {f : α → String} {g : α → β} {p q : α → Prop}
  (hitem : ∀ a b, p a → q b → ∀ rest rest', EndsWhole rest → EndsWhole rest' →
    (f a).toList ++ rest = (f b).toList ++ rest' → g a = g b ∧ rest = rest')

include hitem

/-- Items before which a comma stands are known from their texts, when single items are. -/
theorem eq_of_commas {list others : List α} (hlist : ∀ a ∈ list, p a) (hothers : ∀ b ∈ others, q b)
    {rest rest' : List Char}
    (htext : (list.flatMap fun a => ',' :: ' ' :: (f a).toList) ++ ')' :: rest
      = (others.flatMap fun b => ',' :: ' ' :: (f b).toList) ++ ')' :: rest') :
  list.map g = others.map g ∧ rest = rest'
  := by
  -- items with commas, like no item, end the item before them
  have hends : ∀ (items : List α) (after : List Char),
      EndsWhole ((items.flatMap fun a => ',' :: ' ' :: (f a).toList) ++ ')' :: after) := by
    intro items after
    cases items with
    | nil => apply endsWhole_close
    | cons a items => apply endsWhole_comma
  induction list generalizing others with
  | nil =>
    cases others with
    | nil => exact ⟨rfl, (List.cons.inj htext).2⟩
    | cons b others => simp at htext
  | cons a list ih =>
    cases others with
    | nil => simp at htext
    | cons b others =>
      rw [List.forall_mem_cons] at hlist hothers
      rw [List.flatMap_cons, List.flatMap_cons, List.append_assoc, List.append_assoc] at htext
      have hsame := (List.cons.inj (List.cons.inj htext).2).2
      obtain ⟨hfirst, hrest⟩ := hitem a b hlist.1 hothers.1 _ _ (hends _ _) (hends _ _) hsame
      obtain ⟨hmore, hafter⟩ := ih hlist.2 hothers.2 hrest
      exact ⟨by rw [List.map_cons, List.map_cons, hfirst, hmore], hafter⟩

/-- Items with commas between them are known from their text up to a closing parenthesis, when
single items are. -/
theorem eq_of_commaSeparated (hstarts : ∀ a, p a ∨ q a → ∃ c ∈ (f a).toList.head?, c ≠ ')')
    {list others : List α} (hlist : ∀ a ∈ list, p a) (hothers : ∀ b ∈ others, q b)
    {rest rest' : List Char}
    (htext : (commaSeparated (list.map f)).toList ++ ')' :: rest
      = (commaSeparated (others.map f)).toList ++ ')' :: rest') :
  list.map g = others.map g ∧ rest = rest'
  := by
  -- a list with an item does not start with what closes the list
  have hopen : ∀ {a : α} {items : List α} {before after : List Char}, p a ∨ q a →
      ')' :: before ≠ (commaSeparated ((a :: items).map f)).toList ++ after := by
    intro a items before after ha heq
    obtain ⟨c, hc, hne⟩ := hstarts a ha
    obtain ⟨text, hfa⟩ := List.head?_eq_some_iff.mp hc
    rw [List.map_cons, toList_commaSeparated, hfa] at heq
    exact hne (List.cons.inj heq).1.symm
  cases list with
  | nil =>
    cases others with
    | nil => exact ⟨rfl, (List.cons.inj htext).2⟩
    | cons b others => exact absurd htext (hopen (.inr (hothers b List.mem_cons_self)))
  | cons a list =>
    cases others with
    | nil => exact absurd htext.symm (hopen (.inl (hlist a List.mem_cons_self)))
    | cons b others =>
      -- the first items are not different from the others: a comma and a space may stand before all
      apply eq_of_commas hitem hlist hothers
      rw [List.map_cons, List.map_cons, toList_commaSeparated, toList_commaSeparated,
        List.flatMap_map, List.flatMap_map] at htext
      exact congrArg (',' :: ' ' :: ·) htext

end

/-! ### The front of an operand -/

namespace Expr

variable {style : Style}

/-- An operator between two operands, without parentheses around it. -/
def infixText (style : Style) (operator : String) (left right : Expr) : List Char :=
  (left.operandToPython style true).toList
    ++ ' ' :: (operator.toList ++ ' ' :: (right.operandToPython style true).toList)

/-- The text of the expression as an operand, before `rest`, is a lexeme before another text. -/
inductive Front (style : Style) (rest : List Char) : Expr → Lexeme → List Char → Prop where
  | atom {sort other : Atom} {text : String} {lexeme : Lexeme}
      (hkind : lexeme.kind.atom? = some other)
      (hrenamed : (atom sort text).renamed = .atom other lexeme.value) :
      Front style rest (.atom sort text) lexeme rest
  | group {operator : String} {left right : Expr} {grouped : Bool} :
      Front style rest (.binary operator left right grouped) ⟨.openParen, "("⟩
        (infixText style operator left right ++ ')' :: rest)
  | call {callee : String} {arguments : List Expr} :
      Front style rest (.call callee arguments) ⟨.identifier, builtinName callee⟩
        ('(' :: ((commaSeparated (arguments.map (toPython style))).toList ++ ')' :: rest))

theorem exists_front (hstyle : style.sourceParensOnly = false) {e : Expr}
    (h : e.MadeOf Lexeme.Proper) {rest : List Char} (hrest : EndsOperand rest) :
  ∃ lexeme after, Front style rest e lexeme after ∧ lexeme.Fronts after
    ∧ (e.operandToPython style true).toList ++ rest = lexeme.text ++ after
  := by
  cases h with
  | atom hkind h =>
    obtain ⟨lexeme, other, hproper, hatom, htext, hrenamed⟩ :=
      exists_lexeme_of_atom style true hkind h
    rw [htext]
    exact ⟨lexeme, rest, .atom hatom hrenamed, hproper.fronts hrest.delimited, rfl⟩
  | @binary kind operator left right grouped hkind h hleft hright =>
    refine ⟨_, _, .group, fronts_openParen _, ?_⟩
    rw [toList_operandToPython_binary, hstyle, Bool.not_false, Bool.and_true, Bool.or_true,
      if_pos rfl, infixText]
    simp [Lexeme.text]
  | @call callee arguments h harguments =>
    have hopen : delimits '(' = true := by decide
    refine ⟨_, _, .call, (proper_builtinName h).fronts (delimited_cons hopen _), ?_⟩
    rw [toList_operandToPython_call]
    simp [Lexeme.text]

/-! ### Texts that show an expression -/

/-- The text of the expression as an operand is known from a text that starts with it. -/
def LegibleOperand (style : Style) (e : Expr) : Prop :=
  ∀ ⦃other : Expr⦄, other.MadeOf Lexeme.Proper → ∀ ⦃rest rest' : List Char⦄,
    EndsOperand rest → EndsOperand rest' →
    (e.operandToPython style true).toList ++ rest
      = (other.operandToPython style true).toList ++ rest' →
    e.shownAs true = other.shownAs true ∧ rest = rest'

/-- The text of the expression is known from a text that starts with it. -/
def Legible (style : Style) (e : Expr) : Prop :=
  ∀ ⦃other : Expr⦄, other.MadeOf Lexeme.Proper → ∀ ⦃rest rest' : List Char⦄,
    EndsWhole rest → EndsWhole rest' →
    (e.toPython style).toList ++ rest = (other.toPython style).toList ++ rest' →
    e.shown = other.shown ∧ rest = rest'

/-- An operator and its operands are known from the text without parentheses. -/
theorem eq_of_infixText {kind kind' : Kind} {operator operator' : String}
    {left right left' right' : Expr} (hsign : Lexeme.Proper ⟨kind, operator⟩)
    (hsign' : Lexeme.Proper ⟨kind', operator'⟩) (hleft : left.LegibleOperand style)
    (hright : right.LegibleOperand style) (hleft' : left'.MadeOf Lexeme.Proper)
    (hright' : right'.MadeOf Lexeme.Proper) {rest rest' : List Char} (hrest : EndsOperand rest)
    (hrest' : EndsOperand rest')
    (htext : infixText style operator left right ++ rest
      = infixText style operator' left' right' ++ rest') (grouped : Bool) :
  Expr.binary operator (left.shownAs true) (right.shownAs true) grouped
      = .binary operator' (left'.shownAs true) (right'.shownAs true) grouped
    ∧ rest = rest'
  := by
  simp only [infixText, List.append_assoc, List.cons_append] at htext
  obtain ⟨hl, hafter⟩ := hleft hleft' (endsOperand_space _) (endsOperand_space _) htext
  obtain ⟨hs, hafter⟩ := (hsign.fronts (endsOperand_space _).delimited).unique
    (hsign'.fronts (endsOperand_space _).delimited) (List.cons.inj hafter).2
  obtain ⟨hr, hend⟩ := hright hright' hrest hrest' (List.cons.inj hafter).2
  obtain ⟨_, hoperator⟩ := Lexeme.mk.inj hs
  exact ⟨by rw [hl, hoperator, hr], hend⟩

/-- A name or a literal starts with a letter, a digit or a double quote. -/
theorem exists_first_of_written {kind : Kind} {sort : Atom} {text : List Char}
    (h : Written kind text) (hkind : kind.atom? = some sort) :
  ∃ c ∈ text.head?, c ≠ ')' ∧ c ≠ '='
  := by
  have hsigns : ∀ sign ∈ Kind.signs, sign.2.atom? = none := by decide
  have hplain : ∀ {c : Char}, c.isAlpha = true ∨ c.isDigit = true → c ≠ ')' ∧ c ≠ '=' := by
    intro c hc
    constructor <;>
    · rintro rfl
      exact absurd hc (by decide)
  have hdigits : ∀ {digits : List Char}, digits ≠ [] → (∀ c ∈ digits, c.isDigit = true) →
      ∃ c ∈ digits.head?, c ≠ ')' ∧ c ≠ '=' := by
    intro digits hne hall
    obtain ⟨c, others, rfl⟩ := List.exists_cons_of_ne_nil hne
    exact ⟨c, rfl, hplain (.inr (hall c List.mem_cons_self))⟩
  cases h with
  | word h =>
    obtain ⟨c, hc, hc'⟩ := (Rule.isAlpha_of_mem_words _ h).1
    exact ⟨c, hc, hplain (.inl hc')⟩
  | float hwhole _ h =>
    obtain ⟨c, hc, hne⟩ := hdigits hwhole fun c hc => h c (List.mem_append_left _ hc)
    exact ⟨c, List.mem_head?_append_of_mem_head? hc, hne⟩
  | integer hne h => apply hdigits hne h
  | text => exact ⟨'"', rfl, by decide⟩
  | sign h => simp [hsigns _ h] at hkind
  | identifier hc _ => exact ⟨_, rfl, hplain (.inl hc)⟩
  | _ => simp [Kind.atom?] at hkind

/-- An expression starts with a character that neither closes a list nor is the sign of an
assignment. -/
theorem exists_first (style : Style) {e : Expr} (h : e.MadeOf Lexeme.Proper) (operand : Bool) :
  ∃ c ∈ (e.operandToPython style operand).toList.head?, c ≠ ')' ∧ c ≠ '='
  := by
  induction h generalizing operand with
  | atom hkind h =>
    obtain ⟨lexeme, other, hproper, hatom, htext, _⟩ := exists_lexeme_of_atom style operand hkind h
    rw [htext]
    apply exists_first_of_written hproper.written hatom
  | binary _ _ _ _ ihleft _ =>
    rw [toList_operandToPython_binary]
    split
    · exact ⟨'(', rfl, by decide⟩
    · obtain ⟨c, hc, hne⟩ := ihleft true
      exact ⟨c, List.mem_head?_append_of_mem_head? hc, hne⟩
  | @call callee arguments h _ _ =>
    have hatom : Kind.identifier.atom? = some .name := rfl
    obtain ⟨c, hc, hne⟩ := exists_first_of_written (proper_builtinName h).written hatom
    rw [toList_operandToPython_call]
    exact ⟨c, List.mem_head?_append_of_mem_head? hc, hne⟩

/-- The arguments of a call are known from their text up to the closing parenthesis, when single
arguments are. -/
theorem eq_of_arguments {arguments others : List Expr}
    (h : ∀ e ∈ arguments, e.MadeOf Lexeme.Proper ∧ e.Legible style)
    (hothers : ∀ e ∈ others, e.MadeOf Lexeme.Proper) {rest rest' : List Char}
    (htext : (commaSeparated (arguments.map (toPython style))).toList ++ ')' :: rest
      = (commaSeparated (others.map (toPython style))).toList ++ ')' :: rest') :
  arguments.map shown = others.map shown ∧ rest = rest'
  := by
  apply eq_of_commaSeparated _ _ h hothers htext
  · rintro e other ⟨_, he⟩ hother rest rest' hrest hrest' htext
    apply he hother hrest hrest' htext
  · intro e he
    have hmade : e.MadeOf Lexeme.Proper := he.elim And.left id
    obtain ⟨c, hc, hne, _⟩ := exists_first style hmade false
    exact ⟨c, hc, hne⟩

/-- An operand is known from its text, when the operands of an operator and the arguments of a call
are. -/
theorem legibleOperand_of_parts (hstyle : style.sourceParensOnly = false) {e : Expr}
    (he : e.MadeOf Lexeme.Proper)
    (hoperands : ∀ {operator : String} {left right : Expr} {grouped : Bool},
      e = .binary operator left right grouped →
      left.LegibleOperand style ∧ right.LegibleOperand style)
    (harguments : ∀ {callee : String} {arguments : List Expr}, e = .call callee arguments →
      ∀ argument ∈ arguments, argument.Legible style) :
  e.LegibleOperand style
  := by
  intro other hother rest rest' hrest hrest' htext
  obtain ⟨lexeme, after, hfront, hfronts, heq⟩ := exists_front hstyle he hrest
  obtain ⟨lexeme', after', hfront', hfronts', heq'⟩ := exists_front hstyle hother hrest'
  obtain ⟨hlexeme, hafter⟩ := hfronts.unique hfronts' (heq.symm.trans (htext.trans heq'))
  -- the lexemes in front tell a group from the others, and what comes after them tells an atom from
  -- a call
  cases hfront with
  | atom hkind hrenamed =>
    cases hfront' with
    | atom hkind' hrenamed' =>
      rw [hlexeme, hkind'] at hkind
      rw [shownAs_atom, shownAs_atom, hrenamed, hrenamed', hlexeme, Option.some.inj hkind]
      exact ⟨rfl, hafter⟩
    | group =>
      rw [hlexeme] at hkind
      cases hkind
    | call => exact absurd (hafter ▸ hrest) (not_endsOperand_open _)
  | group =>
    cases hfront' with
    | atom hkind' _ =>
      rw [← hlexeme] at hkind'
      cases hkind'
    | group =>
      obtain ⟨hleft, hright⟩ := hoperands rfl
      cases he with
      | binary _ hsign _ _ =>
      cases hother with
      | binary _ hsign' hleft' hright' =>
      have hclose := fun rest => (endsWhole_close rest).endsOperand
      obtain ⟨hsame, hend⟩ := eq_of_infixText hsign hsign' hleft hright hleft' hright' (hclose _)
        (hclose _) hafter false
      simp only [shownAs_binary, Bool.not_true, Bool.and_false]
      exact ⟨hsame, (List.cons.inj hend).2⟩
    | call => cases hlexeme
  | call =>
    cases hfront' with
    | atom _ _ => exact absurd (hafter ▸ hrest') (not_endsOperand_open _)
    | group => cases hlexeme
    | call =>
      cases he with
      | call _ hmade =>
      cases hother with
      | call _ hmade' =>
      have hlegible := fun e h => And.intro (hmade e h) (harguments rfl e h)
      obtain ⟨hsame, hend⟩ := eq_of_arguments hlegible hmade' (List.cons.inj hafter).2
      rw [shownAs_call, shownAs_call, hsame, (Lexeme.mk.inj hlexeme).2]
      exact ⟨rfl, hend⟩

/-- An expression that is no factor is an operator without parentheses. -/
theorem exists_infix_of_not_isFactor {e : Expr} (h : e.isFactor = false) :
  ∃ operator left right, e = .binary operator left right false
  := by
  cases e with
  | binary operator left right grouped =>
    cases grouped with
    | false => exact ⟨operator, left, right, rfl⟩
    | true => cases h
  | _ => cases h

theorem toList_toPython_ungrouped (operator : String) (left right : Expr) :
  ((binary operator left right false).toPython style).toList = infixText style operator left right
  := by
  rw [toPython, toList_operandToPython_binary, infixText]
  simp

/-- A factor has the text that it has as an operand. -/
theorem toPython_of_isFactor {e : Expr} (h : e.isFactor = true) :
  e.toPython style = e.operandToPython style true
  := by
  cases e with
  | binary operator left right grouped =>
    cases h
    rw [toPython, operandToPython, operandToPython, Bool.true_or, Bool.true_or]
  | atom sort text => cases sort <;> rfl
  | call callee arguments => rw [toPython, operandToPython, operandToPython]

/-- A factor shows nothing that it does not show as an operand. -/
theorem shown_of_isFactor {e : Expr} (h : e.isFactor = true) :
  e.shown = (e.shownAs true).group
  := by
  rw [shown]
  cases e with
  | atom sort text =>
    obtain ⟨other, text', hrenamed⟩ := exists_atom_eq_renamed sort text
    rw [shownAs_atom, shownAs_atom, hrenamed, group]
    simp
  | binary operator left right grouped =>
    cases h
    rw [shownAs_binary, shownAs_binary, group, Bool.not_false, Bool.and_true]
  | call callee arguments =>
    rw [shownAs_call, shownAs_call, group]
    simp

/-- An expression is known from its text, when it is as an operand and its operands are. -/
theorem legible_of_operands {e : Expr} (he : e.MadeOf Lexeme.Proper)
    (hself : e.LegibleOperand style)
    (hoperands : ∀ {operator : String} {left right : Expr} {grouped : Bool},
      e = .binary operator left right grouped →
      left.LegibleOperand style ∧ right.LegibleOperand style) :
  e.Legible style
  := by
  intro other hother rest rest' hrest hrest' htext
  have hends := hrest.endsOperand
  have hends' := hrest'.endsOperand
  cases hfactor : e.isFactor with
  | true =>
    rw [toPython_of_isFactor hfactor] at htext
    cases hfactor' : other.isFactor with
    | true =>
      rw [toPython_of_isFactor hfactor'] at htext
      obtain ⟨hsame, hend⟩ := hself hother hends hends' htext
      rw [shown_of_isFactor hfactor, shown_of_isFactor hfactor', hsame]
      exact ⟨rfl, hend⟩
    | false =>
      -- a space comes after the left operand of the other one
      obtain ⟨operator', left', right', rfl⟩ := exists_infix_of_not_isFactor hfactor'
      rw [toList_toPython_ungrouped, infixText, List.append_assoc] at htext
      cases hother with
      | binary _ _ hleft' _ =>
      obtain ⟨_, hend⟩ := hself hleft' hends (endsOperand_space _) htext
      exact absurd (hend ▸ hrest) (not_endsWhole_space _)
  | false =>
    obtain ⟨operator, left, right, rfl⟩ := exists_infix_of_not_isFactor hfactor
    obtain ⟨hleft, hright⟩ := hoperands rfl
    rw [toList_toPython_ungrouped] at htext
    cases hfactor' : other.isFactor with
    | true =>
      rw [toPython_of_isFactor hfactor', infixText, List.append_assoc] at htext
      obtain ⟨_, hend⟩ := hleft hother (endsOperand_space _) hends' htext
      exact absurd (hend ▸ hrest') (not_endsWhole_space _)
    | false =>
      obtain ⟨operator', left', right', rfl⟩ := exists_infix_of_not_isFactor hfactor'
      rw [toList_toPython_ungrouped] at htext
      cases he with
      | binary _ hsign _ _ =>
      cases hother with
      | binary _ hsign' hleft' hright' =>
      obtain ⟨hsame, hend⟩ := eq_of_infixText hsign hsign' hleft hright hleft' hright' hends hends'
        htext false
      rw [shown, shown, shownAs_binary, shownAs_binary]
      exact ⟨hsame, hend⟩

theorem legibleOperand_and_legible (hstyle : style.sourceParensOnly = false) {e : Expr}
    (h : e.MadeOf Lexeme.Proper) :
  e.LegibleOperand style ∧ e.Legible style
  := by
  induction h with
  | @atom kind sort text hkind h =>
    have hmade : (atom sort text).MadeOf Lexeme.Proper := .atom hkind h
    have hself := legibleOperand_of_parts hstyle hmade nofun nofun
    exact ⟨hself, legible_of_operands hmade hself nofun⟩
  | @binary kind operator left right grouped hkind h hleft hright ihleft ihright =>
    have hmade : (binary operator left right grouped).MadeOf Lexeme.Proper :=
      .binary hkind h hleft hright
    have hoperands : ∀ {operator' : String} {left' right' : Expr} {grouped' : Bool},
        binary operator left right grouped = .binary operator' left' right' grouped' →
        left'.LegibleOperand style ∧ right'.LegibleOperand style := by
      rintro _ _ _ _ ⟨⟩
      exact ⟨ihleft.1, ihright.1⟩
    have hself := legibleOperand_of_parts hstyle hmade hoperands nofun
    exact ⟨hself, legible_of_operands hmade hself hoperands⟩
  | @call callee arguments h harguments ih =>
    have hmade : (call callee arguments).MadeOf Lexeme.Proper := .call h harguments
    have hparts : ∀ {callee' : String} {arguments' : List Expr},
        call callee arguments = .call callee' arguments' →
        ∀ argument ∈ arguments', argument.Legible style := by
      rintro _ _ ⟨⟩ argument hmem
      exact (ih argument hmem).2
    have hself := legibleOperand_of_parts hstyle hmade nofun hparts
    exact ⟨hself, legible_of_operands hmade hself nofun⟩

/-- What an expression shows is known from a text that starts with its text, and so is what comes
after it. -/
theorem legible (hstyle : style.sourceParensOnly = false) {e : Expr}
    (h : e.MadeOf Lexeme.Proper) :
  e.Legible style
  := (legibleOperand_and_legible hstyle h).2

end Expr

end Mientras
