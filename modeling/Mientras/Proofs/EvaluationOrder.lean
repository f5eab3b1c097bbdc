import Mathlib.Tactic.Common
import Mientras.Proofs.Lexes
import Mientras.Proofs.PythonGrammar
import Mientras.Proofs.Vocabulary

/-!
# The order of evaluation

The operators of a source all bind alike and are taken from left to right, while those of Python
bind by their levels.  `e.toTree` is the expression `e` as a tree of Python, with its operators as
they were in the source.  When every operand that is an operator itself stands in parentheses, the
text of an expression has one derivation in the grammar of Python, and that derivation stands for
`e.toTree` (`toPython_derives_uniquely`).
-/

namespace Mientras

open Text Python

namespace Expr

/-- The name that a function has in Python. -/
def renamedCallee (callee : String) : String :=
  if callee = "imprimir" then "print" else callee

theorem builtinName_eq (callee : String) :
  builtinName callee = renamedCallee callee
  := by
  rw [builtinName.eq_def, renamedCallee]
  split <;> simp_all

mutual

/-- The expression as a tree of Python: the truth values are the names `True` and `False`, and
`imprimir` is called `print`. -/
def toTree : Expr → Tree
  | .atom .boolean text =>
    if text = "verdadero" then .atom .identifier "True"
    else if text = "falso" then .atom .identifier "False"
    else .atom .boolean text
  | .atom .name text => .atom .identifier text
  | .atom .integer text => .atom .integer text
  | .atom .float text => .atom .float text
  | .atom .text text => .atom .text text
  | .binary operator left right _ => .binary operator left.toTree right.toTree
  | .call callee arguments =>
    .call (.atom .identifier (renamedCallee callee)) (argumentsToTree arguments)

/-- The arguments of a call as trees of Python. -/
def argumentsToTree : List Expr → List Tree
  | [] => []
  | argument :: others => argument.toTree :: argumentsToTree others

end

theorem argumentsToTree_eq_map (arguments : List Expr) :
  argumentsToTree arguments = arguments.map toTree
  := by
  induction arguments with
  | nil => rw [argumentsToTree, List.map_nil]
  | cons argument others ih => rw [argumentsToTree, List.map_cons, ih]

end Expr

/-- No comparison of the tree is chained. -/
inductive Python.Tree.Unchained : Tree → Prop where
  | atom {kind : Kind} {text : String} : Unchained (.atom kind text)
  | binary {operator : String} {left right : Tree} (hleft : Unchained left)
      (hright : Unchained right) :
      Unchained (.binary operator left right)
  | call {callee : Tree} {arguments : List Tree} (hcallee : Unchained callee)
      (harguments : ∀ tree ∈ arguments, Unchained tree) :
      Unchained (.call callee arguments)

/-! ### Expressions of a program -/

/-- The first expression is a part of the second, or is the second. -/
inductive Expr.IsPart (e : Expr) : Expr → Prop where
  | self : IsPart e e
  | left {operator : String} {left right : Expr} {grouped : Bool} (h : IsPart e left) :
      IsPart e (.binary operator left right grouped)
  | right {operator : String} {left right : Expr} {grouped : Bool} (h : IsPart e right) :
      IsPart e (.binary operator left right grouped)
  | argument {callee : String} {arguments : List Expr} {argument : Expr}
      (hargument : argument ∈ arguments) (h : IsPart e argument) :
      IsPart e (.call callee arguments)

/-- The expression occurs in the statement. -/
inductive Expr.IsIn (e : Expr) : Stmt → Prop where
  | declaration {type name : String} {value : Expr} (h : e.IsPart value) :
      IsIn e (.declaration type name value)
  | assignment {name : String} {value : Expr} (h : e.IsPart value) :
      IsIn e (.assignment name value)
  | call {callee : String} {arguments : List Expr} (h : e.IsPart (.call callee arguments)) :
      IsIn e (.call callee arguments)
  | condition {condition : Expr} {body : List Stmt} (h : e.IsPart condition) :
      IsIn e (.conditional condition body)
  | conditional {condition : Expr} {body : List Stmt} {stmt : Stmt} (hstmt : stmt ∈ body)
      (h : IsIn e stmt) :
      IsIn e (.conditional condition body)
  | alternative {body : List Stmt} {stmt : Stmt} (hstmt : stmt ∈ body) (h : IsIn e stmt) :
      IsIn e (.alternative body)
  | loopCondition {condition : Expr} {body : List Stmt} (h : e.IsPart condition) :
      IsIn e (.loop condition body)
  | loop {condition : Expr} {body : List Stmt} {stmt : Stmt} (hstmt : stmt ∈ body)
      (h : IsIn e stmt) :
      IsIn e (.loop condition body)
  | function {name : String} {parameters : List Parameter} {body : List Stmt} {stmt : Stmt}
      (hstmt : stmt ∈ body) (h : IsIn e stmt) :
      IsIn e (.function name parameters body)
  | result {value : Expr} (h : e.IsPart value) : IsIn e (.result value)

/-- The expression occurs in the program. -/
def Expr.OccursIn (e : Expr) (program : Program) : Prop :=
  ∃ stmt ∈ program.body, e.IsIn stmt

theorem Expr.IsPart.madeOf {p : Lexeme → Prop} {e whole : Expr} (h : e.IsPart whole)
    (hwhole : whole.MadeOf p) :
  e.MadeOf p
  := by
  induction h with
  | self => exact hwhole
  | left h ih =>
    cases hwhole with
    | binary _ _ hleft _ => apply ih hleft
  | right h ih =>
    cases hwhole with
    | binary _ _ _ hright => apply ih hright
  | argument hargument h ih =>
    cases hwhole with
    | call _ harguments => apply ih (harguments _ hargument)

theorem Expr.IsIn.madeOf {p : Lexeme → Prop} {e : Expr} {stmt : Stmt} (h : e.IsIn stmt)
    (hstmt : stmt.MadeOf p) :
  e.MadeOf p
  := by
  induction h with
  | declaration h =>
    cases hstmt with
    | declaration _ _ hvalue => apply h.madeOf hvalue
  | assignment h =>
    cases hstmt with
    | assignment _ hvalue => apply h.madeOf hvalue
  | call h =>
    cases hstmt with
    | call hcall => apply h.madeOf hcall
  | condition h =>
    cases hstmt with
    | conditional hcondition _ => apply h.madeOf hcondition
  | conditional hmem h ih =>
    cases hstmt with
    | conditional _ hbody => apply ih (hbody _ hmem)
  | alternative hmem h ih =>
    cases hstmt with
    | alternative hbody => apply ih (hbody _ hmem)
  | loopCondition h =>
    cases hstmt with
    | loop hcondition _ => apply h.madeOf hcondition
  | loop hmem h ih =>
    cases hstmt with
    | loop _ hbody => apply ih (hbody _ hmem)
  | function hmem h ih =>
    cases hstmt with
    | function _ _ hbody => apply ih (hbody _ hmem)
  | result h =>
    cases hstmt with
    | result hvalue => apply h.madeOf hvalue

/-! ### Texts with a derivation -/

/-- The text is read as lexemes that have a derivation with the given value. -/
def Reads (s : Symbol) (text : List Char) (value : s.Value) : Prop :=
  ∃ lexemes, ∃ d : Derivation s, Lexes text lexemes
    ∧ d.yield = lexemes.filter (!·.kind.isTrivia) ∧ d.tree = value

/-- The text is read as an expression with operators of the first `n` levels. -/
def ReadsLevel (n : Nat) (text : List Char) (tree : Tree) : Prop :=
  Reads (.level n) text tree ∧ StartsPlain text

/-- An expression with operators of some levels is one with operators of more levels. -/
theorem ReadsLevel.mono {m n : Nat} {text : List Char} {tree : Tree} (h : ReadsLevel m text tree)
    (hmn : m ≤ n) :
  ReadsLevel n text tree
  := by
  induction hmn with
  | refl => exact h
  | @step n _ ih =>
    obtain ⟨⟨lexemes, d, hlexes, hyield, htree⟩, hplain⟩ := ih
    refine ⟨⟨lexemes, d.chain .noOperation, hlexes, ?_, ?_⟩, hplain⟩
    · rw [Derivation.yield, Derivation.yield, List.append_nil, hyield]
    · rw [Derivation.tree, Derivation.tree, htree, Tree.ofOperations_nil]

theorem reads_atom {lexeme : Lexeme} (h : lexeme.Proper) (hkind : lexeme.kind ∈ atoms) :
  ReadsLevel 0 lexeme.text (.atom lexeme.kind lexeme.value)
  := by
  refine ⟨⟨[lexeme], .atom lexeme hkind .noCall, h.lexes, ?_, rfl⟩, h.startsPlain⟩
  rw [List.filter_singleton, h.not_trivia]
  rfl

theorem reads_group {text : List Char} {tree : Tree} (h : ReadsLevel 3 text tree) :
  ReadsLevel 0 ('(' :: (text ++ [')'])) tree
  := by
  obtain ⟨⟨lexemes, d, hlexes, hyield, htree⟩, _⟩ := h
  constructor
  · use ⟨.openParen, "("⟩ :: (lexemes ++ [⟨.closeParen, ")"⟩]),
      .group ⟨.openParen, "("⟩ rfl d ⟨.closeParen, ")"⟩ rfl .noCall, hlexes.closeParen.openParen
    constructor
    · rw [Derivation.yield, Derivation.yield, hyield, List.filter_cons_of_pos rfl,
        List.filter_append]
      rfl
    · rw [Derivation.tree, Derivation.tree, htree]
      rfl
  · use '(', rfl
    decide

/-- Every operator is of one of the levels. -/
theorem exists_level_of_isOperator {kind : Kind} (h : kind.isOperator = true) :
  ∃ n < 3, kind ∈ operators n
  := by
  have hlevels : ∀ kind ∈ Kind.all, kind.isOperator = true →
      ∃ n ∈ [0, 1, 2], kind ∈ operators n := by decide
  obtain ⟨n, hn, hkind⟩ := hlevels kind kind.mem_all h
  use n
  simp at hn
  exact ⟨by omega, hkind⟩

/-- An operator between two operands is an expression. -/
theorem reads_binary {sign : Lexeme} (h : sign.Proper) (hkind : sign.kind.isOperator = true)
    {first second : List Char} {left right : Tree} (hleft : ReadsLevel 0 first left)
    (hright : ReadsLevel 0 second right) :
  ReadsLevel 3 (first ++ ' ' :: (sign.text ++ ' ' :: second)) (.binary sign.value left right)
  := by
  obtain ⟨n, hn, hlevel⟩ := exists_level_of_isOperator hkind
  obtain ⟨⟨lexemes, d, hlexes, hyield, htree⟩, hplain⟩ := hleft.mono (Nat.zero_le n)
  obtain ⟨⟨lexemes', d', hlexes', hyield', htree'⟩, hplain'⟩ := hright.mono (Nat.zero_le n)
  have hspace : delimits ' ' = true := by decide
  have hsign : Lexes (sign.text ++ ' ' :: second) ([sign] ++ ⟨.blank, " "⟩ :: lexemes') :=
    h.lexes.append (hlexes'.space hplain') (delimited_cons hspace _)
  apply ReadsLevel.mono _ (show n + 1 ≤ 3 from hn)
  constructor
  · use lexemes ++ ⟨.blank, " "⟩ :: ([sign] ++ ⟨.blank, " "⟩ :: lexemes'),
      d.chain (.operation sign hlevel d' .noOperation),
      hlexes.append (hsign.space (h.startsPlain.append _)) (delimited_cons hspace _)
    have hblank : Kind.blank.isTrivia = true := rfl
    constructor
    · simp [Derivation.yield, hyield, hyield', h.not_trivia, hblank]
    · rw [Derivation.tree, Derivation.tree, Derivation.tree, htree, htree',
        Tree.ofOperations_singleton]
  · apply hplain.append

section

variable {style : Style} {arguments : List Expr}

/-- Expressions with a comma and a space before each are what follows an argument. -/
theorem reads_others
    (h : ∀ e ∈ arguments, ReadsLevel 3 (e.toPython style).toList e.toTree) :
  Reads .others (arguments.flatMap fun e => ',' :: ' ' :: (e.toPython style).toList)
      (arguments.map Expr.toTree)
    ∧ Delimited (arguments.flatMap fun e => ',' :: ' ' :: (e.toPython style).toList)
  := by
  induction arguments with
  | nil =>
    constructor
    · exact ⟨[], .noOther, lexes_nil, rfl, rfl⟩
    · simp [Delimited]
  | cons e others ih =>
    rw [List.forall_mem_cons] at h
    obtain ⟨⟨⟨lexemes, d, hlexes, hyield, htree⟩, hplain⟩, hothers⟩ := h
    obtain ⟨⟨lexemes', d', hlexes', hyield', htree'⟩, hdelimited⟩ := ih hothers
    constructor
    · use ⟨.comma, ","⟩ :: ⟨.blank, " "⟩ :: lexemes ++ lexemes', .other ⟨.comma, ","⟩ rfl d d',
        (hlexes.comma hplain).append hlexes' hdelimited
      constructor
      · simp [Derivation.yield, hyield, hyield', Kind.isTrivia]
      · rw [Derivation.tree, htree, htree']
        rfl
    · apply delimited_cons
      decide

/-- Expressions with commas between them are arguments. -/
theorem reads_arguments
    (h : ∀ e ∈ arguments, ReadsLevel 3 (e.toPython style).toList e.toTree) :
  Reads .arguments (commaSeparated (arguments.map (Expr.toPython style))).toList
    (arguments.map Expr.toTree)
  := by
  cases arguments with
  | nil => exact ⟨[], .noArgument, lexes_nil, rfl, rfl⟩
  | cons e others =>
    rw [List.forall_mem_cons] at h
    obtain ⟨⟨⟨lexemes, d, hlexes, hyield, htree⟩, _⟩, hothers⟩ := h
    obtain ⟨⟨lexemes', d', hlexes', hyield', htree'⟩, hdelimited⟩ := reads_others hothers
    rw [List.map_cons, toList_commaSeparated, List.flatMap_map]
    use lexemes ++ lexemes', .someArgument d d', hlexes.append hlexes' hdelimited
    constructor
    · rw [Derivation.yield, hyield, hyield', List.filter_append]
    · rw [Derivation.tree, htree, htree']
      rfl

end

/-- A name before arguments in parentheses is a call. -/
theorem reads_call {name : String} (h : Lexeme.Proper ⟨.identifier, name⟩) {text : List Char}
    {trees : List Tree} (harguments : Reads .arguments text trees) :
  ReadsLevel 0 (name.toList ++ '(' :: (text ++ [')'])) (.call (.atom .identifier name) trees)
  := by
  obtain ⟨lexemes, d, hlexes, hyield, htree⟩ := harguments
  have hatom : Kind.identifier ∈ atoms := by decide
  constructor
  · use [⟨.identifier, name⟩] ++ ⟨.openParen, "("⟩ :: (lexemes ++ [⟨.closeParen, ")"⟩]),
      .atom ⟨.identifier, name⟩ hatom
        (.call ⟨.openParen, "("⟩ rfl d ⟨.closeParen, ")"⟩ rfl .noCall),
      h.lexes.append hlexes.closeParen.openParen (delimited_cons (by decide) _)
    constructor
    · simp [Derivation.yield, hyield, Kind.isTrivia]
    · rw [Derivation.tree, Derivation.tree, Derivation.tree, htree]
      rfl
  · apply h.startsPlain.append

/-! ### The text of an expression -/

/-- The Python name of a function is a name. -/
theorem proper_builtinName {callee : String} (h : Lexeme.Proper ⟨.identifier, callee⟩) :
  Lexeme.Proper ⟨.identifier, builtinName callee⟩
  := by
  rw [builtinName.eq_def]
  split
  · apply proper_name 'p' ['r', 'i', 'n', 't'] rfl <;> decide
  · exact h

theorem Written.of_boolean {text : List Char} (h : Written .boolean text) :
  text = "verdadero".toList ∨ text = "falso".toList
  := by
  have hwords : ∀ word ∈ Kind.words, word.2 = .boolean →
      word.1 = "verdadero" ∨ word.1 = "falso" := by decide
  have hsigns : ∀ sign ∈ Kind.signs, sign.2 ≠ .boolean := by decide
  generalize hkind : Kind.boolean = kind at h
  cases h with
  | word h =>
    rcases hwords _ h hkind.symm with hword | hword
    · rw [hword]
      exact .inl rfl
    · rw [hword]
      exact .inr rfl
  | sign h => exact absurd hkind.symm (hsigns _ h)
  | _ => simp at hkind

/-- The Python form of a truth value is a name. -/
theorem proper_truthValue {text : String} (h : Lexeme.Proper ⟨.boolean, text⟩) :
  Lexeme.Proper ⟨.identifier, truthValue text⟩
  := by
  rcases h.written.of_boolean with htext | htext
  · obtain rfl := String.toList_injective htext
    apply proper_name 'T' ['r', 'u', 'e'] rfl <;> decide
  · obtain rfl := String.toList_injective htext
    apply proper_name 'F' ['a', 'l', 's', 'e'] rfl <;> decide

/-- The text of an atom is a name or a literal. -/
theorem exists_proper_of_atom {style : Style} {kind : Kind} {sort : Atom} {text : String}
    (hkind : kind.atom? = some sort) (h : Lexeme.Proper ⟨kind, text⟩) (nested : Bool) :
  ∃ lexeme : Lexeme, lexeme.Proper ∧ lexeme.kind ∈ atoms
    ∧ (Expr.atom sort text).operandToPython style nested = lexeme.value
    ∧ (Expr.atom sort text).toTree = .atom lexeme.kind lexeme.value
  := by
  cases kind with
  | identifier =>
    obtain rfl := Option.some.inj hkind
    exact ⟨_, h, by simp [atoms], rfl, rfl⟩
  | integer =>
    obtain rfl := Option.some.inj hkind
    exact ⟨_, h, by simp [atoms], rfl, rfl⟩
  | float =>
    obtain rfl := Option.some.inj hkind
    exact ⟨_, h, by simp [atoms], rfl, rfl⟩
  | text =>
    obtain rfl := Option.some.inj hkind
    exact ⟨_, h, by simp [atoms], rfl, rfl⟩
  | boolean =>
    obtain rfl := Option.some.inj hkind
    refine ⟨_, proper_truthValue h, by simp [atoms], rfl, ?_⟩
    rcases h.written.of_boolean with htext | htext
    · obtain rfl := String.toList_injective htext
      rfl
    · obtain rfl := String.toList_injective htext
      rfl
  | _ => simp [Kind.atom?] at hkind

/-- The text of an operator between two operands. -/
theorem toList_operandToPython_binary (style : Style) (operator : String) (left right : Expr)
    (grouped nested : Bool) :
  ((Expr.binary operator left right grouped).operandToPython style nested).toList
    = let inside := (left.operandToPython style true).toList
        ++ ' ' :: (operator.toList ++ ' ' :: (right.operandToPython style true).toList)
      if grouped || (nested && !style.sourceParensOnly) then '(' :: (inside ++ [')']) else inside
  := by
  rw [Expr.operandToPython]
  cases grouped || (nested && !style.sourceParensOnly) <;> simp

theorem toList_operandToPython_call (style : Style) (callee : String) (arguments : List Expr)
    (nested : Bool) :
  ((Expr.call callee arguments).operandToPython style nested).toList
    = (builtinName callee).toList
      ++ '(' :: ((commaSeparated (arguments.map (Expr.toPython style))).toList ++ [')'])
  := by
  rw [Expr.operandToPython, Expr.argumentsToPython_eq_map]
  simp

/-- An expression is read as its tree, and as an operand it needs no operator outside
parentheses. -/
theorem reads_toPython {style : Style} (hstyle : style.sourceParensOnly = false) {e : Expr}
    (h : e.MadeOf Lexeme.Proper) :
  ReadsLevel 0 (e.operandToPython style true).toList e.toTree
    ∧ ReadsLevel 3 (e.toPython style).toList e.toTree
  := by
  induction h with
  | @atom kind sort text hkind h =>
    have hatom : ∀ nested,
        ReadsLevel 0 ((Expr.atom sort text).operandToPython style nested).toList
          (Expr.atom sort text).toTree := by
      intro nested
      obtain ⟨lexeme, hproper, hlexeme, htext, htree⟩ := exists_proper_of_atom hkind h nested
      rw [htext, htree]
      apply reads_atom hproper hlexeme
    exact ⟨hatom true, (hatom false).mono (by omega)⟩
  | @binary kind operator left right grouped hkind h _ _ ihleft ihright =>
    have hinside := reads_binary h hkind ihleft.1 ihright.1
    rw [Expr.toTree, Expr.toPython, toList_operandToPython_binary, toList_operandToPython_binary,
      hstyle, Bool.not_false, Bool.and_true, Bool.and_true, Bool.or_true, Bool.or_false]
    constructor
    · apply reads_group hinside
    · cases grouped with
      | false => exact hinside
      | true => apply (reads_group hinside).mono (by omega)
  | @call callee arguments h _ ih =>
    have harguments := reads_arguments fun e he => (ih e he).2
    have hcall := reads_call (proper_builtinName h) harguments
    rw [Expr.toTree, Expr.toPython, toList_operandToPython_call, toList_operandToPython_call,
      Expr.argumentsToTree_eq_map, ← Expr.builtinName_eq]
    exact ⟨hcall, hcall.mono (by omega)⟩

/-- The tree of an expression has no chained comparison. -/
theorem unchained_toTree {p : Lexeme → Prop} {e : Expr} (h : e.MadeOf p) :
  e.toTree.Unchained
  := by
  induction h with
  | @atom kind sort text _ _ =>
    cases sort with
    | boolean =>
      rw [Expr.toTree]
      split
      · apply Tree.Unchained.atom
      · split <;> apply Tree.Unchained.atom
    | _ => apply Tree.Unchained.atom
  | binary _ _ _ _ ihleft ihright =>
    rw [Expr.toTree]
    apply Tree.Unchained.binary ihleft ihright
  | call _ _ ih =>
    rw [Expr.toTree, Expr.argumentsToTree_eq_map]
    apply Tree.Unchained.call .atom
    rw [List.forall_mem_map]
    exact ih

/-- The derivation is one of the text, which is read as its lexemes. -/
def Python.Derivation.Derives {s : Symbol} (d : Derivation s) (text : String) : Prop :=
  ∃ tokens, tokenize text = .ok tokens
    ∧ d.yield = (tokens.takeWhile (!·.isEnd)).map Token.lexeme

/-- The text of an expression of a program has one derivation in the grammar of Python.  It stands
for the tree of the expression, in which no comparison is chained. -/
theorem toPython_derives_uniquely {source : String} {program : Program}
    (hprogram : Program.ofSource source = .ok program) {e : Expr} (he : e.OccursIn program)
    {style : Style} (hstyle : style.sourceParensOnly = false) :
  ∃ d : Derivation .expression, d.Derives (e.toPython style)
    ∧ (∀ other : Derivation .expression, other.Derives (e.toPython style) → other = d)
    ∧ d.tree = e.toTree ∧ e.toTree.Unchained
  := by
  obtain ⟨stmt, hstmt, he⟩ := he
  have hmade := he.madeOf (madeOf_of_ofSource hprogram stmt hstmt)
  obtain ⟨⟨lexemes, d, hlexes, hyield, htree⟩, _⟩ := (reads_toPython hstyle hmade).2
  have hscans := hlexes (show Delimited [] by simp [Delimited]) Scans.nil
  rw [List.append_nil, List.append_nil] at hscans
  obtain ⟨tokens, htokens, hlexemes⟩ := tokenize_of_scans hscans
  rw [← hlexemes] at hyield
  refine ⟨d, ⟨tokens, htokens, hyield⟩, ?_, htree, unchained_toTree hmade⟩
  rintro other ⟨tokens', htokens', hyield'⟩
  obtain rfl := Except.ok.inj (htokens.symm.trans htokens')
  apply Derivation.eq_of_yield_eq
  rw [hyield, hyield']

/-- A product of a sum, which needs no parentheses in a source, has one derivation with them. -/
theorem derives_product_of_sum :
  ∃ program, ∃ e : Expr, Program.ofSource "f(a+b*c)" = .ok program ∧ e.OccursIn program
    ∧ e.toPython {} = "(a + b) * c"
    ∧ ∃ d : Derivation .expression, d.Derives (e.toPython {})
      ∧ (∀ other : Derivation .expression, other.Derives (e.toPython {}) → other = d)
      ∧ d.tree = e.toTree ∧ e.toTree.Unchained
  := by
  have htokens : tokenize "f(a+b*c)" = .ok (placed .start
      [⟨.identifier, "f"⟩, ⟨.openParen, "("⟩, ⟨.identifier, "a"⟩, ⟨.plus, "+"⟩, ⟨.identifier, "b"⟩,
       ⟨.star, "*"⟩, ⟨.identifier, "c"⟩, ⟨.closeParen, ")"⟩]) := by rfl
  have hprogram : Program.ofSource "f(a+b*c)" = .ok ⟨[.call "f" [.binary "*"
      (.binary "+" (.atom .name "a") (.atom .name "b") false) (.atom .name "c") false]]⟩ := by
    rw [Program.ofSource, htokens]
    rfl
  have hoccurs : (Expr.binary "*" (.binary "+" (.atom .name "a") (.atom .name "b") false)
      (.atom .name "c") false).OccursIn ⟨[.call "f" [.binary "*"
        (.binary "+" (.atom .name "a") (.atom .name "b") false) (.atom .name "c") false]]⟩ :=
    ⟨_, List.mem_singleton_self _, .call (.argument (List.mem_singleton_self _) .self)⟩
  exact ⟨_, _, hprogram, hoccurs, by decide +kernel,
    toPython_derives_uniquely hprogram hoccurs rfl⟩

end Mientras
