import Mathlib.Tactic.Common
import Mientras.Proofs.Complete
import Mientras.Proofs.EvaluationOrder
import Mientras.Proofs.Layout

/-!
# The programs that tokens spell

Not every tree of a program is read from tokens.  A program is `WellFormed` when its alternatives
follow conditionals, its results stand in functions, its right operands are factors, and no more
blocks, groups and argument lists stand within one another than may be open together.  The
well-formed programs are exactly those that are read from some tokens
(`exists_ofTokens_iff_wellFormed`).  One direction goes over the derivations of the grammar.  For
the other, every tree has a spelling (`toTokens`), and the spelling of a well-formed program is read
as the program.
-/

namespace Mientras

/-! ### Well-formed trees -/

/-- Within one more that is open, all of the parts have as much nesting as is left. -/
theorem add_one_add_le_iff {α : Type} {parts : List α} {nesting : α → Nat}
    {most depth limit : Nat} (h : ∀ {n : Nat}, most ≤ n ↔ ∀ part ∈ parts, nesting part ≤ n) :
  depth + (1 + most) ≤ limit
    ↔ depth < limit ∧ ∀ part ∈ parts, depth + 1 + nesting part ≤ limit
  := by
  constructor
  · intro hle
    use by omega
    intro part hpart
    have := h.mp (Nat.le_refl most) part hpart
    omega
  · rintro ⟨hdepth, hparts⟩
    have : most ≤ limit - (depth + 1) := by
      apply h.mpr
      intro part hpart
      have := hparts part hpart
      omega
    omega

namespace Expr

/-- The expression is a factor.  An operator between two operands is one only in parentheses. -/
def isFactor : Expr → Bool
  | .binary _ _ _ grouped => grouped
  | _ => true

mutual

/-- The greatest number of groups and argument lists that stand within one another in the
expression. -/
def nesting : Expr → Nat
  | .atom _ _ => 0
  | .binary _ left right grouped => grouped.toNat + max left.nesting right.nesting
  | .call _ arguments => 1 + nestingOf arguments

/-- The greatest number of groups and argument lists that stand within one another in one of the
expressions. -/
def nestingOf : List Expr → Nat
  | [] => 0
  | e :: others => max e.nesting (nestingOf others)

end

theorem nestingOf_le_iff {list : List Expr} {n : Nat} :
  nestingOf list ≤ n ↔ ∀ e ∈ list, e.nesting ≤ n
  := by
  induction list with
  | nil => simp [nestingOf]
  | cons e others ih => rw [nestingOf, Nat.max_le, ih, List.forall_mem_cons]

end Expr

namespace Stmt

mutual

/-- Every result in the statement stands in the body of a function, where `inFunction` says whether
the statement does. -/
def resultsInFunctions (inFunction : Bool) : Stmt → Bool
  | .result _ => inFunction
  | .conditional _ body | .alternative body | .loop _ body =>
    allResultsInFunctions inFunction body
  | .function _ _ body => allResultsInFunctions true body
  | _ => true

/-- Every result in the statements stands in the body of a function. -/
def allResultsInFunctions (inFunction : Bool) : List Stmt → Bool
  | [] => true
  | stmt :: others =>
    stmt.resultsInFunctions inFunction && allResultsInFunctions inFunction others

end

mutual

/-- The greatest number of blocks, groups and argument lists that stand within one another in the
statement. -/
def nesting : Stmt → Nat
  | .declaration _ _ value | .assignment _ value | .result value => value.nesting
  | .call _ arguments => 1 + Expr.nestingOf arguments
  | .conditional condition body | .loop condition body =>
    max condition.nesting (1 + nestingOf body)
  | .alternative body | .function _ _ body => 1 + nestingOf body

/-- The greatest number of blocks, groups and argument lists that stand within one another in one of
the statements. -/
def nestingOf : List Stmt → Nat
  | [] => 0
  | stmt :: others => max stmt.nesting (nestingOf others)

end

theorem allResultsInFunctions_iff {inFunction : Bool} {stmts : List Stmt} :
  allResultsInFunctions inFunction stmts = true
    ↔ ∀ stmt ∈ stmts, stmt.resultsInFunctions inFunction = true
  := by
  induction stmts with
  | nil => simp [allResultsInFunctions]
  | cons stmt others ih =>
    rw [allResultsInFunctions, Bool.and_eq_true, ih, List.forall_mem_cons]

theorem nestingOf_le_iff {stmts : List Stmt} {n : Nat} :
  nestingOf stmts ≤ n ↔ ∀ stmt ∈ stmts, stmt.nesting ≤ n
  := by
  induction stmts with
  | nil => simp [nestingOf]
  | cons stmt others ih => rw [nestingOf, Nat.max_le, ih, List.forall_mem_cons]

end Stmt

/-- The tree is one that tokens may spell. -/
structure Program.WellFormed (program : Program) : Prop where
  /-- Every alternative comes directly after a conditional. -/
  paired : Stmt.Paired program.body
  results : Stmt.allResultsInFunctions false program.body = true
  /-- An operator that is the right operand of another stands in parentheses. -/
  grouped : ∀ {operator : String} {left right : Expr} {grouped : Bool},
    (Expr.binary operator left right grouped).OccursIn program → right.isFactor = true
  nesting_le : Stmt.nestingOf program.body ≤ maxDepth

/-! ### Trees with something open around them -/

/-- The expression may stand where `depth` blocks, groups and argument lists are open. -/
structure Expr.Fits (depth : Nat) (e : Expr) : Prop where
  grouped : ∀ {operator : String} {left right : Expr} {grouped : Bool},
    (Expr.binary operator left right grouped).IsPart e → right.isFactor = true
  nesting_le : depth + e.nesting ≤ maxDepth

namespace Expr

variable {depth : Nat}

theorem fits_atom_iff {sort : Atom} {text : String} :
  (atom sort text).Fits depth ↔ depth ≤ maxDepth
  := by
  constructor
  · intro h
    have := h.nesting_le
    rwa [nesting] at this
  · intro h
    constructor
    · intro _ _ _ _ hpart
      contradiction
    · rwa [nesting]

theorem fits_binary_iff {operator : String} {left right : Expr} {grouped : Bool} :
  (binary operator left right grouped).Fits depth
    ↔ right.isFactor = true ∧ left.Fits (depth + grouped.toNat)
      ∧ right.Fits (depth + grouped.toNat)
  := by
  constructor
  · rintro ⟨hgrouped, hnesting⟩
    rw [nesting] at hnesting
    refine ⟨hgrouped .self, ⟨fun hpart => hgrouped hpart.left, ?_⟩,
      ⟨fun hpart => hgrouped hpart.right, ?_⟩⟩ <;> omega
  · rintro ⟨hright, hl, hr⟩
    constructor
    · intro _ _ _ _ hpart
      cases hpart with
      | self => exact hright
      | left hpart => apply hl.grouped hpart
      | right hpart => apply hr.grouped hpart
    · have := hl.nesting_le
      have := hr.nesting_le
      rw [nesting]
      omega

theorem fits_call_iff {callee : String} {arguments : List Expr} :
  (call callee arguments).Fits depth
    ↔ depth < maxDepth ∧ ∀ e ∈ arguments, e.Fits (depth + 1)
  := by
  constructor
  · rintro ⟨hgrouped, hnesting⟩
    rw [nesting] at hnesting
    obtain ⟨hdepth, hnesting⟩ := (add_one_add_le_iff nestingOf_le_iff).mp hnesting
    exact ⟨hdepth, fun e he => ⟨fun hpart => hgrouped (hpart.argument he), hnesting e he⟩⟩
  · rintro ⟨hdepth, h⟩
    constructor
    · intro _ _ _ _ hpart
      cases hpart with
      | argument he hpart => apply (h _ he).grouped hpart
    · rw [nesting]
      apply (add_one_add_le_iff nestingOf_le_iff).mpr
      exact ⟨hdepth, fun e he => (h e he).nesting_le⟩

theorem Fits.mono {fewer : Nat} {e : Expr} (h : e.Fits depth) (hle : fewer ≤ depth) :
  e.Fits fewer
  where
  grouped := h.grouped
  nesting_le := Nat.le_trans (Nat.add_le_add_right hle _) h.nesting_le

/-- What fits within a group makes a group that fits. -/
theorem Fits.group {e : Expr} (h : e.Fits (depth + 1)) :
  e.group.Fits depth ∧ e.group.isFactor = true
  := by
  cases e with
  | binary operator left right grouped =>
    obtain ⟨hright, hl, hr⟩ := fits_binary_iff.mp h
    have hle := Nat.le_add_right (depth + 1) grouped.toNat
    exact ⟨fits_binary_iff.mpr ⟨hright, hl.mono hle, hr.mono hle⟩, rfl⟩
  | _ => exact ⟨h.mono (Nat.le_add_right depth 1), rfl⟩

end Expr

/-- The statement may stand where `depth` blocks, groups and argument lists are open, where
`inFunction` says whether it stands in the body of a function. -/
structure Stmt.Fits (depth : Nat) (inFunction : Bool) (stmt : Stmt) : Prop where
  results : stmt.resultsInFunctions inFunction = true
  grouped : ∀ {operator : String} {left right : Expr} {grouped : Bool},
    (Expr.binary operator left right grouped).IsIn stmt → right.isFactor = true
  nesting_le : depth + stmt.nesting ≤ maxDepth

namespace Stmt

variable {depth : Nat} {inFunction : Bool}

/-- The statements may stand in a block that is opened where `depth` blocks, groups and argument
lists are open. -/
def FitBlock (depth : Nat) (inFunction : Bool) (body : List Stmt) : Prop :=
  depth < maxDepth ∧ ∀ stmt ∈ body, stmt.Fits (depth + 1) inFunction

theorem fitBlock_iff {body : List Stmt} :
  FitBlock depth inFunction body
    ↔ allResultsInFunctions inFunction body = true
      ∧ (∀ {operator : String} {left right : Expr} {grouped : Bool} {stmt : Stmt}, stmt ∈ body →
          (Expr.binary operator left right grouped).IsIn stmt → right.isFactor = true)
      ∧ depth + (1 + nestingOf body) ≤ maxDepth
  := by
  rw [add_one_add_le_iff nestingOf_le_iff, allResultsInFunctions_iff]
  constructor
  · rintro ⟨hdepth, h⟩
    exact ⟨fun stmt hstmt => (h stmt hstmt).results, fun hstmt => (h _ hstmt).grouped, hdepth,
      fun stmt hstmt => (h stmt hstmt).nesting_le⟩
  · rintro ⟨hresults, hgrouped, hdepth, hnesting⟩
    exact ⟨hdepth, fun stmt hstmt => ⟨hresults stmt hstmt, hgrouped hstmt, hnesting stmt hstmt⟩⟩

/-- The expression that the statement holds outside of its body. -/
def expr? : Stmt → Option Expr
  | .declaration _ _ value | .assignment _ value | .result value => some value
  | .call callee arguments => some (.call callee arguments)
  | .conditional condition _ | .loop condition _ => some condition
  | .alternative _ | .function _ _ _ => none

/-- The statement is no result, or may be one. -/
def mayStand (inFunction : Bool) : Stmt → Bool
  | .result _ => inFunction
  | _ => true

/-- The body of the statement is that of a function, or stands in one. -/
def bodyInFunction (inFunction : Bool) : Stmt → Bool
  | .function _ _ _ => true
  | _ => inFunction

theorem isIn_iff {e : Expr} {stmt : Stmt} :
  e.IsIn stmt ↔ (∃ part ∈ stmt.expr?, e.IsPart part) ∨ ∃ inner ∈ stmt.body, e.IsIn inner
  := by
  constructor
  · intro h
    cases h with
    | declaration h | assignment h | call h | condition h | loopCondition h | result h =>
      exact .inl ⟨_, rfl, h⟩
    | conditional hstmt h | alternative hstmt h | loop hstmt h | function hstmt h =>
      exact .inr ⟨_, hstmt, h⟩
  · rintro (⟨part, hpart, h⟩ | ⟨inner, hinner, h⟩)
    · cases stmt <;> cases hpart
      · apply Expr.IsIn.declaration h
      · apply Expr.IsIn.assignment h
      · apply Expr.IsIn.call h
      · apply Expr.IsIn.condition h
      · apply Expr.IsIn.loopCondition h
      · apply Expr.IsIn.result h
    · cases stmt with
      | conditional => apply Expr.IsIn.conditional hinner h
      | alternative => apply Expr.IsIn.alternative hinner h
      | loop => apply Expr.IsIn.loop hinner h
      | function => apply Expr.IsIn.function hinner h
      | _ => contradiction

theorem resultsInFunctions_iff {stmt : Stmt} :
  stmt.resultsInFunctions inFunction = true
    ↔ stmt.mayStand inFunction = true
      ∧ allResultsInFunctions (stmt.bodyInFunction inFunction) stmt.body = true
  := by
  cases stmt <;> simp [resultsInFunctions, mayStand, bodyInFunction, body, allResultsInFunctions]

theorem nesting_le_iff {stmt : Stmt} {limit : Nat} :
  depth + stmt.nesting ≤ limit
    ↔ (∀ part ∈ stmt.expr?, depth + part.nesting ≤ limit)
      ∧ (stmt.hasBody = true → depth + (1 + nestingOf stmt.body) ≤ limit)
  := by
  cases stmt <;> simp [nesting, expr?, hasBody, body, Expr.nesting] <;> omega

/-- A statement fits when its expression and its block do. -/
theorem fits_iff {stmt : Stmt} :
  stmt.Fits depth inFunction
    ↔ stmt.mayStand inFunction = true ∧ (∀ part ∈ stmt.expr?, part.Fits depth)
      ∧ (stmt.hasBody = true → FitBlock depth (stmt.bodyInFunction inFunction) stmt.body)
  := by
  constructor
  · rintro ⟨hresults, hgrouped, hnesting⟩
    obtain ⟨hstand, hbody⟩ := resultsInFunctions_iff.mp hresults
    obtain ⟨hexpr, hblock⟩ := nesting_le_iff.mp hnesting
    refine ⟨hstand, ?_, ?_⟩
    · intro part hpart
      exact ⟨fun h => hgrouped (isIn_iff.mpr (.inl ⟨part, hpart, h⟩)), hexpr part hpart⟩
    · intro hhas
      apply fitBlock_iff.mpr
      exact ⟨hbody, fun hstmt h => hgrouped (isIn_iff.mpr (.inr ⟨_, hstmt, h⟩)), hblock hhas⟩
  · rintro ⟨hstand, hexpr, hblock⟩
    -- statements without a block have an empty body, of which nothing is asked
    have hbody : ∀ inner ∈ stmt.body, stmt.hasBody = true := by
      intro inner hinner
      cases stmt <;> first | rfl | contradiction
    constructor
    · apply resultsInFunctions_iff.mpr
      use hstand
      apply allResultsInFunctions_iff.mpr
      intro inner hinner
      apply ((hblock (hbody inner hinner)).2 inner hinner).results
    · intro _ _ _ _ h
      obtain ⟨part, hpart, h⟩ | ⟨inner, hinner, h⟩ := isIn_iff.mp h
      · apply (hexpr part hpart).grouped h
      · apply ((hblock (hbody inner hinner)).2 inner hinner).grouped h
    · apply nesting_le_iff.mpr
      exact ⟨fun part hpart => (hexpr part hpart).nesting_le,
        fun hhas => (fitBlock_iff.mp (hblock hhas)).2.2⟩

end Stmt

theorem Program.wellFormed_iff {program : Program} :
  program.WellFormed
    ↔ Stmt.Paired program.body ∧ ∀ stmt ∈ program.body, stmt.Fits 0 false
  := by
  constructor
  · rintro ⟨hpaired, hresults, hgrouped, hnesting⟩
    use hpaired
    intro stmt hstmt
    constructor
    · apply Stmt.allResultsInFunctions_iff.mp hresults stmt hstmt
    · intro _ _ _ _ h
      apply hgrouped ⟨stmt, hstmt, h⟩
    · rw [Nat.zero_add]
      apply Stmt.nestingOf_le_iff.mp hnesting stmt hstmt
  · rintro ⟨hpaired, hfits⟩
    refine ⟨hpaired, ?_, ?_, ?_⟩
    · apply Stmt.allResultsInFunctions_iff.mpr
      intro stmt hstmt
      apply (hfits stmt hstmt).results
    · rintro _ _ _ _ ⟨stmt, hstmt, h⟩
      apply (hfits stmt hstmt).grouped h
    · apply Stmt.nestingOf_le_iff.mpr
      intro stmt hstmt
      have := (hfits stmt hstmt).nesting_le
      rwa [Nat.zero_add] at this

/-! ### What is spelled is well-formed -/

namespace Grammar

open Stmt (FitBlock fits_iff)

mutual

theorem Expression.fits : ∀ {depth : Nat} {tokens : List Token} {e : Expr},
    Expression depth tokens e → depth ≤ maxDepth → e.Fits depth
  | _, _, _, .factor h, hdepth => (h.fits hdepth).1
  | _, _, _, .operator hleft _ hright, hdepth =>
      Expr.fits_binary_iff.mpr
        ⟨(hright.fits hdepth).2, hleft.fits hdepth, (hright.fits hdepth).1⟩

theorem Factor.fits : ∀ {depth : Nat} {tokens : List Token} {e : Expr},
    Factor depth tokens e → depth ≤ maxDepth → e.Fits depth ∧ e.isFactor = true
  | _, _, _, .atom _, hdepth => ⟨Expr.fits_atom_iff.mpr hdepth, rfl⟩
  | _, _, _, .group hdepth _ h _, _ => (h.fits hdepth).group
  | _, _, _, .bare hdepth _ h hbare _, _ => Expr.group_eq_self hbare ▸ (h.fits hdepth).group
  | _, _, _, .call _ h, _ => ⟨Expr.fits_call_iff.mpr h.fits, rfl⟩

theorem Arguments.fits : ∀ {depth : Nat} {tokens : List Token} {list : List Expr},
    Arguments depth tokens list → depth < maxDepth ∧ ∀ e ∈ list, e.Fits (depth + 1)
  | _, _, _, .none hdepth _ _ => ⟨hdepth, by simp⟩
  | _, _, _, .some hdepth _ h _ => ⟨hdepth, h.fits hdepth⟩

theorem Expressions.fits : ∀ {depth : Nat} {tokens : List Token} {list : List Expr},
    Expressions depth tokens list → depth ≤ maxDepth → ∀ e ∈ list, e.Fits depth
  | _, _, _, .one h, hdepth => List.forall_mem_singleton.mpr (h.fits hdepth)
  | _, _, _, .more h _ hs, hdepth =>
      List.forall_mem_cons.mpr ⟨h.fits hdepth, hs.fits hdepth⟩

end

theorem Condition.fits {depth : Nat} {tokens : List Token} {e : Expr}
    (h : Condition depth tokens e) (hdepth : depth ≤ maxDepth) :
  e.Fits depth
  := by
  cases h with
  | mk _ h _ => apply h.fits hdepth

section

variable {depth : Nat} {inFunction : Bool}

/-- A statement without a body fits when its expression does. -/
theorem fits_of_expr {stmt : Stmt} {e : Expr} (hexpr : stmt.expr? = some e)
    (hbody : stmt.hasBody = false) (hstand : stmt.mayStand inFunction = true)
    (he : e.Fits depth) :
  stmt.Fits depth inFunction
  := by
  apply fits_iff.mpr
  simp [hexpr, hbody, hstand, he]

/-- A statement with a condition fits when its condition and its block do. -/
theorem fits_of_condition {stmt : Stmt} {e : Expr} (hexpr : stmt.expr? = some e)
    (hstand : stmt.mayStand inFunction = true) (he : e.Fits depth)
    (hblock : FitBlock depth (stmt.bodyInFunction inFunction) stmt.body) :
  stmt.Fits depth inFunction
  := by
  apply fits_iff.mpr
  simp [hexpr, hstand, he, hblock]

/-- Another statement with a body fits when its block does. -/
theorem fits_of_block {stmt : Stmt} (hexpr : stmt.expr? = none)
    (hstand : stmt.mayStand inFunction = true)
    (hblock : FitBlock depth (stmt.bodyInFunction inFunction) stmt.body) :
  stmt.Fits depth inFunction
  := by
  apply fits_iff.mpr
  simp [hexpr, hstand, hblock]

end

mutual

theorem Statement.fits : ∀ {depth : Nat} {inFunction : Bool} {tokens : List Token}
    {stmts : List Stmt}, Statement depth inFunction tokens stmts → depth ≤ maxDepth →
    ∀ stmt ∈ stmts, stmt.Fits depth inFunction
  | _, _, _, _, .declaration _ _ _ h _, hdepth =>
      List.forall_mem_singleton.mpr (fits_of_expr rfl rfl rfl (h.fits hdepth))
  | _, _, _, _, .assignment _ _ h _, hdepth =>
      List.forall_mem_singleton.mpr (fits_of_expr rfl rfl rfl (h.fits hdepth))
  | _, _, _, _, .call _ h, _ =>
      List.forall_mem_singleton.mpr (fits_of_expr rfl rfl rfl (Expr.fits_call_iff.mpr h.fits))
  | _, _, _, _, .callEnded _ h _, _ =>
      List.forall_mem_singleton.mpr (fits_of_expr rfl rfl rfl (Expr.fits_call_iff.mpr h.fits))
  | _, _, _, _, .conditional _ hcondition hbody, hdepth =>
      List.forall_mem_singleton.mpr
        (fits_of_condition rfl rfl (hcondition.fits hdepth) hbody.fits)
  | _, _, _, _, .alternative _ hcondition hbody _ hother, hdepth =>
      List.forall_mem_cons.mpr
        ⟨fits_of_condition rfl rfl (hcondition.fits hdepth) hbody.fits,
          List.forall_mem_singleton.mpr (fits_of_block rfl rfl hother.fits)⟩
  | _, _, _, _, .loop _ hcondition hbody, hdepth =>
      List.forall_mem_singleton.mpr
        (fits_of_condition rfl rfl (hcondition.fits hdepth) hbody.fits)
  | _, _, _, _, .function _ _ _ hbody, _ =>
      List.forall_mem_singleton.mpr (fits_of_block rfl rfl hbody.fits)
  | _, _, _, _, .result _ h _, hdepth =>
      List.forall_mem_singleton.mpr (fits_of_expr rfl rfl rfl (h.fits hdepth))
  | _, _, _, _, .empty _, _ => List.forall_mem_nil _

theorem Block.fits : ∀ {depth : Nat} {inFunction : Bool} {tokens : List Token}
    {body : List Stmt}, Block depth inFunction tokens body → FitBlock depth inFunction body
  | _, _, _, _, .mk hdepth _ h _ => ⟨hdepth, h.fits hdepth⟩

theorem Statements.fits : ∀ {depth : Nat} {inFunction : Bool} {tokens : List Token}
    {stmts : List Stmt}, Statements depth inFunction tokens stmts → depth ≤ maxDepth →
    ∀ stmt ∈ stmts, stmt.Fits depth inFunction
  | _, _, _, _, .nil, _ => List.forall_mem_nil _
  | _, _, _, _, .cons h hs, hdepth =>
      List.forall_mem_append.mpr ⟨h.fits hdepth, hs.fits hdepth⟩

end

theorem Derives.wellFormed {tokens : List Token} {program : Program} (h : Derives tokens program) :
  program.WellFormed
  := Program.wellFormed_iff.mpr ⟨Statements.paired h, Statements.fits h (Nat.zero_le _)⟩

end Grammar

/-! ### Spellings of trees -/

/-- A token of the given kind and text, in no particular place. -/
def Token.of (kind : Kind) (text : String) : Token :=
  ⟨kind, text, default⟩

/-- The kind of the tokens that stand for atoms of the given sort. -/
def Atom.kind : Atom → Kind
  | .name => .identifier
  | .integer => .integer
  | .float => .float
  | .text => .text
  | .boolean => .boolean

theorem Atom.atom?_kind (sort : Atom) :
  sort.kind.atom? = some sort
  := by
  cases sort <;> rfl

/-- The tokens of the parts with commas between them. -/
def commas : List (List Token) → List Token
  | [] => []
  | [part] => part
  | part :: parts => part ++ .of .comma "," :: commas parts

/-- The tokens between parentheses. -/
def inParens (tokens : List Token) : List Token :=
  .of .openParen "(" :: tokens ++ [.of .closeParen ")"]

/-- The tokens between curly brackets. -/
def inCurly (tokens : List Token) : List Token :=
  .of .openCurly "\x7b" :: tokens ++ [.of .closeCurly "\x7d"]

mutual

/-- The tokens of an expression.  Only the text of an operator stands in the tree, hence its kind
may be that of any operator. -/
def Expr.toTokens : Expr → List Token
  | .atom sort text => [.of sort.kind text]
  | .binary operator left right grouped =>
    let tokens := left.toTokens ++ .of .plus operator :: right.toTokens
    if grouped then inParens tokens else tokens
  | .call callee arguments =>
    .of .identifier callee :: inParens (commas (Expr.argumentsToTokens arguments))

/-- The tokens of each of the arguments. -/
def Expr.argumentsToTokens : List Expr → List (List Token)
  | [] => []
  | argument :: others => argument.toTokens :: Expr.argumentsToTokens others

end

/-- The tokens of a parameter. -/
def Parameter.toTokens (parameter : Parameter) : List Token :=
  [.of .typeName parameter.type, .of .identifier parameter.name]

mutual

/-- The tokens of a statement. -/
def Stmt.toTokens : Stmt → List Token
  | .declaration type name value =>
    .of .typeName type :: .of .identifier name :: .of .assignment "=" :: value.toTokens
      ++ [.of .semicolon ";"]
  | .assignment name value =>
    .of .identifier name :: .of .assignment "=" :: value.toTokens ++ [.of .semicolon ";"]
  | .call callee arguments =>
    .of .identifier callee :: inParens (commas (Expr.argumentsToTokens arguments))
      ++ [.of .semicolon ";"]
  | .conditional condition body =>
    .of .si "si" :: inParens condition.toTokens ++ inCurly (Stmt.bodyToTokens body)
  | .alternative body => .of .sino "sino" :: inCurly (Stmt.bodyToTokens body)
  | .loop condition body =>
    .of .mientras "mientras" :: inParens condition.toTokens ++ inCurly (Stmt.bodyToTokens body)
  | .function name parameters body =>
    .of .funcion "funcion" :: .of .identifier name
      :: inParens (commas (parameters.map Parameter.toTokens)) ++ inCurly (Stmt.bodyToTokens body)
  | .result value => .of .retornar "retornar" :: value.toTokens ++ [.of .semicolon ";"]

/-- The tokens of the statements, one after the other. -/
def Stmt.bodyToTokens : List Stmt → List Token
  | [] => []
  | stmt :: others => stmt.toTokens ++ Stmt.bodyToTokens others

end

/-- The tokens of a program. -/
def Program.toTokens (program : Program) : List Token :=
  Stmt.bodyToTokens program.body

theorem Expr.argumentsToTokens_eq_map (arguments : List Expr) :
  argumentsToTokens arguments = arguments.map toTokens
  := by
  induction arguments with
  | nil => rw [argumentsToTokens, List.map_nil]
  | cons argument others ih => rw [argumentsToTokens, List.map_cons, ih]

/-- What holds of atoms, of operators when it holds of both operands, and of calls when it holds of
all arguments, holds of all expressions. -/
@[elab_as_elim]
theorem Expr.part_induction {motive : Expr → Prop}
    (atom : ∀ sort text, motive (.atom sort text))
    (binary : ∀ operator left right grouped, motive left → motive right →
      motive (.binary operator left right grouped))
    (call : ∀ callee arguments, (∀ e ∈ arguments, motive e) → motive (.call callee arguments))
    (e : Expr) :
  motive e
  := by
  match e with
  | .atom sort text => apply atom
  | .binary operator left right grouped =>
    apply binary
    · apply part_induction atom binary call left
    · apply part_induction atom binary call right
  | .call callee arguments =>
    apply call
    intro e he
    have := List.sizeOf_lt_of_mem he
    apply part_induction atom binary call e
termination_by sizeOf e

/-! ### What is well-formed is spelled -/

namespace Grammar

open Stmt (FitBlock fits_iff)

theorem separated_commas {α : Type} {form : List Token → α → Prop} {f : α → List Token} {item : α}
    {items : List α} (h : ∀ other ∈ item :: items, form (f other) other) :
  Separated form (commas ((item :: items).map f)) (item :: items)
  := by
  induction items generalizing item with
  | nil => apply Separated.one (h item List.mem_cons_self)
  | cons next items ih =>
    rw [List.forall_mem_cons] at h
    apply Separated.more h.1 rfl (ih h.2)

theorem inParens_commas {α : Type} {form : List Token → α → Prop} {f : α → List Token}
    {items : List α} (h : ∀ item ∈ items, form (f item) item) :
  InParens form (inParens (commas (items.map f))) items
  := by
  cases items with
  | nil => apply InParens.none rfl rfl
  | cons item items => apply InParens.some rfl (separated_commas h) rfl

theorem arguments_toTokens {depth : Nat} {arguments : List Expr} (hdepth : depth < maxDepth)
    (h : ∀ e ∈ arguments, Expression (depth + 1) e.toTokens e) :
  Arguments depth (inParens (commas (Expr.argumentsToTokens arguments))) arguments
  := by
  rw [Expr.argumentsToTokens_eq_map]
  apply arguments_iff.mpr
  use hdepth
  apply inParens_commas h

/-- The tokens of an expression spell it. -/
theorem expression_toTokens {depth : Nat} {e : Expr} (h : e.Fits depth) :
  Expression depth e.toTokens e ∧ (e.isFactor = true → Factor depth e.toTokens e)
  := by
  induction e using Expr.part_induction generalizing depth with
  | atom sort text =>
    have hfactor : Factor depth (Expr.atom sort text).toTokens (.atom sort text) := by
      rw [Expr.toTokens]
      apply Factor.atom sort.atom?_kind
    exact ⟨.factor hfactor, fun _ => hfactor⟩
  | binary operator left right grouped ihleft ihright =>
    obtain ⟨hright, hl, hr⟩ := Expr.fits_binary_iff.mp h
    -- the operator without its parentheses, at the depth within them
    have hoperator : Expression (depth + grouped.toNat)
        (left.toTokens ++ .of .plus operator :: right.toTokens)
        (.binary operator left right false) :=
      Expression.operator (ihleft hl).1 rfl ((ihright hr).2 hright)
    cases grouped with
    | false =>
      rw [Expr.toTokens]
      exact ⟨hoperator, fun hfactor => by contradiction⟩
    | true =>
      have hdepth : depth < maxDepth := Nat.lt_of_lt_of_le (Nat.lt_succ_self _)
        (Nat.le_trans (Nat.le_add_right _ _) hl.nesting_le)
      have hfactor : Factor depth (Expr.binary operator left right true).toTokens
          (.binary operator left right true) := by
        rw [Expr.toTokens]
        apply Factor.group hdepth rfl hoperator rfl
      exact ⟨.factor hfactor, fun _ => hfactor⟩
  | call callee arguments ih =>
    obtain ⟨hdepth, harguments⟩ := Expr.fits_call_iff.mp h
    have hfactor : Factor depth (Expr.call callee arguments).toTokens (.call callee arguments) := by
      rw [Expr.toTokens]
      apply Factor.call rfl
      apply arguments_toTokens hdepth
      intro e he
      apply (ih e he (harguments e he)).1
    exact ⟨.factor hfactor, fun _ => hfactor⟩

section

variable {depth : Nat} {inFunction : Bool}

theorem condition_toTokens {e : Expr} (h : e.Fits depth) :
  Condition depth (inParens e.toTokens) e
  := Condition.mk rfl (expression_toTokens h).1 rfl

/-- The tokens of a block spell it, when those of its statements do. -/
theorem block_toTokens {body : List Stmt} (h : FitBlock depth inFunction body)
    (hbody : ∀ {depth : Nat} {inFunction : Bool}, (∀ inner ∈ body, inner.Fits depth inFunction) →
      Statements depth inFunction (Stmt.bodyToTokens body) body) :
  Block depth inFunction (inCurly (Stmt.bodyToTokens body)) body
  := Block.mk h.1 rfl (hbody h.2) rfl

/-- The tokens of a statement spell it, when those of its body do and it is no alternative. -/
theorem statement_toTokens {stmt : Stmt} (hne : ∀ body, stmt ≠ .alternative body)
    (h : stmt.Fits depth inFunction)
    (hbody : ∀ {depth : Nat} {inFunction : Bool},
      (∀ inner ∈ stmt.body, inner.Fits depth inFunction) →
      Statements depth inFunction (Stmt.bodyToTokens stmt.body) stmt.body) :
  Statement depth inFunction stmt.toTokens [stmt]
  := by
  obtain ⟨hstand, hexpr, hblock⟩ := fits_iff.mp h
  cases stmt with
  | declaration type name value =>
    rw [Stmt.toTokens]
    apply Statement.declaration rfl rfl rfl (expression_toTokens (hexpr value rfl)).1 rfl
  | assignment name value =>
    rw [Stmt.toTokens]
    apply Statement.assignment rfl rfl (expression_toTokens (hexpr value rfl)).1 rfl
  | call callee arguments =>
    obtain ⟨hdepth, harguments⟩ := Expr.fits_call_iff.mp (hexpr _ rfl)
    rw [Stmt.toTokens]
    apply Statement.callEnded rfl _ rfl
    apply arguments_toTokens hdepth
    intro e he
    apply (expression_toTokens (harguments e he)).1
  | conditional condition body =>
    rw [Stmt.toTokens]
    apply Statement.conditional rfl (condition_toTokens (hexpr condition rfl))
    apply block_toTokens (hblock rfl) hbody
  | alternative body => exact absurd rfl (hne body)
  | loop condition body =>
    rw [Stmt.toTokens]
    apply Statement.loop rfl (condition_toTokens (hexpr condition rfl))
    apply block_toTokens (hblock rfl) hbody
  | function name parameters body =>
    rw [Stmt.toTokens]
    apply Statement.function rfl rfl
    · apply inParens_commas
      intro parameter _
      apply IsParameter.mk rfl rfl
    · apply block_toTokens (hblock rfl) hbody
  | result value =>
    obtain rfl : inFunction = true := hstand
    rw [Stmt.toTokens]
    apply Statement.result rfl (expression_toTokens (hexpr value rfl)).1 rfl

/-- The tokens of statements spell them, since every alternative comes after a conditional. -/
theorem statements_toTokens {stmts : List Stmt} (hpaired : Stmt.Paired stmts)
    (h : ∀ stmt ∈ stmts, stmt.Fits depth inFunction) :
  Statements depth inFunction (Stmt.bodyToTokens stmts) stmts
  := by
  induction hpaired generalizing depth inFunction with
  | nil =>
    rw [Stmt.bodyToTokens]
    apply Statements.nil
  | cons hne _ _ ihbody ihs =>
    rw [List.forall_mem_cons] at h
    rw [Stmt.bodyToTokens]
    apply Statements.cons (statement_toTokens hne h.1 ihbody) (ihs h.2)
  | @alternative condition body other others _ _ _ ihbody ihother ihs =>
    rw [List.forall_mem_cons, List.forall_mem_cons] at h
    obtain ⟨hconditional, halternative, hothers⟩ := h
    obtain ⟨_, hexpr, hblock⟩ := fits_iff.mp hconditional
    obtain ⟨_, _, hblock'⟩ := fits_iff.mp halternative
    have hpair : Statement depth inFunction
        ((Stmt.conditional condition body).toTokens ++ (Stmt.alternative other).toTokens)
        [.conditional condition body, .alternative other] := by
      rw [Stmt.toTokens, Stmt.toTokens]
      apply Statement.alternative rfl (condition_toTokens (hexpr condition rfl))
        (block_toTokens (hblock rfl) ihbody) rfl (block_toTokens (hblock' rfl) ihother)
    rw [Stmt.bodyToTokens, Stmt.bodyToTokens, ← List.append_assoc]
    apply Statements.cons hpair (ihs hothers)

end

end Grammar

/-- The tokens of a well-formed program are read as the program. -/
theorem Program.ofTokens_toTokens {program : Program} (h : program.WellFormed) :
  Program.ofTokens program.toTokens = .ok program
  := by
  obtain ⟨hpaired, hfits⟩ := Program.wellFormed_iff.mp h
  have hderives : Grammar.Derives program.toTokens program :=
    Grammar.statements_toTokens hpaired hfits
  apply hderives.ofTokens_eq

/-- The programs that are read from tokens are the well-formed ones. -/
theorem exists_ofTokens_iff_wellFormed (program : Program) :
  (∃ tokens, Program.ofTokens tokens = .ok program) ↔ program.WellFormed
  := by
  constructor
  · rintro ⟨tokens, h⟩
    apply Grammar.Derives.wellFormed (Grammar.ofTokens_eq_ok_iff.mp h)
  · intro h
    use program.toTokens
    apply Program.ofTokens_toTokens h

end Mientras
