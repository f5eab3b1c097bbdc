import Mathlib.Tactic.Common
import Mientras.Tree.Read.Stmt

/-!
# The grammar

`Derives tokens program` says that the tokens spell the program.  It is given by rules alone: each
relation of this module has one rule for each form of what it is about, and a rule says how the
tokens of a form are made up of the tokens of its parts.  The number `depth` counts the blocks,
groups and argument lists that stand open around the tokens; a rule that opens one more requires
that fewer than `maxDepth` are open.  The parentheses of a condition and of the parameters of a
function are not counted.  Statements are also told whether they stand within a function.
-/

namespace Mientras

namespace Grammar

/-! ### Lists in parentheses -/

section

variable {α : Type}

/-- The tokens spell one or more items with commas between them, where `form` says which tokens
spell an item. -/
inductive Separated (form : List Token → α → Prop) : List Token → List α → Prop where
  | one {tokens : List Token} {item : α} (h : form tokens item) : Separated form tokens [item]
  | more {first second : List Token} {item : α} {items : List α} {comma : Token}
      (h : form first item) (hcomma : comma.kind = .comma) (hs : Separated form second items) :
      Separated form (first ++ comma :: second) (item :: items)

/-- The tokens spell items with commas between them in parentheses. -/
inductive InParens (form : List Token → α → Prop) : List Token → List α → Prop where
  | none {opening closing : Token}
      (hopening : opening.kind = .openParen) (hclosing : closing.kind = .closeParen) :
      InParens form [opening, closing] []
  | some {opening closing : Token} {tokens : List Token} {items : List α}
      (hopening : opening.kind = .openParen) (h : Separated form tokens items)
      (hclosing : closing.kind = .closeParen) :
      InParens form (opening :: tokens ++ [closing]) items

end

/-! ### Expressions -/

mutual

/-- The tokens spell an expression: a factor, or an expression, an operator and a factor.  All
operators bind alike, and each of them takes all that stands before it as its left operand. -/
inductive Expression : Nat → List Token → Expr → Prop where
  | factor {depth : Nat} {tokens : List Token} {e : Expr} (h : Factor depth tokens e) :
      Expression depth tokens e
  | operator {depth : Nat} {first second : List Token} {left right : Expr} {sign : Token}
      (hleft : Expression depth first left) (hsign : sign.kind.isOperator = true)
      (hright : Factor depth second right) :
      Expression depth (first ++ sign :: second) (.binary sign.value left right false)

/-- The tokens spell a factor: a name or a literal, an expression in parentheses, or a call. -/
inductive Factor : Nat → List Token → Expr → Prop where
  | atom {depth : Nat} {token : Token} {sort : Atom} (h : token.kind.atom? = some sort) :
      Factor depth [token] (.atom sort token.value)
  /-- An operator is marked when it stands in parentheses. -/
  | group {depth : Nat} {opening closing : Token} {tokens : List Token} {operator : String}
      {left right : Expr} {grouped : Bool}
      (hdepth : depth < maxDepth) (hopening : opening.kind = .openParen)
      (h : Expression (depth + 1) tokens (.binary operator left right grouped))
      (hclosing : closing.kind = .closeParen) :
      Factor depth (opening :: tokens ++ [closing]) (.binary operator left right true)
  /-- Parentheses around anything else leave no mark. -/
  | bare {depth : Nat} {opening closing : Token} {tokens : List Token} {e : Expr}
      (hdepth : depth < maxDepth) (hopening : opening.kind = .openParen)
      (h : Expression (depth + 1) tokens e) (hbare : e.isBinary = false)
      (hclosing : closing.kind = .closeParen) :
      Factor depth (opening :: tokens ++ [closing]) e
  | call {depth : Nat} {name : Token} {tokens : List Token} {list : List Expr}
      (hname : name.kind = .identifier) (h : Arguments depth tokens list) :
      Factor depth (name :: tokens) (.call name.value list)

/-- The tokens spell the arguments of a call: expressions with commas between them in
parentheses. -/
inductive Arguments : Nat → List Token → List Expr → Prop where
  | none {depth : Nat} {opening closing : Token} (hdepth : depth < maxDepth)
      (hopening : opening.kind = .openParen) (hclosing : closing.kind = .closeParen) :
      Arguments depth [opening, closing] []
  | some {depth : Nat} {opening closing : Token} {tokens : List Token} {list : List Expr}
      (hdepth : depth < maxDepth) (hopening : opening.kind = .openParen)
      (h : Expressions (depth + 1) tokens list) (hclosing : closing.kind = .closeParen) :
      Arguments depth (opening :: tokens ++ [closing]) list

/-- The tokens spell one or more expressions with commas between them. -/
inductive Expressions : Nat → List Token → List Expr → Prop where
  | one {depth : Nat} {tokens : List Token} {e : Expr} (h : Expression depth tokens e) :
      Expressions depth tokens [e]
  | more {depth : Nat} {first second : List Token} {e : Expr} {list : List Expr} {comma : Token}
      (h : Expression depth first e) (hcomma : comma.kind = .comma)
      (hs : Expressions depth second list) :
      Expressions depth (first ++ comma :: second) (e :: list)

end

/-- The tokens spell a condition: an expression in parentheses. -/
inductive Condition : Nat → List Token → Expr → Prop where
  | mk {depth : Nat} {opening closing : Token} {tokens : List Token} {e : Expr}
      (hopening : opening.kind = .openParen) (h : Expression depth tokens e)
      (hclosing : closing.kind = .closeParen) :
      Condition depth (opening :: tokens ++ [closing]) e

/-! ### Statements -/

/-- The tokens spell a parameter: the name of a type and the name of the parameter. -/
inductive IsParameter : List Token → Parameter → Prop where
  | mk {type name : Token} (htype : type.kind = .typeName) (hname : name.kind = .identifier) :
      IsParameter [type, name] ⟨type.value, name.value⟩

mutual

/-- The tokens spell a statement, which may be none or two statements of the tree: a semicolon
alone is none, and a conditional with its alternative is two. -/
inductive Statement : Nat → Bool → List Token → List Stmt → Prop where
  | declaration {depth : Nat} {inFunction : Bool} {type name sign ending : Token}
      {tokens : List Token} {value : Expr}
      (htype : type.kind = .typeName) (hname : name.kind = .identifier)
      (hsign : sign.kind = .assignment) (hvalue : Expression depth tokens value)
      (hending : ending.kind = .semicolon) :
      Statement depth inFunction (type :: name :: sign :: tokens ++ [ending])
        [.declaration type.value name.value value]
  | assignment {depth : Nat} {inFunction : Bool} {name sign ending : Token}
      {tokens : List Token} {value : Expr}
      (hname : name.kind = .identifier) (hsign : sign.kind = .assignment)
      (hvalue : Expression depth tokens value) (hending : ending.kind = .semicolon) :
      Statement depth inFunction (name :: sign :: tokens ++ [ending])
        [.assignment name.value value]
  /-- A call may stand without a semicolon after it. -/
  | call {depth : Nat} {inFunction : Bool} {name : Token} {tokens : List Token}
      {list : List Expr} (hname : name.kind = .identifier) (h : Arguments depth tokens list) :
      Statement depth inFunction (name :: tokens) [.call name.value list]
  | callEnded {depth : Nat} {inFunction : Bool} {name ending : Token} {tokens : List Token}
      {list : List Expr} (hname : name.kind = .identifier) (h : Arguments depth tokens list)
      (hending : ending.kind = .semicolon) :
      Statement depth inFunction (name :: tokens ++ [ending]) [.call name.value list]
  | conditional {depth : Nat} {inFunction : Bool} {keyword : Token} {first second : List Token}
      {condition : Expr} {body : List Stmt}
      (hkeyword : keyword.kind = .si) (hcondition : Condition depth first condition)
      (hbody : Block depth inFunction second body) :
      Statement depth inFunction (keyword :: first ++ second) [.conditional condition body]
  /-- An alternative directly follows the block of the conditional that it belongs to. -/
  | alternative {depth : Nat} {inFunction : Bool} {keyword otherwise : Token}
      {first second third : List Token} {condition : Expr} {body other : List Stmt}
      (hkeyword : keyword.kind = .si) (hcondition : Condition depth first condition)
      (hbody : Block depth inFunction second body) (hotherwise : otherwise.kind = .sino)
      (hother : Block depth inFunction third other) :
      Statement depth inFunction (keyword :: first ++ second ++ otherwise :: third)
        [.conditional condition body, .alternative other]
  | loop {depth : Nat} {inFunction : Bool} {keyword : Token} {first second : List Token}
      {condition : Expr} {body : List Stmt}
      (hkeyword : keyword.kind = .mientras) (hcondition : Condition depth first condition)
      (hbody : Block depth inFunction second body) :
      Statement depth inFunction (keyword :: first ++ second) [.loop condition body]
  | function {depth : Nat} {inFunction : Bool} {keyword name : Token} {first second : List Token}
      {parameters : List Parameter} {body : List Stmt}
      (hkeyword : keyword.kind = .funcion) (hname : name.kind = .identifier)
      (hparameters : InParens IsParameter first parameters)
      (hbody : Block depth true second body) :
      Statement depth inFunction (keyword :: name :: first ++ second)
        [.function name.value parameters body]
  /-- A result stands only within a function. -/
  | result {depth : Nat} {keyword ending : Token} {tokens : List Token} {value : Expr}
      (hkeyword : keyword.kind = .retornar) (hvalue : Expression depth tokens value)
      (hending : ending.kind = .semicolon) :
      Statement depth true (keyword :: tokens ++ [ending]) [.result value]
  | empty {depth : Nat} {inFunction : Bool} {ending : Token} (hending : ending.kind = .semicolon) :
      Statement depth inFunction [ending] []

/-- The tokens spell a block: statements in curly brackets. -/
inductive Block : Nat → Bool → List Token → List Stmt → Prop where
  | mk {depth : Nat} {inFunction : Bool} {opening closing : Token} {tokens : List Token}
      {body : List Stmt} (hdepth : depth < maxDepth) (hopening : opening.kind = .openCurly)
      (h : Statements (depth + 1) inFunction tokens body) (hclosing : closing.kind = .closeCurly) :
      Block depth inFunction (opening :: tokens ++ [closing]) body

/-- The tokens spell statements one after the other. -/
inductive Statements : Nat → Bool → List Token → List Stmt → Prop where
  | nil {depth : Nat} {inFunction : Bool} : Statements depth inFunction [] []
  | cons {depth : Nat} {inFunction : Bool} {first second : List Token} {stmts others : List Stmt}
      (h : Statement depth inFunction first stmts)
      (hs : Statements depth inFunction second others) :
      Statements depth inFunction (first ++ second) (stmts ++ others)

end

/-- The tokens spell the program. -/
def Derives (tokens : List Token) (program : Program) : Prop :=
  Statements 0 false tokens program.body

/-- An expression in parentheses is a factor. -/
theorem Factor.ofGroup {depth : Nat} {opening closing : Token} {tokens : List Token} {e : Expr}
    (hdepth : depth < maxDepth) (hopening : opening.kind = .openParen)
    (h : Expression (depth + 1) tokens e) (hclosing : closing.kind = .closeParen) :
  Factor depth (opening :: tokens ++ [closing]) e.group
  := by
  cases e with
  | binary => apply Factor.group hdepth hopening h hclosing
  | atom | call => apply Factor.bare hdepth hopening h rfl hclosing

/-! ### Lists and arguments -/

/-- There is at least one item, and a comma for every item but one. -/
theorem Separated.length_bounds {α : Type} {form : List Token → α → Prop} {tokens : List Token}
    {items : List α} (h : Separated form tokens items) :
  0 < items.length ∧ items.length ≤ tokens.length + 1
  := by
  induction h with
  | one h => simp
  | more h hcomma hs ih =>
    simp only [List.length_cons, List.length_append]
    omega

theorem InParens.mono {α : Type} {form form' : List Token → α → Prop}
    (hform : ∀ {tokens : List Token} {item : α}, form tokens item → form' tokens item)
    {tokens : List Token} {items : List α} (h : InParens form tokens items) :
  InParens form' tokens items
  := by
  cases h with
  | none hopening hclosing => apply InParens.none hopening hclosing
  | some hopening h hclosing =>
    apply InParens.some hopening _ hclosing
    induction h with
    | one h => apply Separated.one (hform h)
    | more h hcomma _ ih => apply Separated.more (hform h) hcomma ih

theorem Expressions.separated {depth : Nat} :
  ∀ {tokens : List Token} {list : List Expr}, Expressions depth tokens list →
    Separated (Expression depth) tokens list
  | _, _, .one h => .one h
  | _, _, .more h hcomma hs => .more h hcomma hs.separated

theorem Separated.expressions {depth : Nat} {tokens : List Token} {list : List Expr}
    (h : Separated (Expression depth) tokens list) :
  Expressions depth tokens list
  := by
  induction h with
  | one h => apply Expressions.one h
  | more h hcomma _ ih => apply Expressions.more h hcomma ih

/-- The arguments of a call are a list in parentheses, which are counted. -/
theorem arguments_iff {depth : Nat} {tokens : List Token} {list : List Expr} :
  Arguments depth tokens list
    ↔ depth < maxDepth ∧ InParens (Expression (depth + 1)) tokens list
  := by
  constructor
  · intro h
    cases h with
    | none hdepth hopening hclosing => exact ⟨hdepth, .none hopening hclosing⟩
    | some hdepth hopening h hclosing => exact ⟨hdepth, .some hopening h.separated hclosing⟩
  · rintro ⟨hdepth, h⟩
    cases h with
    | none hopening hclosing => apply Arguments.none hdepth hopening hclosing
    | some hopening h hclosing => apply Arguments.some hdepth hopening h.expressions hclosing

/-! ### First tokens -/

/-- There is a first token, and its kind has the property `p`. -/
def Starts (p : Kind → Prop) (tokens : List Token) : Prop :=
  ∃ token rest, tokens = token :: rest ∧ p token.kind

theorem Starts.append {p : Kind → Prop} {tokens : List Token} (h : Starts p tokens)
    (rest : List Token) :
  Starts p (tokens ++ rest)
  := by
  obtain ⟨token, tokens, rfl, hp⟩ := h
  exact ⟨token, tokens ++ rest, rfl, hp⟩

theorem Separated.starts {α : Type} {form : List Token → α → Prop} {p : Kind → Prop}
    {tokens : List Token} {items : List α}
    (hform : ∀ {tokens : List Token} {item : α}, form tokens item → Starts p tokens)
    (h : Separated form tokens items) :
  Starts p tokens
  := by
  cases h with
  | one h => apply hform h
  | more h => apply (hform h).append

theorem Arguments.starts {depth : Nat} {tokens : List Token} {list : List Expr}
    (h : Arguments depth tokens list) :
  Starts (· = .openParen) tokens
  := by
  cases h with
  | @none _ opening closing _ hopening _ => exact ⟨opening, [closing], rfl, hopening⟩
  | @some _ opening closing tokens _ _ hopening _ _ =>
    exact ⟨opening, tokens ++ [closing], rfl, hopening⟩

/-- The kinds of tokens that a factor starts with. -/
def StartsFactor (kind : Kind) : Prop :=
  kind.atom?.isSome = true ∨ kind = .openParen

theorem Factor.starts {depth : Nat} {tokens : List Token} {e : Expr} (h : Factor depth tokens e) :
  Starts StartsFactor tokens
  := by
  cases h with
  | @atom _ token _ h => exact ⟨token, [], rfl, .inl (by simp [h])⟩
  | group _ hopening _ _ | bare _ hopening _ _ _ => exact ⟨_, _, rfl, .inr hopening⟩
  | @call _ name tokens _ hname _ => exact ⟨name, tokens, rfl, .inl (by simp [hname, Kind.atom?])⟩

theorem Expression.starts {depth : Nat} :
  ∀ {tokens : List Token} {e : Expr}, Expression depth tokens e → Starts StartsFactor tokens
  | _, _, .factor h => h.starts
  | _, _, .operator hleft _ _ => hleft.starts.append _

/-- The kinds of tokens that a statement starts with. -/
def StartsStatement (kind : Kind) : Prop :=
  kind.form ≠ .invalid ∧ kind.form ≠ .alternative

theorem Statement.starts {depth : Nat} {inFunction : Bool} {tokens : List Token}
    {stmts : List Stmt} (h : Statement depth inFunction tokens stmts) :
  Starts StartsStatement tokens
  := by
  cases h <;> exact ⟨_, _, rfl, by simp_all [StartsStatement, Kind.form]⟩

theorem Statements.eq_nil_or_starts {depth : Nat} {inFunction : Bool} {tokens : List Token}
    {body : List Stmt} (h : Statements depth inFunction tokens body) :
  tokens = [] ∨ Starts StartsStatement tokens
  := by
  cases h with
  | nil => exact .inl rfl
  | cons h _ => exact .inr (h.starts.append _)

/-- No tokens spell no statement. -/
theorem Statements.eq_nil {depth : Nat} {inFunction : Bool} {body : List Stmt}
    (h : Statements depth inFunction [] body) :
  body = []
  := by
  generalize htokens : [] = tokens at h
  cases h with
  | nil => rfl
  | cons h _ =>
    obtain ⟨token, tokens, rfl, _⟩ := h.starts
    simp at htokens

/-- A statement that starts with a semicolon is the semicolon alone. -/
theorem Statement.eq_of_semicolon {depth : Nat} {inFunction : Bool} {token : Token}
    {rest : List Token} {stmts : List Stmt}
    (h : Statement depth inFunction (token :: rest) stmts) (htoken : token.kind = .semicolon) :
  rest = [] ∧ stmts = []
  := by
  generalize htokens : token :: rest = tokens at h
  cases h with
  | empty => simp_all
  | _ => simp_all

/-! ### The end of the input -/

/-- None of the tokens is an end of the input. -/
def Inside (tokens : List Token) : Prop :=
  ∀ token ∈ tokens, token.kind ≠ .endOfInput

@[simp]
theorem inside_nil :
  Inside []
  := by
  simp [Inside]

@[simp]
theorem inside_cons {token : Token} {tokens : List Token} :
  Inside (token :: tokens) ↔ token.kind ≠ .endOfInput ∧ Inside tokens
  := List.forall_mem_cons

@[simp]
theorem inside_append {first second : List Token} :
  Inside (first ++ second) ↔ Inside first ∧ Inside second
  := List.forall_mem_append

theorem ne_end_of_isOperator {kind : Kind} (h : kind.isOperator = true) :
  kind ≠ .endOfInput
  := by
  rintro rfl
  simp [Kind.isOperator] at h

theorem ne_end_of_atom? {kind : Kind} {sort : Atom} (h : kind.atom? = some sort) :
  kind ≠ .endOfInput
  := by
  rintro rfl
  simp [Kind.atom?] at h

mutual

theorem Expression.inside : ∀ {depth : Nat} {tokens : List Token} {e : Expr},
    Expression depth tokens e → Inside tokens
  | _, _, _, .factor h => h.inside
  | _, _, _, .operator hleft hsign hright => by
      simp [hleft.inside, hright.inside, ne_end_of_isOperator hsign]

theorem Factor.inside : ∀ {depth : Nat} {tokens : List Token} {e : Expr},
    Factor depth tokens e → Inside tokens
  | _, _, _, .atom h => by simp [ne_end_of_atom? h]
  | _, _, _, .group _ hopening h hclosing => by simp [hopening, hclosing, h.inside]
  | _, _, _, .bare _ hopening h _ hclosing => by simp [hopening, hclosing, h.inside]
  | _, _, _, .call hname h => by simp [hname, h.inside]

theorem Arguments.inside : ∀ {depth : Nat} {tokens : List Token} {list : List Expr},
    Arguments depth tokens list → Inside tokens
  | _, _, _, .none _ hopening hclosing => by simp [hopening, hclosing]
  | _, _, _, .some _ hopening h hclosing => by simp [hopening, hclosing, h.inside]

theorem Expressions.inside : ∀ {depth : Nat} {tokens : List Token} {list : List Expr},
    Expressions depth tokens list → Inside tokens
  | _, _, _, .one h => h.inside
  | _, _, _, .more h hcomma hs => by simp [hcomma, h.inside, hs.inside]

end

theorem Condition.inside {depth : Nat} {tokens : List Token} {e : Expr}
    (h : Condition depth tokens e) :
  Inside tokens
  := by
  cases h with
  | mk hopening h hclosing => simp [hopening, hclosing, h.inside]

theorem InParens.inside_of_parameters {tokens : List Token} {parameters : List Parameter}
    (h : InParens IsParameter tokens parameters) :
  Inside tokens
  := by
  cases h with
  | none hopening hclosing => simp [hopening, hclosing]
  | some hopening h hclosing =>
    simp only [List.cons_append, inside_cons, inside_append, inside_nil, hopening, hclosing]
    induction h with
    | one h =>
      obtain ⟨htype, hname⟩ := h
      simp [htype, hname]
    | more h hcomma _ ih =>
      obtain ⟨htype, hname⟩ := h
      simp_all

mutual

theorem Statement.inside : ∀ {depth : Nat} {inFunction : Bool} {tokens : List Token}
    {stmts : List Stmt}, Statement depth inFunction tokens stmts → Inside tokens
  | _, _, _, _, .declaration htype hname hsign hvalue hending => by
      simp [htype, hname, hsign, hvalue.inside, hending]
  | _, _, _, _, .assignment hname hsign hvalue hending => by
      simp [hname, hsign, hvalue.inside, hending]
  | _, _, _, _, .call hname h => by simp [hname, h.inside]
  | _, _, _, _, .callEnded hname h hending => by simp [hname, h.inside, hending]
  | _, _, _, _, .conditional hkeyword hcondition hbody => by
      simp [hkeyword, hcondition.inside, hbody.inside]
  | _, _, _, _, .alternative hkeyword hcondition hbody hotherwise hother => by
      simp [hkeyword, hcondition.inside, hbody.inside, hotherwise, hother.inside]
  | _, _, _, _, .loop hkeyword hcondition hbody => by
      simp [hkeyword, hcondition.inside, hbody.inside]
  | _, _, _, _, .function hkeyword hname hparameters hbody => by
      simp [hkeyword, hname, hparameters.inside_of_parameters, hbody.inside]
  | _, _, _, _, .result hkeyword hvalue hending => by simp [hkeyword, hvalue.inside, hending]
  | _, _, _, _, .empty hending => by simp [hending]

theorem Block.inside : ∀ {depth : Nat} {inFunction : Bool} {tokens : List Token}
    {body : List Stmt}, Block depth inFunction tokens body → Inside tokens
  | _, _, _, _, .mk _ hopening h hclosing => by simp [hopening, h.inside, hclosing]

theorem Statements.inside : ∀ {depth : Nat} {inFunction : Bool} {tokens : List Token}
    {stmts : List Stmt}, Statements depth inFunction tokens stmts → Inside tokens
  | _, _, _, _, .nil => inside_nil
  | _, _, _, _, .cons h hs => inside_append.mpr ⟨h.inside, hs.inside⟩

end

end Grammar

end Mientras
