import Mathlib.Tactic.Common
import Mientras.Compile
import Mientras.Proofs.Complete
import Mientras.Proofs.Lexeme

/-!
# The words of a tree

`e.MadeOf p` says that every name, literal and operator of the expression `e` is the text of a
lexeme with the property `p`, of a kind that may stand there; `stmt.MadeOf p` says the same of a
statement.  A tree is made of the lexemes of the tokens that spell it, and so a program that is
read from a source is made of proper lexemes (`madeOf_of_ofSource`).
-/

namespace Mientras

/-- The names, literals and operators of the expression are lexemes with the property `p`. -/
inductive Expr.MadeOf (p : Lexeme → Prop) : Expr → Prop where
  | atom {kind : Kind} {sort : Atom} {text : String} (hkind : kind.atom? = some sort)
      (h : p ⟨kind, text⟩) :
      MadeOf p (.atom sort text)
  | binary {kind : Kind} {operator : String} {left right : Expr} {grouped : Bool}
      (hkind : kind.isOperator = true) (h : p ⟨kind, operator⟩) (hleft : MadeOf p left)
      (hright : MadeOf p right) :
      MadeOf p (.binary operator left right grouped)
  | call {callee : String} {arguments : List Expr} (h : p ⟨.identifier, callee⟩)
      (harguments : ∀ e ∈ arguments, MadeOf p e) :
      MadeOf p (.call callee arguments)

/-- The names, literals and operators of the statement are lexemes with the property `p`. -/
inductive Stmt.MadeOf (p : Lexeme → Prop) : Stmt → Prop where
  | declaration {type name : String} {value : Expr} (htype : p ⟨.typeName, type⟩)
      (hname : p ⟨.identifier, name⟩) (hvalue : value.MadeOf p) :
      MadeOf p (.declaration type name value)
  | assignment {name : String} {value : Expr} (hname : p ⟨.identifier, name⟩)
      (hvalue : value.MadeOf p) :
      MadeOf p (.assignment name value)
  | call {callee : String} {arguments : List Expr} (h : (Expr.call callee arguments).MadeOf p) :
      MadeOf p (.call callee arguments)
  | conditional {condition : Expr} {body : List Stmt} (hcondition : condition.MadeOf p)
      (hbody : ∀ stmt ∈ body, MadeOf p stmt) :
      MadeOf p (.conditional condition body)
  | alternative {body : List Stmt} (hbody : ∀ stmt ∈ body, MadeOf p stmt) :
      MadeOf p (.alternative body)
  | loop {condition : Expr} {body : List Stmt} (hcondition : condition.MadeOf p)
      (hbody : ∀ stmt ∈ body, MadeOf p stmt) :
      MadeOf p (.loop condition body)
  | function {name : String} {parameters : List Parameter} {body : List Stmt}
      (hname : p ⟨.identifier, name⟩)
      (hparameters : ∀ parameter ∈ parameters,
        p ⟨.typeName, parameter.type⟩ ∧ p ⟨.identifier, parameter.name⟩)
      (hbody : ∀ stmt ∈ body, MadeOf p stmt) :
      MadeOf p (.function name parameters body)
  | result {value : Expr} (hvalue : value.MadeOf p) :
      MadeOf p (.result value)

theorem Expr.MadeOf.group {p : Lexeme → Prop} {e : Expr} (h : e.MadeOf p) :
  e.group.MadeOf p
  := by
  cases h with
  | atom hkind h => apply MadeOf.atom hkind h
  | binary hkind h hleft hright => apply MadeOf.binary hkind h hleft hright
  | call h harguments => apply MadeOf.call h harguments

namespace Grammar

variable {p : Lexeme → Prop}

/-! ### Trees are made of their tokens -/

theorem lexeme_of_kind {token : Token} {kind : Kind} (hkind : token.kind = kind)
    (h : p token.lexeme) :
  p ⟨kind, token.value⟩
  := by
  rwa [← hkind]

mutual

theorem Expression.madeOf : ∀ {depth : Nat} {tokens : List Token} {e : Expr},
    Expression depth tokens e → (∀ token ∈ tokens, p token.lexeme) → e.MadeOf p
  | _, _, _, .factor h, hp => h.madeOf hp
  | _, _, _, .operator hleft hsign hright, hp => by
      simp only [List.forall_mem_append, List.forall_mem_cons] at hp
      apply Expr.MadeOf.binary hsign hp.2.1
      · apply hleft.madeOf hp.1
      · apply hright.madeOf hp.2.2

theorem Factor.madeOf : ∀ {depth : Nat} {tokens : List Token} {e : Expr},
    Factor depth tokens e → (∀ token ∈ tokens, p token.lexeme) → e.MadeOf p
  | _, _, _, .atom h, hp => by
      simp only [List.forall_mem_cons] at hp
      apply Expr.MadeOf.atom h hp.1
  | _, _, _, .group _ _ h _, hp => by
      simp only [List.cons_append, List.forall_mem_cons, List.forall_mem_append] at hp
      exact (h.madeOf hp.2.1).group
  | _, _, _, .bare _ _ h _ _, hp => by
      simp only [List.cons_append, List.forall_mem_cons, List.forall_mem_append] at hp
      apply h.madeOf hp.2.1
  | _, _, _, .call hname h, hp => by
      simp only [List.forall_mem_cons] at hp
      apply Expr.MadeOf.call (lexeme_of_kind hname hp.1)
      apply h.madeOf hp.2

theorem Arguments.madeOf : ∀ {depth : Nat} {tokens : List Token} {list : List Expr},
    Arguments depth tokens list → (∀ token ∈ tokens, p token.lexeme) → ∀ e ∈ list, e.MadeOf p
  | _, _, _, .none _ _ _, _ => by simp
  | _, _, _, .some _ _ h _, hp => by
      simp only [List.cons_append, List.forall_mem_cons, List.forall_mem_append] at hp
      apply h.madeOf hp.2.1

theorem Expressions.madeOf : ∀ {depth : Nat} {tokens : List Token} {list : List Expr},
    Expressions depth tokens list → (∀ token ∈ tokens, p token.lexeme) → ∀ e ∈ list, e.MadeOf p
  | _, _, _, .one h, hp => by
      simp only [List.forall_mem_singleton]
      apply h.madeOf hp
  | _, _, _, .more h _ hs, hp => by
      simp only [List.forall_mem_append, List.forall_mem_cons] at hp ⊢
      exact ⟨h.madeOf hp.1, hs.madeOf hp.2.2⟩

end

theorem Condition.madeOf {depth : Nat} {tokens : List Token} {e : Expr}
    (h : Condition depth tokens e) (hp : ∀ token ∈ tokens, p token.lexeme) :
  e.MadeOf p
  := by
  cases h with
  | mk _ h _ =>
    simp only [List.cons_append, List.forall_mem_cons, List.forall_mem_append] at hp
    apply h.madeOf hp.2.1

theorem madeOf_of_parameters {tokens : List Token} {parameters : List Parameter}
    (h : InParens IsParameter tokens parameters) (hp : ∀ token ∈ tokens, p token.lexeme) :
  ∀ parameter ∈ parameters, p ⟨.typeName, parameter.type⟩ ∧ p ⟨.identifier, parameter.name⟩
  := by
  have hone : ∀ {tokens : List Token} {parameter : Parameter}, IsParameter tokens parameter →
      (∀ token ∈ tokens, p token.lexeme) →
      p ⟨.typeName, parameter.type⟩ ∧ p ⟨.identifier, parameter.name⟩ := by
    rintro tokens parameter ⟨htype, hname⟩ hp
    simp only [List.forall_mem_cons] at hp
    exact ⟨lexeme_of_kind htype hp.1, lexeme_of_kind hname hp.2.1⟩
  cases h with
  | none => simp
  | some _ h _ =>
    simp only [List.cons_append, List.forall_mem_cons, List.forall_mem_append] at hp
    replace hp := hp.2.1
    induction h with
    | one h =>
      simp only [List.forall_mem_singleton]
      apply hone h hp
    | more h _ _ ih =>
      simp only [List.forall_mem_append, List.forall_mem_cons] at hp ⊢
      exact ⟨hone h hp.1, ih hp.2.2⟩

mutual

theorem Statement.madeOf : ∀ {depth : Nat} {inFunction : Bool} {tokens : List Token}
    {stmts : List Stmt}, Statement depth inFunction tokens stmts →
    (∀ token ∈ tokens, p token.lexeme) → ∀ stmt ∈ stmts, stmt.MadeOf p
  | _, _, _, _, .declaration htype hname _ hvalue _, hp => by
      simp only [List.cons_append, List.forall_mem_cons, List.forall_mem_append] at hp
      simp only [List.forall_mem_singleton]
      apply Stmt.MadeOf.declaration (lexeme_of_kind htype hp.1) (lexeme_of_kind hname hp.2.1)
      apply hvalue.madeOf hp.2.2.2.1
  | _, _, _, _, .assignment hname _ hvalue _, hp => by
      simp only [List.cons_append, List.forall_mem_cons, List.forall_mem_append] at hp
      simp only [List.forall_mem_singleton]
      apply Stmt.MadeOf.assignment (lexeme_of_kind hname hp.1)
      apply hvalue.madeOf hp.2.2.1
  | _, _, _, _, .call hname h, hp => by
      simp only [List.forall_mem_cons] at hp
      simp only [List.forall_mem_singleton]
      apply Stmt.MadeOf.call
      apply Expr.MadeOf.call (lexeme_of_kind hname hp.1)
      apply h.madeOf hp.2
  | _, _, _, _, .callEnded hname h _, hp => by
      simp only [List.cons_append, List.forall_mem_cons, List.forall_mem_append] at hp
      simp only [List.forall_mem_singleton]
      apply Stmt.MadeOf.call
      apply Expr.MadeOf.call (lexeme_of_kind hname hp.1)
      apply h.madeOf hp.2.1
  | _, _, _, _, .conditional _ hcondition hbody, hp => by
      simp only [List.cons_append, List.forall_mem_cons, List.forall_mem_append] at hp
      simp only [List.forall_mem_singleton]
      apply Stmt.MadeOf.conditional
      · apply hcondition.madeOf hp.2.1
      · apply hbody.madeOf hp.2.2
  | _, _, _, _, .alternative _ hcondition hbody _ hother, hp => by
      simp only [List.cons_append, List.forall_mem_cons, List.forall_mem_append] at hp
      rw [List.forall_mem_cons, List.forall_mem_singleton]
      constructor
      · apply Stmt.MadeOf.conditional
        · apply hcondition.madeOf hp.2.1.1
        · apply hbody.madeOf hp.2.1.2
      · apply Stmt.MadeOf.alternative
        apply hother.madeOf hp.2.2.2
  | _, _, _, _, .loop _ hcondition hbody, hp => by
      simp only [List.cons_append, List.forall_mem_cons, List.forall_mem_append] at hp
      simp only [List.forall_mem_singleton]
      apply Stmt.MadeOf.loop
      · apply hcondition.madeOf hp.2.1
      · apply hbody.madeOf hp.2.2
  | _, _, _, _, .function _ hname hparameters hbody, hp => by
      simp only [List.cons_append, List.forall_mem_cons, List.forall_mem_append] at hp
      simp only [List.forall_mem_singleton]
      apply Stmt.MadeOf.function (lexeme_of_kind hname hp.2.1)
      · apply madeOf_of_parameters hparameters hp.2.2.1
      · apply hbody.madeOf hp.2.2.2
  | _, _, _, _, .result _ hvalue _, hp => by
      simp only [List.cons_append, List.forall_mem_cons, List.forall_mem_append] at hp
      simp only [List.forall_mem_singleton]
      apply Stmt.MadeOf.result
      apply hvalue.madeOf hp.2.1
  | _, _, _, _, .empty _, _ => by simp

theorem Block.madeOf : ∀ {depth : Nat} {inFunction : Bool} {tokens : List Token}
    {body : List Stmt}, Block depth inFunction tokens body →
    (∀ token ∈ tokens, p token.lexeme) → ∀ stmt ∈ body, stmt.MadeOf p
  | _, _, _, _, .mk _ _ h _, hp => by
      simp only [List.cons_append, List.forall_mem_cons, List.forall_mem_append] at hp
      apply h.madeOf hp.2.1

theorem Statements.madeOf : ∀ {depth : Nat} {inFunction : Bool} {tokens : List Token}
    {stmts : List Stmt}, Statements depth inFunction tokens stmts →
    (∀ token ∈ tokens, p token.lexeme) → ∀ stmt ∈ stmts, stmt.MadeOf p
  | _, _, _, _, .nil, _ => by simp
  | _, _, _, _, .cons h hs, hp => by
      simp only [List.forall_mem_append] at hp ⊢
      exact ⟨h.madeOf hp.1, hs.madeOf hp.2⟩

end

end Grammar

/-! ### Programs of a source -/

/-- A program that is read from a source is spelled by proper lexemes. -/
theorem derives_of_ofSource {source : String} {program : Program}
    (h : Program.ofSource source = .ok program) :
  ∃ tokens, Grammar.Derives tokens program ∧ ∀ token ∈ tokens, token.lexeme.Proper
  := by
  rw [Program.ofSource] at h
  cases htokens : tokenize source with
  | error fault => simp [htokens, bind, Except.bind] at h
  | ok tokens =>
    rw [htokens] at h
    have hread : Program.ofTokens tokens = .ok program := h
    have hderives := Grammar.ofTokens_eq_ok_iff.mp hread
    obtain ⟨lexemes, hscans, hlexemes⟩ := scans_of_tokenize htokens
    use tokens.takeWhile (!·.isEnd), hderives
    intro token htoken
    have hmem : token.lexeme ∈ lexemes.filter (!·.kind.isTrivia) := by
      rw [← hlexemes]
      apply List.mem_map_of_mem htoken
    obtain ⟨hmem, htrivia⟩ := List.mem_filter.mp hmem
    apply hscans.proper _ hmem
    simpa using htrivia

/-- A program that is read from a source is made of proper lexemes. -/
theorem madeOf_of_ofSource {source : String} {program : Program}
    (h : Program.ofSource source = .ok program) :
  ∀ stmt ∈ program.body, stmt.MadeOf Lexeme.Proper
  := by
  obtain ⟨tokens, hderives, hproper⟩ := derives_of_ofSource h
  apply Grammar.Statements.madeOf hderives hproper

end Mientras
