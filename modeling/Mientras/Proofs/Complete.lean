import Mathlib.Data.List.TakeWhile
import Mientras.Proofs.Sound

/-!
# Readers follow the grammar

A reader is `Complete` for a relation of the grammar when it finds every value that tokens at the
cursor spell, provided that the token after them cannot go on with it.  Every reader is complete
for the relation of its name.  Expressions and blocks are read within a number of levels, which is
enough as long as the levels and what is open already exceed `maxDepth` together.

Only statements need more than that.  A call may stand with or without a semicolon, and a semicolon
alone is no statement, so that there are two ways to derive a call before a semicolon.  A reader
always takes the semicolon as part of the call; since nothing is lost with an empty statement, it
finds the same tree.  Together with soundness this gives `ofTokens_eq_ok_iff`.
-/

namespace Mientras

namespace Read

open Grammar

variable {α β : Type}

/-- The reader finds the value that the tokens at the cursor spell, where `follow` says which kinds
of tokens may stand after them. -/
def Complete (read : Read α) (form : Nat → Bool → List Token → α → Prop) (follow : Kind → Prop) :
    Prop :=
  ∀ ⦃cursor : Cursor⦄ ⦃tokens rest : List Token⦄ ⦃a : α⦄, cursor.Valid →
    cursor.rest = tokens ++ rest → form cursor.depth cursor.inFunction tokens a →
    follow (cursor.withRest rest).kind → read cursor = .ok a (cursor.withRest rest)

/-! ### Lists -/

section

variable {item : Read α} {form : Nat → Bool → List Token → α → Prop} {follow : Kind → Prop}
  (hitem : Complete item form follow) (hcomma : follow .comma)

include hitem hcomma

theorem items_of_separated {depth : Nat} {inFunction : Bool} {tokens : List Token} {list : List α}
    (h : Separated (form depth inFunction) tokens list) :
  ∀ {cursor : Cursor} {rest : List Token} {count : Nat}, cursor.Valid → cursor.depth = depth →
    cursor.inFunction = inFunction → cursor.rest = tokens ++ rest →
    follow (cursor.withRest rest).kind → (cursor.withRest rest).kind ≠ .comma →
    list.length ≤ count + 1 →
    (do
      let first ← item
      let others ← moreItems item count
      return first :: others) cursor = .ok list (cursor.withRest rest)
  := by
  induction h with
  | one h =>
    intro cursor rest count hvalid hdepth hfunction hrest hfollow hnext hcount
    subst hdepth hfunction
    rw [bind_of_ok (hitem hvalid hrest h hfollow), bind_of_ok (moreItems_of_ne hnext)]
    rfl
  | @more first second first' others comma h hkind hs ih =>
    intro cursor rest count hvalid hdepth hfunction hrest hfollow hnext hcount
    subst hdepth hfunction
    rw [List.append_assoc, List.cons_append] at hrest
    have hcount' := hs.length_bounds.1
    rw [List.length_cons] at hcount
    obtain ⟨count, rfl⟩ : ∃ n, count = n + 1 := ⟨count - 1, by omega⟩
    have hmore : moreItems item (count + 1) (cursor.withRest (comma :: (second ++ rest)))
        = .ok others (cursor.withRest rest) := by
      rw [moreItems_of_comma rfl hkind]
      apply ih (hvalid.withRest (second ++ rest)) rfl rfl rfl hfollow hnext (by omega)
    have hfirst := hitem hvalid hrest h (by rwa [Cursor.kind_of_cons rfl, hkind])
    rw [bind_of_ok hfirst, bind_of_ok hmore]
    rfl

theorem complete_items :
  Complete (items item) (fun depth inFunction => Separated (form depth inFunction))
    (fun kind => follow kind ∧ kind ≠ .comma)
  := by
  intro cursor tokens rest list hvalid hrest h hfollow
  -- the number of items that may follow is the number of tokens after the first item
  have hitems : ∀ {first : α} {after : List Token},
      item cursor = .ok first (cursor.withRest after) →
      list.length ≤ after.length + 1 → items item cursor = .ok list (cursor.withRest rest) := by
    intro first after hfirst hcount
    rw [items, bind_of_ok hfirst, get_bind]
    have hall := items_of_separated hitem hcomma h hvalid rfl rfl hrest hfollow.1 hfollow.2 hcount
    rwa [bind_of_ok hfirst] at hall
  cases h with
  | one h => apply hitems (hitem hvalid hrest h hfollow.1) (by simp)
  | @more first second first' others comma h hkind hs =>
    have hbounds := hs.length_bounds
    rw [List.append_assoc, List.cons_append] at hrest
    apply hitems (hitem hvalid hrest h (by rwa [Cursor.kind_of_cons rfl, hkind]))
    simp only [List.length_cons, List.length_append]
    omega

end

theorem complete_itemsInParens {item : Read α} {form : Nat → Bool → List Token → α → Prop}
    {follow : Kind → Prop} (hitem : Complete item form follow) (hcomma : follow .comma)
    (hclose : follow .closeParen)
    (hstart : ∀ depth inFunction {tokens a}, form depth inFunction tokens a →
      Starts (· ≠ .closeParen) tokens) :
  Complete (itemsInParens item) (fun depth inFunction => InParens (form depth inFunction))
    (fun _ => True)
  := by
  intro cursor tokens rest list hvalid hrest h _
  cases h with
  | none hopening hclosing => apply itemsInParens_of_close hrest hopening hclosing
  | @some opening closing tokens _ hopening h hclosing =>
    simp only [List.cons_append, List.append_assoc, List.nil_append] at hrest
    obtain ⟨token, tokens', heq, htoken⟩ := (h.starts (hstart _ _)).append (closing :: rest)
    rw [itemsInParens_of_ne hrest hopening (by rwa [heq, Cursor.kind_of_cons rfl])]
    have hkind : (cursor.withRest (closing :: rest)).kind = .closeParen :=
      (Cursor.kind_of_cons rfl).trans hclosing
    have hitems := complete_items hitem hcomma (hvalid.withRest (tokens ++ closing :: rest)) rfl h
      (by rw [Cursor.withRest_withRest, hkind]; exact ⟨hclose, by simp⟩)
    rw [bind_of_ok hitems, bind_of_ok (expectAs_of_cons rfl hclosing)]
    rfl

/-! ### Expressions -/

/-- The kinds of tokens that cannot go on with an expression. -/
def EndsExpr (kind : Kind) : Prop :=
  kind.isOperator = false ∧ kind ≠ .openParen

section

variable {inner : Read Expr} {levels : Nat}
  (hinner : Complete inner
    (fun depth _ tokens e => maxDepth < levels + depth ∧ Expression depth tokens e) EndsExpr)

include hinner

/-- An expression in parentheses is read as a factor. -/
theorem complete_factorOf_group {cursor : Cursor} {opening closing : Token}
    {tokens rest : List Token} {e : Expr} (hvalid : cursor.Valid) (hdepth : cursor.depth < maxDepth)
    (hlevels : maxDepth ≤ levels + cursor.depth)
    (hrest : cursor.rest = opening :: tokens ++ closing :: rest)
    (hopening : opening.kind = .openParen) (h : Expression (cursor.depth + 1) tokens e)
    (hclosing : closing.kind = .closeParen) :
  factorOf inner cursor = .ok e.group (cursor.withRest rest)
  := by
  have hkind := (Cursor.kind_of_cons hrest).trans hopening
  have he := hinner ((hvalid.nested hdepth).withRest (tokens ++ closing :: rest)) rfl
    ⟨Nat.lt_succ_of_le hlevels, h⟩
    (by rw [Cursor.kind_of_cons rfl, hclosing]; simp [EndsExpr, Kind.isOperator])
  have hrest : cursor.nested.rest = opening :: (tokens ++ closing :: rest) := hrest
  rw [factorOf_of_none (by simp [hkind, Kind.atom?]), if_pos hkind, groupOf,
    bind_of_ok (nest_of_lt hdepth), bind_of_ok (expect_of_cons hrest hopening), bind_of_ok he,
    bind_of_ok (expect_of_cons rfl hclosing)]
  rfl

theorem complete_argumentsOf :
  Complete (argumentsOf inner)
    (fun depth _ tokens list => maxDepth ≤ levels + depth ∧ Arguments depth tokens list)
    (fun _ => True)
  := by
  intro cursor tokens rest list hvalid hrest ⟨hlevels, h⟩ _
  obtain ⟨hdepth, h⟩ := arguments_iff.mp h
  have hstart : ∀ (depth : Nat) (_ : Bool) {tokens : List Token} {e : Expr},
      maxDepth < levels + depth ∧ Expression depth tokens e → Starts (· ≠ .closeParen) tokens := by
    rintro depth _ tokens e ⟨_, he⟩
    obtain ⟨token, rest, rfl, htoken⟩ := he.starts
    use token, rest, rfl
    rintro hclose
    simp [StartsFactor, hclose, Kind.atom?] at htoken
  have hlist := complete_itemsInParens hinner (by simp [EndsExpr, Kind.isOperator])
    (by simp [EndsExpr, Kind.isOperator]) hstart (hvalid.nested hdepth) hrest
    (h.mono fun he => ⟨Nat.lt_succ_of_le hlevels, he⟩) trivial
  rw [argumentsOf, bind_of_ok (nest_of_lt hdepth), bind_of_ok hlist]
  rfl

theorem complete_factorOf :
  Complete (factorOf inner)
    (fun depth _ tokens e => maxDepth ≤ levels + depth ∧ Factor depth tokens e) (· ≠ .openParen)
  := by
  intro cursor tokens rest e hvalid hrest ⟨hlevels, h⟩ hfollow
  cases h with
  | @atom _ token sort h =>
    rw [List.singleton_append] at hrest
    have hkind := Cursor.kind_of_cons hrest
    by_cases hsort : sort = .name
    · rw [factorOf_of_name (hkind.trans (Kind.atom?_eq_name_iff.mp (hsort ▸ h))),
        bind_of_ok (advance_of_cons hrest), kind_bind, if_neg hfollow, hsort]
      rfl
    · rw [factorOf_of_literal (by rw [hkind, h]) hsort, bind_of_ok (advance_of_cons hrest)]
      rfl
  | @group _ opening closing tokens _ _ _ _ hdepth hopening h hclosing =>
    rw [List.append_assoc] at hrest
    apply complete_factorOf_group hinner hvalid hdepth hlevels hrest hopening h hclosing
  | @bare _ opening closing tokens e hdepth hopening h hbare hclosing =>
    rw [List.append_assoc] at hrest
    have hgroup := complete_factorOf_group hinner hvalid hdepth hlevels hrest hopening h hclosing
    rwa [Expr.group_eq_self hbare] at hgroup
  | @call _ name tokens list hname h =>
    rw [List.cons_append] at hrest
    have hkind := (Cursor.kind_of_cons hrest).trans hname
    obtain ⟨opening, tokens', heq, hopening⟩ := h.starts.append rest
    have hlist := complete_argumentsOf hinner (hvalid.withRest (tokens ++ rest)) rfl
      ⟨hlevels, h⟩ trivial
    rw [factorOf_of_name hkind, bind_of_ok (advance_of_cons hrest), kind_bind,
      if_pos (by rw [heq, Cursor.kind_of_cons rfl, hopening]), bind_of_ok hlist]
    rfl

end

/-- The expression that the tokens spell stands to the left of whatever follows them. -/
theorem chainOf_eq_chain {factor : Read Expr} {levels : Nat}
    (hfactor : Complete factor
      (fun depth _ tokens e => maxDepth ≤ levels + depth ∧ Factor depth tokens e)
      (· ≠ .openParen)) {cursor : Cursor} (hvalid : cursor.Valid)
    (hlevels : maxDepth ≤ levels + cursor.depth) :
  ∀ {tokens rest : List Token} {e : Expr}, Expression cursor.depth tokens e →
    cursor.rest = tokens ++ rest → (cursor.withRest rest).kind ≠ .openParen →
    ∃ count, rest.length ≤ count
      ∧ chainOf factor cursor = chain factor count e (cursor.withRest rest)
  | _, rest, _, .factor h, hrest, hfollow => by
    use rest.length, Nat.le_refl _
    rw [chainOf, bind_of_ok (hfactor hvalid hrest ⟨hlevels, h⟩ hfollow)]
    rfl
  | _, rest, _, @Expression.operator _ first second left right sign hleft hsign hright, hrest,
      hfollow => by
    rw [List.append_assoc, List.cons_append] at hrest
    have hnext : (cursor.withRest (sign :: (second ++ rest))).kind ≠ .openParen := by
      intro hopen
      rw [Cursor.kind_of_cons rfl] at hopen
      simp [hopen, Kind.isOperator] at hsign
    obtain ⟨count, hcount, hchain⟩ := chainOf_eq_chain hfactor hvalid hlevels hleft hrest hnext
    rw [List.length_cons, List.length_append] at hcount
    obtain ⟨count, rfl⟩ : ∃ n, count = n + 1 := ⟨count - 1, by omega⟩
    use count, by omega
    rw [hchain, chain_of_operator rfl hsign, Cursor.withRest_withRest,
      bind_of_ok (hfactor (hvalid.withRest (second ++ rest)) rfl ⟨hlevels, hright⟩ hfollow)]
    rfl

theorem complete_exprWithin (levels : Nat) :
  Complete (exprWithin levels)
    (fun depth _ tokens e => maxDepth < levels + depth ∧ Expression depth tokens e) EndsExpr
  := by
  induction levels with
  | zero =>
    intro cursor tokens rest e hvalid _ ⟨hlevels, _⟩ _
    have := hvalid.depth_le
    omega
  | succ levels ih =>
    intro cursor tokens rest e hvalid hrest ⟨hlevels, h⟩ hfollow
    obtain ⟨count, _, hchain⟩ := chainOf_eq_chain (complete_factorOf ih) hvalid (by omega) h hrest
      hfollow.2
    rw [exprWithin, hchain, chain_of_not hfollow.1]

theorem complete_expr :
  Complete expr (fun depth _ => Expression depth) EndsExpr
  := by
  intro cursor tokens rest e hvalid hrest h hfollow
  apply complete_exprWithin _ hvalid hrest ⟨by omega, h⟩ hfollow

theorem complete_arguments :
  Complete arguments (fun depth _ => Arguments depth) (fun _ => True)
  := by
  intro cursor tokens rest list hvalid hrest h hfollow
  apply complete_argumentsOf (complete_exprWithin _) hvalid hrest ⟨by omega, h⟩ hfollow

/-! ### Statements without a block -/

section

variable {cursor : Cursor} {tokens rest : List Token} {value : Expr} {ending : Token}

/-- An expression before a token that ends it. -/
theorem expr_of_ended (hvalid : cursor.Valid) (h : Expression cursor.depth tokens value)
    (hending : EndsExpr ending.kind) :
  expr (cursor.withRest (tokens ++ ending :: rest)) = .ok value (cursor.withRest (ending :: rest))
  := complete_expr (hvalid.withRest _) rfl h hending

theorem declaration_of_cons {type name sign : Token} (hvalid : cursor.Valid)
    (hrest : cursor.rest = type :: name :: sign :: tokens ++ ending :: rest)
    (hname : name.kind = .identifier) (hsign : sign.kind = .assignment)
    (hvalue : Expression cursor.depth tokens value) (hending : ending.kind = .semicolon) :
  declaration cursor
    = .ok (.declaration type.value name.value value) (cursor.withRest rest)
  := by
  apply ok_bind (advance_of_cons hrest)
  apply ok_bind (expect_of_cons rfl hname)
  apply ok_bind (expect_of_cons rfl hsign)
  apply ok_bind (expr_of_ended hvalid hvalue (by simp [EndsExpr, hending, Kind.isOperator]))
  apply ok_bind (expect_of_cons rfl hending)
  rfl

theorem assignment_of_cons {sign : Token} {name : String} (hvalid : cursor.Valid)
    (hrest : cursor.rest = sign :: tokens ++ ending :: rest) (hsign : sign.kind = .assignment)
    (hvalue : Expression cursor.depth tokens value) (hending : ending.kind = .semicolon) :
  assignment name cursor = .ok (.assignment name value) (cursor.withRest rest)
  := by
  apply ok_bind (expect_of_cons hrest hsign)
  apply ok_bind (expr_of_ended hvalid hvalue (by simp [EndsExpr, hending, Kind.isOperator]))
  apply ok_bind (expect_of_cons rfl hending)
  rfl

/-- A call takes the semicolon after it. -/
theorem call_of_semicolon {callee : String} {list : List Expr} (hvalid : cursor.Valid)
    (hrest : cursor.rest = tokens ++ ending :: rest) (h : Arguments cursor.depth tokens list)
    (hending : ending.kind = .semicolon) :
  call callee cursor = .ok (.call callee list) (cursor.withRest rest)
  := by
  apply ok_bind (complete_arguments hvalid hrest h trivial)
  rw [kind_bind, if_pos ((Cursor.kind_of_cons rfl).trans hending)]
  apply ok_bind (advance_of_cons rfl)
  rfl

theorem call_of_ne {callee : String} {list : List Expr} (hvalid : cursor.Valid)
    (hrest : cursor.rest = tokens ++ rest) (h : Arguments cursor.depth tokens list)
    (hnext : (cursor.withRest rest).kind ≠ .semicolon) :
  call callee cursor = .ok (.call callee list) (cursor.withRest rest)
  := by
  apply ok_bind (complete_arguments hvalid hrest h trivial)
  rw [kind_bind, if_neg hnext]
  rfl

/-- A name before an argument list starts a call. -/
theorem named_of_arguments {name : Token} {list : List Expr} {cursor' : Cursor} {stmt : Stmt}
    (hrest : cursor.rest = name :: (tokens ++ rest)) (h : Arguments cursor.depth tokens list)
    (hcall : call name.value (cursor.withRest (tokens ++ rest)) = .ok stmt cursor') :
  named cursor = .ok stmt cursor'
  := by
  obtain ⟨opening, tokens', heq, hopening⟩ := h.starts.append rest
  have hkind : (cursor.withRest (tokens ++ rest)).kind = .openParen := by
    rw [heq, Cursor.kind_of_cons rfl, hopening]
  apply ok_bind (advance_of_cons hrest)
  rw [kind_bind, if_neg (by simp [hkind]), kind_bind, if_pos hkind]
  apply hcall

theorem result_of_cons {keyword : Token} (hvalid : cursor.Valid)
    (hfunction : cursor.inFunction = true)
    (hrest : cursor.rest = keyword :: tokens ++ ending :: rest)
    (hvalue : Expression cursor.depth tokens value) (hending : ending.kind = .semicolon) :
  result cursor = .ok (.result value) (cursor.withRest rest)
  := by
  rw [result, get_bind, if_pos hfunction]
  apply ok_bind (advance_of_cons hrest)
  apply ok_bind (expr_of_ended hvalid hvalue (by simp [EndsExpr, hending, Kind.isOperator]))
  apply ok_bind (expect_of_cons rfl hending)
  rfl

end

/-! ### Statements with a block -/

theorem complete_condition :
  Complete condition (fun depth _ => Condition depth) (fun _ => True)
  := by
  intro cursor tokens rest e hvalid hrest h _
  cases h with
  | mk hopening h hclosing =>
    rw [List.append_assoc] at hrest
    apply ok_bind (expect_of_cons hrest hopening)
    apply ok_bind (expr_of_ended hvalid h (by simp [EndsExpr, hclosing, Kind.isOperator]))
    apply ok_bind (expect_of_cons rfl hclosing)
    rfl

theorem complete_parameter :
  Complete parameter (fun _ _ => IsParameter) (fun _ => True)
  := by
  intro cursor tokens rest p hvalid hrest h _
  cases h with
  | mk htype hname =>
    apply ok_bind (expect_of_cons hrest htype)
    apply ok_bind (expect_of_cons rfl hname)
    rfl

theorem complete_parameters :
  Complete (itemsInParens parameter) (fun _ _ => InParens IsParameter) (fun _ => True)
  := by
  apply complete_itemsInParens complete_parameter trivial trivial
  intro _ _ tokens p h
  cases h with
  | @mk type name htype hname => exact ⟨type, [name], rfl, by simp [htype]⟩

section

/-- The blocks that open at most `levels` blocks within one another are read. -/
def CompleteBlock (block : Scope → Read (List Stmt)) (levels : Nat) : Prop :=
  ∀ scope, Complete (block scope) (fun depth inFunction tokens body =>
    maxDepth < levels + depth ∧ Block depth (scope == .function || inFunction) tokens body)
    (fun _ => True)

variable {block : Scope → Read (List Stmt)} {levels : Nat} (hblock : CompleteBlock block levels)
  {cursor : Cursor} (hvalid : cursor.Valid) (hlevels : maxDepth < levels + cursor.depth)

include hblock hvalid hlevels

theorem loopOf_of_cons {keyword : Token} {first second rest : List Token} {condition : Expr}
    {body : List Stmt} (hrest : cursor.rest = keyword :: first ++ (second ++ rest))
    (hcondition : Condition cursor.depth first condition)
    (hbody : Block cursor.depth cursor.inFunction second body) :
  loopOf block cursor = .ok (.loop condition body) (cursor.withRest rest)
  := by
  apply ok_bind (advance_of_cons hrest)
  apply ok_bind (complete_condition (hvalid.withRest _) rfl hcondition trivial)
  apply ok_bind (hblock .loop (hvalid.withRest _) rfl ⟨hlevels, hbody⟩ trivial)
  rfl

theorem functionOf_of_cons {keyword name : Token} {first second rest : List Token}
    {parameters : List Parameter} {body : List Stmt}
    (hrest : cursor.rest = keyword :: name :: first ++ (second ++ rest))
    (hname : name.kind = .identifier) (hparameters : InParens IsParameter first parameters)
    (hbody : Block cursor.depth true second body) :
  functionOf block cursor = .ok (.function name.value parameters body) (cursor.withRest rest)
  := by
  apply ok_bind (advance_of_cons hrest)
  apply ok_bind (expect_of_cons rfl hname)
  apply ok_bind (complete_parameters (hvalid.withRest _) rfl hparameters trivial)
  apply ok_bind (hblock .function (hvalid.withRest _) rfl ⟨hlevels, hbody⟩ trivial)
  rfl

theorem consequenceOf_of_cons {keyword : Token} {first second rest : List Token}
    {condition : Expr} {body : List Stmt}
    (hrest : cursor.rest = keyword :: first ++ (second ++ rest))
    (hcondition : Condition cursor.depth first condition)
    (hbody : Block cursor.depth cursor.inFunction second body) :
  consequenceOf block cursor = .ok (.conditional condition body) (cursor.withRest rest)
  := by
  apply ok_bind (advance_of_cons hrest)
  apply ok_bind (complete_condition (hvalid.withRest _) rfl hcondition trivial)
  apply ok_bind (hblock .conditional (hvalid.withRest _) rfl ⟨hlevels, hbody⟩ trivial)
  rfl

theorem alternativeOf_of_cons {keyword : Token} {tokens rest : List Token} {body : List Stmt}
    (hrest : cursor.rest = keyword :: (tokens ++ rest)) (hkeyword : keyword.kind = .sino)
    (hbody : Block cursor.depth cursor.inFunction tokens body) :
  alternativeOf block cursor = .ok [.alternative body] (cursor.withRest rest)
  := by
  rw [alternativeOf, kind_bind, if_pos ((Cursor.kind_of_cons hrest).trans hkeyword)]
  apply ok_bind (advance_of_cons hrest)
  apply ok_bind (hblock .conditional (hvalid.withRest _) rfl ⟨hlevels, hbody⟩ trivial)
  rfl

omit hblock hvalid hlevels in
theorem alternativeOf_of_ne (h : cursor.kind ≠ .sino) :
  alternativeOf block cursor = .ok [] cursor
  := by
  rw [alternativeOf, kind_bind, if_neg h]
  rfl

/-- A statement is read, and with it a semicolon after a call that needs none. -/
theorem stmtOf_of_statement {inFunction : Bool} {tokens rest : List Token} {stmts : List Stmt}
    (hfunction : cursor.inFunction = inFunction)
    (h : Statement cursor.depth inFunction tokens stmts) (hrest : cursor.rest = tokens ++ rest)
    (hnext : (cursor.withRest rest).kind ≠ .sino) :
  ∃ rest', (rest' = rest ∨ ∃ ending, rest = ending :: rest' ∧ ending.kind = .semicolon)
    ∧ whole (stmtOf block) cursor = .ok stmts (cursor.withRest rest')
  := by
  simp only [whole_eq_ok_iff, stmtOf, get_bind]
  cases h with
  | declaration htype hname hsign hvalue hending =>
    rw [List.append_assoc] at hrest
    use rest, .inl rfl
    rw [Cursor.kind_of_cons hrest, htype]
    exact keeping_single_eq_ok_iff.mpr
      ⟨_, rfl, declaration_of_cons hvalid hrest hname hsign hvalue hending⟩
  | assignment hname hsign hvalue hending =>
    rw [List.append_assoc] at hrest
    use rest, .inl rfl
    rw [Cursor.kind_of_cons hrest, hname]
    refine keeping_single_eq_ok_iff.mpr ⟨_, rfl, ?_⟩
    apply ok_bind (advance_of_cons hrest)
    rw [kind_bind, if_pos ((Cursor.kind_of_cons rfl).trans hsign)]
    apply assignment_of_cons (hvalid.withRest _) rfl hsign hvalue hending
  | call hname h =>
    rw [Cursor.kind_of_cons hrest, hname]
    by_cases hkind : (cursor.withRest rest).kind = .semicolon
    · obtain ⟨ending, rest', rfl, hending⟩ :=
        Cursor.rest_eq_of_kind (hvalid.withRest rest) (by simp [hkind])
      use rest', .inr ⟨ending, rfl, hending.trans hkind⟩
      refine keeping_single_eq_ok_iff.mpr ⟨_, rfl, ?_⟩
      apply named_of_arguments hrest h
      apply call_of_semicolon (hvalid.withRest _) rfl h (hending.trans hkind)
    · use rest, .inl rfl
      refine keeping_single_eq_ok_iff.mpr ⟨_, rfl, ?_⟩
      apply named_of_arguments hrest h
      apply call_of_ne (hvalid.withRest _) rfl h hkind
  | callEnded hname h hending =>
    rw [List.append_assoc] at hrest
    use rest, .inl rfl
    rw [Cursor.kind_of_cons hrest, hname]
    refine keeping_single_eq_ok_iff.mpr ⟨_, rfl, ?_⟩
    apply named_of_arguments hrest h
    apply call_of_semicolon (hvalid.withRest _) rfl h hending
  | conditional hkeyword hcondition hbody =>
    subst hfunction
    rw [List.append_assoc] at hrest
    use rest, .inl rfl
    rw [Cursor.kind_of_cons hrest, hkeyword]
    apply ok_bind (keeping_eq_ok_iff.mpr
      (consequenceOf_of_cons hblock hvalid hlevels hrest hcondition hbody))
    apply ok_bind (keeping_eq_ok_iff.mpr (alternativeOf_of_ne hnext))
    rfl
  | @alternative _ _ keyword otherwise first second third _ _ _ hkeyword hcondition hbody
      hotherwise hother =>
    subst hfunction
    have hvalid' := hvalid.withRest (otherwise :: (third ++ rest))
    simp only [List.append_assoc, List.cons_append] at hrest
    use rest, .inl rfl
    rw [Cursor.kind_of_cons hrest, hkeyword]
    apply ok_bind (keeping_eq_ok_iff.mpr
      (consequenceOf_of_cons hblock hvalid hlevels hrest hcondition hbody))
    apply ok_bind (keeping_eq_ok_iff.mpr
      (alternativeOf_of_cons hblock hvalid' hlevels rfl hotherwise hother))
    rfl
  | loop hkeyword hcondition hbody =>
    subst hfunction
    rw [List.append_assoc] at hrest
    use rest, .inl rfl
    rw [Cursor.kind_of_cons hrest, hkeyword]
    exact keeping_single_eq_ok_iff.mpr
      ⟨_, rfl, loopOf_of_cons hblock hvalid hlevels hrest hcondition hbody⟩
  | function hkeyword hname hparameters hbody =>
    rw [List.append_assoc] at hrest
    use rest, .inl rfl
    rw [Cursor.kind_of_cons hrest, hkeyword]
    exact keeping_single_eq_ok_iff.mpr
      ⟨_, rfl, functionOf_of_cons hblock hvalid hlevels hrest hname hparameters hbody⟩
  | result hkeyword hvalue hending =>
    rw [List.append_assoc] at hrest
    use rest, .inl rfl
    rw [Cursor.kind_of_cons hrest, hkeyword]
    exact keeping_single_eq_ok_iff.mpr
      ⟨_, rfl, result_of_cons hvalid hfunction hrest hvalue hending⟩
  | empty hending =>
    use rest, .inl rfl
    rw [Cursor.kind_of_cons hrest, hending]
    apply keeping_eq_ok_iff.mpr
    apply ok_bind (advance_of_cons hrest)
    rfl

end

/-! ### Blocks and programs -/

/-- The reader finds the statements one after the other on the way between the two cursors.  It
never starts at a closing curly bracket or at the end of the input, and always passes a token. -/
inductive Runs (read : Read (List Stmt)) : Cursor → List Stmt → Cursor → Prop where
  | nil {cursor : Cursor} : Runs read cursor [] cursor
  | cons {cursor next last : Cursor} {stmts others : List Stmt}
      (hclose : cursor.kind ≠ .closeCurly) (hend : cursor.kind ≠ .endOfInput)
      (hread : read cursor = .ok stmts next) (hlength : next.rest.length < cursor.rest.length)
      (hothers : Runs read next others last) :
      Runs read cursor (stmts ++ others) last

theorem Runs.length_le {read : Read (List Stmt)} {cursor last : Cursor} {body : List Stmt}
    (h : Runs read cursor body last) :
  last.rest.length ≤ cursor.rest.length
  := by
  induction h with
  | nil => apply Nat.le_refl
  | cons _ _ _ hlength _ ih => omega

theorem Runs.stmtsToClose {read : Read (List Stmt)} {cursor last : Cursor} {body : List Stmt}
    (h : Runs read cursor body last) (hlast : last.kind = .closeCurly) :
  ∀ {count : Nat}, cursor.rest.length < count + last.rest.length →
    stmtsToClose read count cursor = .ok body last
  := by
  induction h with
  | nil =>
    intro count hcount
    obtain ⟨count, rfl⟩ : ∃ n, count = n + 1 := ⟨count - 1, by omega⟩
    apply stmtsToClose_of_close hlast
  | cons hclose hend hread hlength hothers ih =>
    intro count hcount
    have hle := hothers.length_le
    obtain ⟨count, rfl⟩ : ∃ n, count = n + 1 := ⟨count - 1, by omega⟩
    rw [stmtsToClose_of_other hclose hend]
    apply ok_bind hread
    apply ok_bind (ih hlast (by omega))
    rfl

theorem Runs.stmtsToEnd {read : Read (List Stmt)} {cursor last : Cursor} {body : List Stmt}
    (h : Runs read cursor body last) (hlast : last.rest = []) :
  ∀ {count : Nat}, cursor.rest.length ≤ count → stmtsToEnd read count cursor = .ok body last
  := by
  induction h with
  | nil =>
    intro count _
    cases count with
    | zero => rfl
    | succ count =>
      rw [Read.stmtsToEnd, get_bind, if_pos (by simp [Cursor.atEnd, hlast])]
      rfl
  | @cons cursor _ _ _ _ _ _ hread hlength _ ih =>
    intro count hcount
    obtain ⟨count, rfl⟩ : ∃ n, count = n + 1 := ⟨count - 1, by omega⟩
    have hne : cursor.rest ≠ [] := List.ne_nil_of_length_pos (by omega)
    rw [Read.stmtsToEnd, get_bind, if_neg (by simpa [Cursor.atEnd] using hne)]
    apply ok_bind hread
    apply ok_bind (ih hlast (by omega))
    rfl

/-- The reader finds the statements that the tokens before the rest spell.  With the last of them it
may pass a semicolon that stands first in the rest.  When the first of the tokens is a semicolon, it
finds the statements after it as well, which makes up for a semicolon that was taken as part of a
call. -/
structure RunsOver (read : Read (List Stmt)) (cursor : Cursor) (tokens rest : List Token)
    (body : List Stmt) : Prop where
  runs : ∃ rest', (rest' = rest ∨ ∃ ending, rest = ending :: rest' ∧ ending.kind = .semicolon)
    ∧ Runs read (cursor.withRest (tokens ++ rest)) body (cursor.withRest rest')
  after_semicolon : ∀ {ending : Token} {others : List Token}, tokens = ending :: others →
    ending.kind = .semicolon →
    ∃ rest', (rest' = rest ∨ ∃ ending, rest = ending :: rest' ∧ ending.kind = .semicolon)
      ∧ Runs read (cursor.withRest (others ++ rest)) body (cursor.withRest rest')

theorem runsOver_nil {read : Read (List Stmt)} {cursor : Cursor} {rest : List Token} :
  RunsOver read cursor [] rest []
  := by
  constructor
  case runs => exact ⟨rest, .inl rfl, Runs.nil⟩
  case after_semicolon =>
    intro _ _ h
    simp at h

/-- The reader stops at a token that starts no statement. -/
theorem RunsOver.runs_of_invalid {read : Read (List Stmt)} {cursor : Cursor}
    {tokens rest : List Token} {body : List Stmt} (h : RunsOver read cursor tokens rest body)
    (hnext : (cursor.withRest rest).kind.form = .invalid) :
  Runs read (cursor.withRest (tokens ++ rest)) body (cursor.withRest rest)
  := by
  obtain ⟨rest', rfl | ⟨ending, rfl, hending⟩, hruns⟩ := h.runs
  · exact hruns
  · rw [Cursor.kind_of_cons rfl, hending] at hnext
    simp [Kind.form] at hnext

theorem ne_sino_of_invalid {kind : Kind} (h : kind.form = .invalid) :
  kind ≠ .sino
  := by
  rintro rfl
  simp [Kind.form] at h

/-- Where no alternative follows statements, none stands at their start. -/
theorem kind_ne_sino {depth : Nat} {inFunction : Bool} {tokens rest : List Token}
    {body : List Stmt} (h : Statements depth inFunction tokens body) {cursor : Cursor}
    (hnext : (cursor.withRest rest).kind ≠ .sino) :
  (cursor.withRest (tokens ++ rest)).kind ≠ .sino
  := by
  obtain rfl | hstarts := h.eq_nil_or_starts
  · exact hnext
  · obtain ⟨token, tokens', heq, htoken⟩ := hstarts.append rest
    rw [heq, Cursor.kind_of_cons rfl]
    intro hkind
    simp [StartsStatement, hkind, Kind.form] at htoken

/-- A statement is found before the statements that follow it. -/
theorem RunsOver.cons {block : Scope → Read (List Stmt)} {levels : Nat}
    (hblock : CompleteBlock block levels) {cursor : Cursor} (hvalid : cursor.Valid)
    {depth : Nat} (hdepth : cursor.depth = depth) (hlevels : maxDepth < levels + depth)
    {inFunction : Bool} (hfunction : cursor.inFunction = inFunction)
    {first second rest : List Token} {stmts others : List Stmt}
    (h : Statement depth inFunction first stmts) (hs : Statements depth inFunction second others)
    (hnext : (cursor.withRest rest).kind ≠ .sino)
    (hruns : RunsOver (whole (stmtOf block)) cursor second rest others) :
  RunsOver (whole (stmtOf block)) cursor (first ++ second) rest (stmts ++ others)
  := by
  subst hdepth
  obtain ⟨token, first, rfl, htoken⟩ := h.starts
  constructor
  case runs =>
    obtain ⟨rest₁, hrest₁, hread⟩ := stmtOf_of_statement hblock
      (hvalid.withRest (token :: first ++ (second ++ rest))) hlevels hfunction h rfl
      (kind_ne_sino hs hnext)
    have hlength : rest₁.length ≤ (second ++ rest).length := by
      obtain rfl | ⟨ending, heq, _⟩ := hrest₁
      · apply Nat.le_refl
      · simp [heq]
    obtain ⟨rest', hrest', hothers⟩ : ∃ rest', (rest' = rest
          ∨ ∃ ending, rest = ending :: rest' ∧ ending.kind = .semicolon)
        ∧ Runs (whole (stmtOf block)) (cursor.withRest rest₁) others (cursor.withRest rest') := by
      obtain rfl | ⟨ending, heq, hending⟩ := hrest₁
      · apply hruns.runs
      · cases second with
        | nil =>
          obtain rfl := hs.eq_nil
          exact ⟨rest₁, .inr ⟨ending, heq, hending⟩, Runs.nil⟩
        | cons ending' second =>
          obtain ⟨rfl, rfl⟩ := List.cons.inj heq
          apply hruns.after_semicolon rfl hending
    use rest', hrest'
    rw [List.append_assoc]
    apply Runs.cons _ _ hread _ hothers
    · intro hkind
      rw [List.cons_append, Cursor.kind_of_cons rfl] at hkind
      simp [StartsStatement, hkind, Kind.form] at htoken
    · intro hkind
      rw [List.cons_append, Cursor.kind_of_cons rfl] at hkind
      simp [StartsStatement, hkind, Kind.form] at htoken
    · simp only [Cursor.rest_withRest, List.cons_append, List.length_cons, List.length_append]
        at hlength ⊢
      omega
  case after_semicolon =>
    intro ending others' heq hending
    obtain ⟨rfl, rfl⟩ := List.cons.inj heq
    obtain ⟨rfl, rfl⟩ := h.eq_of_semicolon hending
    apply hruns.runs

/-- Statements before a token that starts no alternative are found one after the other. -/
theorem runsOver_of_statements {block : Scope → Read (List Stmt)} {levels : Nat}
    (hblock : CompleteBlock block levels) {cursor : Cursor} (hvalid : cursor.Valid)
    {depth : Nat} (hdepth : cursor.depth = depth) (hlevels : maxDepth < levels + depth)
    {inFunction : Bool} (hfunction : cursor.inFunction = inFunction) {rest : List Token}
    (hnext : (cursor.withRest rest).kind ≠ .sino) :
  ∀ {tokens : List Token} {body : List Stmt}, Statements depth inFunction tokens body →
    RunsOver (whole (stmtOf block)) cursor tokens rest body
  | _, _, .nil => runsOver_nil
  | _, _, .cons h hs =>
      .cons hblock hvalid hdepth hlevels hfunction h hs hnext
        (runsOver_of_statements hblock hvalid hdepth hlevels hfunction hnext hs)

theorem complete_blockWithin (levels : Nat) :
  CompleteBlock (blockWithin levels) levels
  := by
  induction levels with
  | zero =>
    intro scope cursor tokens rest body hvalid _ ⟨hlevels, _⟩ _
    have := hvalid.depth_le
    omega
  | succ levels ih =>
    intro scope cursor tokens rest body hvalid hrest ⟨hlevels, h⟩ _
    cases h with
    | @mk _ _ opening closing tokens _ hdepth hopening h hclosing =>
      rw [List.append_assoc] at hrest
      have hrest : (cursor.within scope).rest = opening :: (tokens ++ closing :: rest) := hrest
      have hnext : ((cursor.within scope).withRest (closing :: rest)).kind.form = .invalid := by
        rw [Cursor.kind_of_cons rfl, hclosing]
        rfl
      have hwithin : (cursor.within scope).depth = cursor.depth + 1 := rfl
      have hruns := (runsOver_of_statements ih (hvalid.within hdepth scope) hwithin (by omega)
        (Cursor.inFunction_within _ _) (ne_sino_of_invalid hnext) h).runs_of_invalid hnext
      have hbody := hruns.stmtsToClose ((Cursor.kind_of_cons rfl).trans hclosing)
        (show _ < (tokens ++ closing :: rest).length + _ by simp)
      apply ok_bind (enterScope_of_lt hdepth)
      apply ok_bind (expect_of_cons hrest hopening)
      apply ok_bind hbody
      have hexit : exitScope ((cursor.within scope).withRest (closing :: rest))
          = .ok () (cursor.withRest (closing :: rest)) := rfl
      apply ok_bind hexit
      apply ok_bind (expect_of_cons rfl hclosing)
      rfl

/-- Whatever the tokens before the end spell is read as a program. -/
theorem program_of_derives {cursor : Cursor} {program : Program} (hvalid : cursor.Valid)
    (hdepth : cursor.depth = 0) (hfunction : cursor.inFunction = false)
    (h : Derives cursor.rest program) :
  Read.program cursor = .ok program (cursor.withRest [])
  := by
  have hnil : (cursor.withRest []).kind.form = .invalid := by
    rw [hvalid.kind_nil]
    rfl
  have hruns := (runsOver_of_statements (complete_blockWithin (maxDepth + 1)) hvalid hdepth
    (by omega) hfunction (ne_sino_of_invalid hnil) h).runs_of_invalid hnil
  rw [List.append_nil, Cursor.withRest_rest] at hruns
  have hget : (get : Read Cursor) cursor = .ok cursor cursor := rfl
  apply ok_bind hget
  apply ok_bind (hruns.stmtsToEnd rfl (Nat.le_refl _))
  rfl

end Read

namespace Grammar

/-- A call before a semicolon can be derived as one statement, and as a call and an empty
statement. -/
theorem Statement.call_and_empty {depth : Nat} {inFunction : Bool} {name ending : Token}
    {tokens : List Token} {list : List Expr} (hname : name.kind = .identifier)
    (h : Arguments depth tokens list) (hending : ending.kind = .semicolon) :
  Statement depth inFunction (name :: tokens ++ [ending]) [.call name.value list]
    ∧ Statement depth inFunction (name :: tokens) [.call name.value list]
    ∧ Statement depth inFunction [ending] []
  := ⟨.callEnded hname h hending, .call hname h, .empty hending⟩

theorem ofTokens_eq_ok_iff {tokens : List Token} {program : Program} :
  Program.ofTokens tokens = .ok program
    ↔ Derives (tokens.takeWhile (!·.isEnd)) program
  := by
  have hvalid := Cursor.valid_ofTokens tokens
  constructor
  · intro h
    rw [Program.ofTokens] at h
    split at h
    · rename_i hread
      obtain rfl := Except.ok.inj h
      apply Read.derives_of_program hvalid rfl rfl hread
    · simp at h
  · intro h
    rw [Program.ofTokens, Read.program_of_derives hvalid rfl rfl h]

/-- Tokens that spell a program are read as the program, since none of them is an end of the
input. -/
theorem Derives.ofTokens_eq {tokens : List Token} {program : Program}
    (h : Derives tokens program) :
  Program.ofTokens tokens = .ok program
  := by
  apply ofTokens_eq_ok_iff.mpr
  rwa [List.takeWhile_eq_self_iff.mpr]
  intro token htoken
  simpa [Token.isEnd] using Statements.inside h token htoken

/-- A list of tokens is read as a program exactly when the tokens before its first end of the input
spell the program.  The program is the only one that they spell, although there are two ways to
derive a call before a semicolon. -/
theorem reads_iff_derives_uniquely (tokens : List Token) :
  (∀ program, Program.ofTokens tokens = .ok program
      ↔ Derives (tokens.takeWhile (!·.isEnd)) program)
    ∧ (∀ program other, Derives (tokens.takeWhile (!·.isEnd)) program →
        Derives (tokens.takeWhile (!·.isEnd)) other → program = other)
    ∧ (∀ depth inFunction name arguments list ending, name.kind = .identifier →
        Arguments depth arguments list → ending.kind = .semicolon →
        Statement depth inFunction (name :: arguments ++ [ending]) [.call name.value list]
          ∧ Statement depth inFunction (name :: arguments) [.call name.value list]
          ∧ Statement depth inFunction [ending] [])
  := by
  and_intros
  · intro program
    apply ofTokens_eq_ok_iff
  · intro program other hprogram hother
    have h := ofTokens_eq_ok_iff.mpr hprogram
    rw [ofTokens_eq_ok_iff.mpr hother] at h
    exact (Except.ok.inj h).symm
  · intro depth inFunction name arguments list ending hname h hending
    apply Statement.call_and_empty hname h hending

/-- A call before a semicolon is read as the one program that it spells. -/
theorem derives_call_before_semicolon :
  Derives ([⟨.identifier, "f", default⟩, ⟨.openParen, "(", default⟩, ⟨.closeParen, ")", default⟩,
    ⟨.semicolon, ";", default⟩, ⟨.endOfInput, "", default⟩].takeWhile (!·.isEnd)) ⟨[.call "f" []]⟩
  := ((reads_iff_derives_uniquely _).1 _).mp rfl

end Grammar

end Mientras
