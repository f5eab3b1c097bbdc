import Mathlib.Tactic.Common
import Mientras.Tree.Read.Stmt

/-!
# Readers that succeed

A reader succeeds from one cursor to another.  The lemmas of this module say, for each of the
readers that others are built from, from where to where it succeeds and with which value.  Between
the two cursors only the tokens that are left change, which `cursor.withRest rest` expresses, and
the number of what is open.  Every cursor over a list of tokens is `Valid`, and no reader makes it
otherwise.
-/

namespace Mientras

theorem Kind.atom?_eq_name_iff {kind : Kind} :
  kind.atom? = some .name ↔ kind = .identifier
  := by
  cases kind <;> simp [Kind.atom?]

namespace Cursor

/-- The cursor where `rest` is left. -/
def withRest (cursor : Cursor) (rest : List Token) : Cursor :=
  { cursor with rest }

/-- The cursor with one more block, group or argument list open. -/
def nested (cursor : Cursor) : Cursor :=
  { cursor with depth := cursor.depth + 1 }

/-- The cursor in a block of the given scope. -/
def within (cursor : Cursor) (scope : Scope) : Cursor :=
  { cursor.nested with scopes := scope :: cursor.scopes }

/-- The token at the end is an end of the input, and no more is open than may be. -/
structure Valid (cursor : Cursor) : Prop where
  closed : cursor.stop.kind = .endOfInput
  depth_le : cursor.depth ≤ maxDepth

theorem valid_ofTokens (tokens : List Token) :
  (ofTokens tokens).Valid
  where
  closed := by simpa [ofTokens, Token.isEnd] using isEnd_stopOf tokens
  depth_le := Nat.zero_le _

section

variable (cursor : Cursor) (rest : List Token) (scope : Scope)

@[simp]
theorem rest_withRest :
  (cursor.withRest rest).rest = rest
  := rfl

@[simp]
theorem depth_withRest :
  (cursor.withRest rest).depth = cursor.depth
  := rfl

@[simp]
theorem inFunction_withRest :
  (cursor.withRest rest).inFunction = cursor.inFunction
  := rfl

@[simp]
theorem withRest_withRest (rest' : List Token) :
  (cursor.withRest rest).withRest rest' = cursor.withRest rest'
  := rfl

@[simp]
theorem withRest_rest :
  cursor.withRest cursor.rest = cursor
  := rfl

@[simp]
theorem rest_nested :
  cursor.nested.rest = cursor.rest
  := rfl

@[simp]
theorem rest_within :
  (cursor.within scope).rest = cursor.rest
  := rfl

@[simp]
theorem depth_within :
  (cursor.within scope).depth = cursor.depth + 1
  := rfl

@[simp]
theorem inFunction_within :
  (cursor.within scope).inFunction = (scope == .function || cursor.inFunction)
  := by
  cases scope <;> rfl

end

theorem Valid.withRest {cursor : Cursor} (h : cursor.Valid) (rest : List Token) :
  (cursor.withRest rest).Valid
  := ⟨h.closed, h.depth_le⟩

theorem Valid.kind_nil {cursor : Cursor} (h : cursor.Valid) :
  (cursor.withRest []).kind = .endOfInput
  := h.closed

theorem Valid.nested {cursor : Cursor} (h : cursor.Valid) (hdepth : cursor.depth < maxDepth) :
  cursor.nested.Valid
  := ⟨h.closed, hdepth⟩

theorem Valid.within {cursor : Cursor} (h : cursor.Valid) (hdepth : cursor.depth < maxDepth)
    (scope : Scope) :
  (cursor.within scope).Valid
  := ⟨h.closed, hdepth⟩

theorem kind_of_cons {cursor : Cursor} {token : Token} {rest : List Token}
    (h : cursor.rest = token :: rest) :
  cursor.kind = token.kind
  := by
  simp [kind, current, h]

/-- A token that is no end of the input is the next of those that are left. -/
theorem rest_eq_of_kind {cursor : Cursor} (hvalid : cursor.Valid) (h : cursor.kind ≠ .endOfInput) :
  ∃ token rest, cursor.rest = token :: rest ∧ token.kind = cursor.kind
  := by
  cases hrest : cursor.rest with
  | nil =>
    rw [kind, current, hrest] at h
    exact absurd hvalid.closed h
  | cons token rest =>
    use token, rest, rfl
    apply (kind_of_cons hrest).symm

end Cursor

namespace Read

variable {α β ε σ : Type}

/-! ### Readers in sequence -/

theorem bind_eq_ok_iff {x : EStateM ε σ α} {f : α → EStateM ε σ β} {s s' : σ} {b : β} :
  (x >>= f) s = .ok b s' ↔ ∃ a s₁, x s = .ok a s₁ ∧ f a s₁ = .ok b s'
  := by
  change EStateM.bind x f s = _ ↔ _
  rw [EStateM.bind]
  cases x s with
  | ok a s₁ =>
    constructor
    · intro h
      use a, s₁
    · rintro ⟨_, _, h, hf⟩
      obtain ⟨rfl, rfl⟩ := EStateM.Result.ok.inj h
      apply hf
  | error e s₁ => simp

theorem bind_of_ok {x : EStateM ε σ α} {f : α → EStateM ε σ β} {s s₁ : σ} {a : α}
    (h : x s = .ok a s₁) :
  (x >>= f) s = f a s₁
  := by
  change EStateM.bind x f s = _
  rw [EStateM.bind, h]

theorem bind_of_error {x : EStateM ε σ α} {f : α → EStateM ε σ β} {s s₁ : σ} {e : ε}
    (h : x s = .error e s₁) :
  (x >>= f) s = .error e s₁
  := by
  change EStateM.bind x f s = _
  rw [EStateM.bind, h]

/-- A reader that succeeds is followed by another. -/
theorem ok_bind {x : EStateM ε σ α} {f : α → EStateM ε σ β} {s s₁ s₂ : σ} {a : α} {b : β}
    (h : x s = .ok a s₁) (hf : f a s₁ = .ok b s₂) :
  (x >>= f) s = .ok b s₂
  := (bind_of_ok h).trans hf

theorem pure_eq_ok_iff {s s' : σ} {a b : α} :
  (pure a : EStateM ε σ α) s = .ok b s' ↔ a = b ∧ s = s'
  := by
  change EStateM.Result.ok a s = .ok b s' ↔ _
  simp

@[simp]
theorem get_bind {f : σ → EStateM ε σ β} {s : σ} :
  (get >>= f) s = f s s
  := rfl

@[simp]
theorem kind_bind {f : Kind → Read β} {cursor : Cursor} :
  (kind >>= f) cursor = f cursor.kind cursor
  := rfl

/-! ### Single tokens -/

@[simp]
theorem fail_ne_ok {cause : Token → Cause} {cursor cursor' : Cursor} {a : α} :
  fail cause cursor ≠ .ok a cursor'
  := by
  simp [fail]

@[simp]
theorem unexpected_ne_ok {expected : String} {cursor cursor' : Cursor} {a : α} :
  unexpected expected cursor ≠ .ok a cursor'
  := fail_ne_ok

theorem advance_of_cons {cursor : Cursor} {token : Token} {rest : List Token}
    (h : cursor.rest = token :: rest) :
  advance cursor = .ok token (cursor.withRest rest)
  := by
  simp [advance, h, Cursor.withRest]

theorem expectAs_of_cons {kind : Kind} {expected : String} {cursor : Cursor} {token : Token}
    {rest : List Token} (h : cursor.rest = token :: rest) (hkind : token.kind = kind) :
  expectAs kind expected cursor = .ok token (cursor.withRest rest)
  := by
  rw [expectAs, kind_bind, if_pos ((Cursor.kind_of_cons h).trans hkind), advance_of_cons h]

/-- A token is passed exactly when it has the expected kind. -/
theorem expectAs_eq_ok_iff {kind : Kind} {expected : String} {cursor cursor' : Cursor}
    {token : Token} (hvalid : cursor.Valid) (hkind : kind ≠ .endOfInput) :
  expectAs kind expected cursor = .ok token cursor'
    ↔ ∃ rest, cursor.rest = token :: rest ∧ token.kind = kind ∧ cursor' = cursor.withRest rest
  := by
  constructor
  · intro h
    rw [expectAs, kind_bind] at h
    split at h
    · rename_i hk
      obtain ⟨next, rest, hrest, hnext⟩ := Cursor.rest_eq_of_kind hvalid (hk ▸ hkind)
      rw [advance_of_cons hrest] at h
      obtain ⟨rfl, rfl⟩ := EStateM.Result.ok.inj h
      exact ⟨rest, hrest, hnext.trans hk, rfl⟩
    · exact absurd h unexpected_ne_ok
  · rintro ⟨rest, hrest, htoken, rfl⟩
    apply expectAs_of_cons hrest htoken

/-- What follows an expected token goes on after it. -/
theorem expectAs_bind_eq_ok_iff {kind : Kind} {expected : String} {f : Token → Read β}
    {cursor cursor' : Cursor} {b : β} (hvalid : cursor.Valid) (hkind : kind ≠ .endOfInput) :
  (expectAs kind expected >>= f) cursor = .ok b cursor'
    ↔ ∃ token rest, cursor.rest = token :: rest ∧ token.kind = kind
        ∧ f token (cursor.withRest rest) = .ok b cursor'
  := by
  rw [bind_eq_ok_iff]
  constructor
  · rintro ⟨token, _, h, hf⟩
    obtain ⟨rest, hrest, htoken, rfl⟩ := (expectAs_eq_ok_iff hvalid hkind).mp h
    exact ⟨token, rest, hrest, htoken, hf⟩
  · rintro ⟨token, rest, hrest, htoken, hf⟩
    use token, cursor.withRest rest
    exact ⟨expectAs_of_cons hrest htoken, hf⟩

theorem expect_bind_eq_ok_iff {kind : Kind} {f : Token → Read β} {cursor cursor' : Cursor} {b : β}
    (hvalid : cursor.Valid) (hkind : kind ≠ .endOfInput) :
  (expect kind >>= f) cursor = .ok b cursor'
    ↔ ∃ token rest, cursor.rest = token :: rest ∧ token.kind = kind
        ∧ f token (cursor.withRest rest) = .ok b cursor'
  := expectAs_bind_eq_ok_iff hvalid hkind

theorem expect_of_cons {kind : Kind} {cursor : Cursor} {token : Token} {rest : List Token}
    (h : cursor.rest = token :: rest) (hkind : token.kind = kind) :
  expect kind cursor = .ok token (cursor.withRest rest)
  := expectAs_of_cons h hkind

/-! ### Nesting -/

theorem nest_of_lt {cursor : Cursor} (h : cursor.depth < maxDepth) :
  nest cursor = .ok () cursor.nested
  := if_pos h

theorem nest_bind_eq_ok_iff {f : Unit → Read β} {cursor cursor' : Cursor} {b : β} :
  (nest >>= f) cursor = .ok b cursor'
    ↔ cursor.depth < maxDepth ∧ f () cursor.nested = .ok b cursor'
  := by
  rw [bind_eq_ok_iff]
  constructor
  · rintro ⟨_, _, h, hf⟩
    rw [nest] at h
    split at h
    · rename_i hdepth
      obtain ⟨rfl, rfl⟩ := EStateM.Result.ok.inj h
      exact ⟨hdepth, hf⟩
    · exact absurd h fail_ne_ok
  · rintro ⟨hdepth, hf⟩
    use (), cursor.nested, nest_of_lt hdepth

theorem enterScope_bind_eq_ok_iff {scope : Scope} {f : Unit → Read β} {cursor cursor' : Cursor}
    {b : β} :
  (enterScope scope >>= f) cursor = .ok b cursor'
    ↔ cursor.depth < maxDepth ∧ f () (cursor.within scope) = .ok b cursor'
  := by
  rw [enterScope, bind_assoc, nest_bind_eq_ok_iff]
  rfl

theorem enterScope_of_lt {scope : Scope} {cursor : Cursor} (h : cursor.depth < maxDepth) :
  enterScope scope cursor = .ok () (cursor.within scope)
  := by
  rw [enterScope, bind_of_ok (nest_of_lt h)]
  rfl

@[simp]
theorem exitScope_bind_within {scope : Scope} {f : Unit → Read β} {cursor : Cursor}
    {rest : List Token} :
  (exitScope >>= f) ((cursor.within scope).withRest rest) = f () (cursor.withRest rest)
  := rfl

/-! ### Loops -/

theorem moreItems_of_comma {item : Read α} {count : Nat} {cursor : Cursor} {comma : Token}
    {rest : List Token} (h : cursor.rest = comma :: rest) (hcomma : comma.kind = .comma) :
  moreItems item (count + 1) cursor = (do
    let first ← item
    let others ← moreItems item count
    return first :: others) (cursor.withRest rest)
  := by
  rw [moreItems, kind_bind, if_pos ((Cursor.kind_of_cons h).trans hcomma),
    bind_of_ok (advance_of_cons h)]

theorem moreItems_of_ne {item : Read α} {count : Nat} {cursor : Cursor}
    (h : cursor.kind ≠ .comma) :
  moreItems item count cursor = .ok [] cursor
  := by
  cases count with
  | zero => rfl
  | succ count =>
    rw [moreItems, kind_bind, if_neg h]
    rfl

theorem itemsInParens_of_close {item : Read α} {cursor : Cursor} {opening closing : Token}
    {rest : List Token} (h : cursor.rest = opening :: closing :: rest)
    (hopening : opening.kind = .openParen) (hclosing : closing.kind = .closeParen) :
  itemsInParens item cursor = .ok [] (cursor.withRest rest)
  := by
  rw [itemsInParens, bind_of_ok (expect_of_cons h hopening), kind_bind,
    if_pos ((Cursor.kind_of_cons rfl).trans hclosing)]
  change (expectAs .closeParen _ >>= fun _ => pure []) _ = _
  rw [bind_of_ok (expectAs_of_cons rfl hclosing)]
  rfl

theorem itemsInParens_of_ne {item : Read α} {cursor : Cursor} {opening : Token}
    {rest : List Token} (h : cursor.rest = opening :: rest) (hopening : opening.kind = .openParen)
    (hne : (cursor.withRest rest).kind ≠ .closeParen) :
  itemsInParens item cursor = (do
    let list ← items item
    let _ ← expectAs .closeParen "`,` or `)`"
    return list) (cursor.withRest rest)
  := by
  rw [itemsInParens, bind_of_ok (expect_of_cons h hopening), kind_bind, if_neg hne]

theorem chain_of_operator {factor : Read Expr} {count : Nat} {left : Expr} {cursor : Cursor}
    {sign : Token} {rest : List Token} (h : cursor.rest = sign :: rest)
    (hsign : sign.kind.isOperator = true) :
  chain factor (count + 1) left cursor = (do
    let right ← factor
    chain factor count (.binary sign.value left right false)) (cursor.withRest rest)
  := by
  rw [chain, kind_bind, if_pos (by rw [Cursor.kind_of_cons h, hsign]),
    bind_of_ok (advance_of_cons h)]

theorem chain_of_not {factor : Read Expr} {count : Nat} {left : Expr} {cursor : Cursor}
    (h : cursor.kind.isOperator = false) :
  chain factor count left cursor = .ok left cursor
  := by
  cases count with
  | zero => rfl
  | succ count =>
    rw [chain, kind_bind, if_neg (by simp [h])]
    rfl

/-! ### Factors -/

theorem factorOf_of_name {inner : Read Expr} {cursor : Cursor} (h : cursor.kind = .identifier) :
  factorOf inner cursor = (advance >>= fun name => do
    if (← kind) = .openParen then
      let list ← argumentsOf inner
      return .call name.value list
    else return .atom .name name.value) cursor
  := by
  rw [factorOf, kind_bind, h]
  rfl

theorem factorOf_of_literal {inner : Read Expr} {cursor : Cursor} {sort : Atom}
    (h : cursor.kind.atom? = some sort) (hsort : sort ≠ .name) :
  factorOf inner cursor = (advance >>= fun token => pure (.atom sort token.value)) cursor
  := by
  rw [factorOf, kind_bind, h]
  cases sort <;> trivial

theorem factorOf_of_none {inner : Read Expr} {cursor : Cursor} (h : cursor.kind.atom? = none) :
  factorOf inner cursor
    = (if cursor.kind = .openParen then groupOf inner else unexpected "an expression") cursor
  := by
  rw [factorOf, kind_bind, h]
  simp only [kind_bind]

/-! ### Statements up to a closing bracket -/

theorem stmtsToClose_of_close {stmts : Read (List Stmt)} {count : Nat} {cursor : Cursor}
    (h : cursor.kind = .closeCurly) :
  stmtsToClose stmts (count + 1) cursor = .ok [] cursor
  := by
  rw [stmtsToClose, kind_bind, h]
  rfl

theorem stmtsToClose_of_end {stmts : Read (List Stmt)} {count : Nat} {cursor : Cursor}
    (h : cursor.kind = .endOfInput) :
  stmtsToClose stmts count cursor = unexpected Kind.closeCurly.description cursor
  := by
  cases count with
  | zero => rfl
  | succ count => rw [stmtsToClose, kind_bind, h]

theorem stmtsToClose_of_other {stmts : Read (List Stmt)} {count : Nat} {cursor : Cursor}
    (hclose : cursor.kind ≠ .closeCurly) (hend : cursor.kind ≠ .endOfInput) :
  stmtsToClose stmts (count + 1) cursor = (do
    let first ← stmts
    let others ← stmtsToClose stmts count
    return first ++ others : Read (List Stmt)) cursor
  := by
  rw [stmtsToClose, kind_bind]
  generalize cursor.kind = kind at hclose hend
  cases kind <;> trivial

/-! ### Failures with statements -/

theorem keeping_eq_ok_iff {kept : List Stmt} {read : Read α} {cursor cursor' : Cursor} {a : α} :
  keeping kept read cursor = .ok a cursor' ↔ read cursor = .ok a cursor'
  := by
  simp only [keeping, EStateM.adaptExcept]
  cases read cursor <;> simp

theorem keeping_single_eq_ok_iff {read : Read Stmt} {cursor next : Cursor} {stmts : List Stmt} :
  keeping [] (do return [← read]) cursor = .ok stmts next
    ↔ ∃ stmt, stmts = [stmt] ∧ read cursor = .ok stmt next
  := by
  rw [keeping_eq_ok_iff]
  constructor
  · intro h
    obtain ⟨stmt, _, hstmt, h⟩ := bind_eq_ok_iff.mp h
    obtain ⟨rfl, rfl⟩ := pure_eq_ok_iff.mp h
    exact ⟨stmt, rfl, hstmt⟩
  · rintro ⟨stmt, rfl, h⟩
    apply ok_bind h
    rfl

theorem whole_eq_ok_iff {read : ReadStmts} {cursor cursor' : Cursor} {stmts : List Stmt} :
  whole read cursor = .ok stmts cursor' ↔ read cursor = .ok stmts cursor'
  := by
  simp only [whole, EStateM.adaptExcept]
  cases read cursor <;> simp

end Read

end Mientras
