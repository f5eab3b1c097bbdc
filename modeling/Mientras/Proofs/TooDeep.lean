import Mathlib.Tactic.Common
import Mientras.Proofs.Nesting
import Mientras.Proofs.Refusal

/-!
# Where too much is open

A reader that fails because too much is open does so at a token before which exactly as much is open
as may be (`too_deep_at_opening`).  The token opens a group or the arguments of a call, or a block
comes next there.  What comes next need not be the bracket of a block, since a block is counted
before its bracket is looked at (`too_deep_at_name`).

The argument follows the readers.  The cursor counts what is open as the brackets show it, at every
token where a reader may fail in this way.
-/

namespace Mientras

namespace Read

open Grammar

variable {α β : Type}

/-- After the tokens, of which the last comes first, as much is open as may be, and at the cursor a
parenthesis opens one more, or a block comes next. -/
structure Full (before : List Token) (last : Cursor) : Prop where
  nesting_eq : nestingAfter before = maxDepth
  opens : last.kind = .openParen ∧ headsBlock before = false ∨ blockIsDue before = true

/-- If the reader fails because too much is open, then as much is open there as may be, where
`before` are the tokens before the cursor. -/
def FullAt (before : List Token) (read : Read α) (cursor : Cursor) : Prop :=
  ∀ ⦃fault : Fault⦄ ⦃last : Cursor⦄ ⦃limit : Nat⦄, read cursor = .error fault last →
    fault.cause = .tooDeep limit →
    ∃ passed, cursor.rest = passed ++ last.rest ∧ Full (passed.reverse ++ before) last

/-- The cursor counts what is open after the tokens. -/
structure Tallies (before : List Token) (cursor : Cursor) : Prop where
  valid : cursor.Valid
  nesting_eq : nestingAfter before = cursor.depth

/-- The reader fails only where as much is open as may be, if it fails because too much is open.
This holds from every cursor with at least `least` open, after tokens with the given property. -/
def FailsFull (least : Nat) (context : List Token → Prop) (read : Read α) : Prop :=
  ∀ ⦃before : List Token⦄ ⦃cursor : Cursor⦄, Tallies before cursor → least ≤ cursor.depth →
    context before → FullAt before read cursor

/-! ### Counting -/

namespace Tallies

variable {before : List Token} {cursor : Cursor} (h : Tallies before cursor)

include h

theorem neutral {tokens : List Token} (htokens : Neutral tokens) (rest : List Token) :
  Tallies (tokens.reverse ++ before) (cursor.withRest rest)
  where
  valid := h.valid.withRest rest
  nesting_eq := by
    rw [nestingAfter, htokens, ← nestingAfter, h.nesting_eq]
    rfl

theorem token {token : Token} (htoken : token.kind.isBracket = false) (rest : List Token) :
  Tallies (token :: before) (cursor.withRest rest)
  := h.neutral (neutral_token htoken) rest

theorem header {opening : Token} (hopening : opening.kind = .openParen)
    (hheads : headsBlock before = true) (rest : List Token) :
  Tallies (opening :: before) (cursor.withRest rest)
  where
  valid := h.valid.withRest rest
  nesting_eq := by
    rw [nestingAfter_header hopening hheads, h.nesting_eq]
    rfl

theorem nested (hdepth : cursor.depth < maxDepth) {opening : Token}
    (hopening : opening.kind = .openParen) (hheads : headsBlock before = false)
    (rest : List Token) :
  Tallies (opening :: before) (cursor.nested.withRest rest)
  where
  valid := (h.valid.nested hdepth).withRest rest
  nesting_eq := by
    rw [nestingAfter_openParen hopening hheads, h.nesting_eq]
    rfl

theorem within (hdepth : cursor.depth < maxDepth) {opening : Token}
    (hopening : opening.kind = .openCurly) (scope : Scope) (rest : List Token) :
  Tallies (opening :: before) ((cursor.within scope).withRest rest)
  where
  valid := (h.valid.within hdepth scope).withRest rest
  nesting_eq := by
    rw [nestingAfter_openCurly hopening, h.nesting_eq]
    rfl

theorem full (hdepth : ¬ cursor.depth < maxDepth)
    (hopens : cursor.kind = .openParen ∧ headsBlock before = false ∨ blockIsDue before = true) :
  Full before cursor
  where
  nesting_eq := by
    rw [h.nesting_eq]
    exact Nat.le_antisymm h.valid.depth_le (Nat.le_of_not_lt hdepth)
  opens := hopens

end Tallies

/-! ### Readers in sequence -/

section

variable {before : List Token} {cursor : Cursor}

theorem FullAt.of_ok {read : Read α} (h : ∃ a next, read cursor = .ok a next) :
  FullAt before read cursor
  := by
  obtain ⟨a, next, h⟩ := h
  intro fault last limit herror
  rw [h] at herror
  cases herror

/-- A reader that passes some tokens, or only counts what it opens, and goes on. -/
theorem FullAt.passing (tokens : List Token) {read chosen : Read α} {next : Cursor}
    (h : read cursor = chosen next) (hrest : cursor.rest = tokens ++ next.rest)
    (hchosen : FullAt (tokens.reverse ++ before) chosen next) :
  FullAt before read cursor
  := by
  intro fault last limit herror hcause
  rw [h] at herror
  obtain ⟨passed, hpassed, hfull⟩ := hchosen herror hcause
  refine ⟨tokens ++ passed, ?_, ?_⟩
  · rw [hrest, List.append_assoc, ← hpassed]
  · rwa [List.reverse_append, List.append_assoc]

theorem FullAt.congr {read chosen : Read α} (h : read cursor = chosen cursor)
    (hchosen : FullAt before chosen cursor) :
  FullAt before read cursor
  := .passing [] h rfl hchosen

theorem FullAt.tail {read chosen : Read α} {token : Token} {rest : List Token}
    (hrest : cursor.rest = token :: rest) (h : read cursor = chosen (cursor.withRest rest))
    (hchosen : FullAt (token :: before) chosen (cursor.withRest rest)) :
  FullAt before read cursor
  := .passing [token] h hrest hchosen

/-- A sequence fails as its first reader does. -/
theorem FullAt.bind_of_error {x : Read β} {f : β → Read α} {fault : Fault} {last : Cursor}
    (h : x cursor = .error fault last) (hx : FullAt before x cursor) :
  FullAt before (x >>= f) cursor
  := by
  intro fault' last' limit herror hcause
  rw [Read.bind_of_error h] at herror
  obtain ⟨rfl, rfl⟩ := EStateM.Result.error.inj herror
  apply hx h hcause

/-- The second reader starts after the tokens that the first passed. -/
theorem FullAt.bind {x : Read β} {f : β → Read α} {part : Nat → Bool → List Token → β → Prop}
    (hvalid : cursor.Valid) (hsound : Sound x part) (hx : FullAt before x cursor)
    (hf : ∀ {first rest : List Token} {b : β}, part cursor.depth cursor.inFunction first b →
      FullAt (first.reverse ++ before) (f b) (cursor.withRest rest)) :
  FullAt before (x >>= f) cursor
  := by
  cases hread : x cursor with
  | error fault last => apply FullAt.bind_of_error hread hx
  | ok b next =>
    obtain ⟨first, rest, hrest, rfl, hb⟩ := hsound hvalid hread
    apply FullAt.passing first (bind_of_ok hread) hrest (hf hb)

theorem FullAt.fail {cause : Token → Cause} (h : ∀ token limit, cause token ≠ .tooDeep limit) :
  FullAt before (fail cause : Read α) cursor
  := by
  intro fault last limit herror hcause
  obtain ⟨rfl, rfl⟩ := EStateM.Result.error.inj herror
  exact absurd hcause (h cursor.current limit)

theorem FullAt.unexpected {expected : String} :
  FullAt before (unexpected expected : Read α) cursor
  := by
  apply FullAt.fail
  intro token limit
  split <;> simp

theorem FullAt.expectAs {kind : Kind} {expected : String} {f : Token → Read α}
    (hvalid : cursor.Valid) (hkind : kind ≠ .endOfInput)
    (hf : ∀ {token : Token} {rest : List Token}, token.kind = kind →
      FullAt (token :: before) (f token) (cursor.withRest rest)) :
  FullAt before (expectAs kind expected >>= f) cursor
  := by
  by_cases hcursor : cursor.kind = kind
  · obtain ⟨token, rest, hrest, htoken⟩ := Cursor.rest_eq_of_kind hvalid (hcursor ▸ hkind)
    have htoken := htoken.trans hcursor
    apply FullAt.tail hrest (bind_of_ok (expectAs_of_cons hrest htoken)) (hf htoken)
  · have hmissing : Read.expectAs kind expected cursor = Read.unexpected expected cursor := by
      rw [Read.expectAs, kind_bind, if_neg hcursor]
    apply FullAt.bind_of_error (hmissing.trans rfl)
    apply FullAt.congr hmissing FullAt.unexpected

theorem FullAt.expect {kind : Kind} {f : Token → Read α} (hvalid : cursor.Valid)
    (hkind : kind ≠ .endOfInput)
    (hf : ∀ {token : Token} {rest : List Token}, token.kind = kind →
      FullAt (token :: before) (f token) (cursor.withRest rest)) :
  FullAt before (expect kind >>= f) cursor
  := .expectAs hvalid hkind hf

/-- A reader that cannot count one more. -/
theorem FullAt.of_full {read : Read α} {fault : Fault} (h : read cursor = .error fault cursor)
    (hfull : Full before cursor) :
  FullAt before read cursor
  := by
  intro fault' last limit herror _
  rw [h] at herror
  obtain ⟨rfl, rfl⟩ := EStateM.Result.error.inj herror
  exact ⟨[], rfl, hfull⟩

/-- The parenthesis at the cursor opens one more. -/
theorem FullAt.nest {f : Unit → Read α} (h : Tallies before cursor)
    (hkind : cursor.kind = .openParen) (hheads : headsBlock before = false)
    (hf : cursor.depth < maxDepth → FullAt before (f ()) cursor.nested) :
  FullAt before (nest >>= f) cursor
  := by
  by_cases hdepth : cursor.depth < maxDepth
  · apply FullAt.passing [] (bind_of_ok (nest_of_lt hdepth)) rfl (hf hdepth)
  · have hdeep : Read.nest cursor = .error _ cursor := if_neg hdepth
    apply FullAt.of_full (Read.bind_of_error hdeep) (h.full hdepth (.inl ⟨hkind, hheads⟩))

end

/-! ### Lists -/

section

variable {least : Nat} {item : Read α} {form : Nat → Bool → List Token → α → Prop}
  (hsound : Sound item form)
  (hneutral : ∀ {depth : Nat} {inFunction : Bool} {tokens : List Token} {a : α},
    form depth inFunction tokens a → Neutral tokens)
  (hitem : FailsFull least Plain item)

include hsound hneutral hitem

/-- A comma begins no header. -/
theorem failsFull_moreItems (count : Nat) :
  FailsFull least (fun _ => True) (moreItems item count)
  := by
  induction count with
  | zero =>
    intro before cursor _ _ _
    apply FullAt.of_ok ⟨_, _, rfl⟩
  | succ count ih =>
    intro before cursor h hleast _
    by_cases hkind : cursor.kind = .comma
    · obtain ⟨comma, rest, hrest, hcomma⟩ := Cursor.rest_eq_of_kind h.valid (by simp [hkind])
      have hcomma := hcomma.trans hkind
      have h := h.token (congrArg Kind.isBracket hcomma) rest
      apply FullAt.tail hrest (moreItems_of_comma hrest hcomma)
      apply FullAt.bind h.valid hsound
        (hitem h hleast (plain_cons (congrArg Kind.isPlain hcomma)))
      intro first rest' second hsecond
      have h := h.neutral (hneutral hsecond) rest'
      apply FullAt.bind h.valid (sound_moreItems hsound count) (ih h hleast trivial)
      intro _ _ others _
      apply FullAt.of_ok ⟨_, _, rfl⟩
    · apply FullAt.of_ok ⟨_, _, moreItems_of_ne hkind⟩

theorem failsFull_items :
  FailsFull least Plain (items item)
  := by
  intro before cursor h hleast hplain
  apply FullAt.bind h.valid hsound (hitem h hleast hplain)
  intro first rest a ha
  have h := h.neutral (hneutral ha) rest
  apply FullAt.congr get_bind
  apply FullAt.bind h.valid (sound_moreItems hsound _)
    (failsFull_moreItems hsound hneutral hitem _ h hleast trivial)
  intro _ _ others _
  apply FullAt.of_ok ⟨_, _, rfl⟩

/-- The parentheses of a list may be counted or not. -/
theorem fullAt_itemsInParens {before : List Token} {cursor : Cursor} (hvalid : cursor.Valid)
    (hleast : least ≤ cursor.depth)
    (h : ∀ {opening : Token} (rest : List Token), opening.kind = .openParen →
      Tallies (opening :: before) (cursor.withRest rest)) :
  FullAt before (itemsInParens item) cursor
  := by
  apply FullAt.expect hvalid (by decide)
  intro opening rest hopening
  have h := h rest hopening
  apply FullAt.congr kind_bind
  split
  · rw [pure_bind]
    apply FullAt.expectAs h.valid (by decide)
    intro closing rest' hclosing
    apply FullAt.of_ok ⟨_, _, rfl⟩
  · apply FullAt.bind h.valid (sound_items hsound)
      (failsFull_items hsound hneutral hitem h hleast
        (plain_cons (congrArg Kind.isPlain hopening)))
    intro inner rest' list _
    apply FullAt.expectAs (h.valid.withRest rest') (by decide)
    intro closing rest'' hclosing
    apply FullAt.of_ok ⟨_, _, rfl⟩

end

/-! ### Expressions -/

section

variable {least : Nat} {inner : Read Expr} (hsound : Sound inner (fun depth _ => Expression depth))
  (hinner : FailsFull (least + 1) Plain inner) {before : List Token} {cursor : Cursor}
  (h : Tallies before cursor) (hleast : least ≤ cursor.depth)

include hsound hinner h hleast

theorem fullAt_groupOf (hkind : cursor.kind = .openParen) (hheads : headsBlock before = false) :
  FullAt before (groupOf inner) cursor
  := by
  apply FullAt.nest h hkind hheads
  intro hdepth
  apply FullAt.expect (h.valid.nested hdepth) (by decide)
  intro opening rest hopening
  have h := h.nested hdepth hopening hheads rest
  apply FullAt.bind h.valid hsound
    (hinner h (Nat.succ_le_succ hleast) (plain_cons (congrArg Kind.isPlain hopening)))
  intro first rest' e _
  apply FullAt.expect (h.valid.withRest rest') (by decide)
  intro closing rest'' _
  apply FullAt.of_ok ⟨_, _, rfl⟩

theorem fullAt_argumentsOf (hkind : cursor.kind = .openParen) (hheads : headsBlock before = false) :
  FullAt before (argumentsOf inner) cursor
  := by
  apply FullAt.nest h hkind hheads
  intro hdepth
  apply FullAt.bind (h.valid.nested hdepth) (sound_itemsInParens hsound)
  · apply fullAt_itemsInParens hsound Expression.neutral hinner (h.valid.nested hdepth)
      (Nat.succ_le_succ hleast)
    intro opening rest hopening
    apply h.nested hdepth hopening hheads
  · intro first rest list _
    apply FullAt.of_ok ⟨_, _, rfl⟩

theorem fullAt_factorOf (hplain : Plain before) :
  FullAt before (factorOf inner) cursor
  := by
  cases hatom : cursor.kind.atom? with
  | none =>
    apply FullAt.congr (factorOf_of_none hatom)
    split
    · rename_i hkind
      apply fullAt_groupOf hsound hinner h hleast hkind hplain.headsBlock_eq
    · apply FullAt.unexpected
  | some sort =>
    obtain ⟨token, rest, hrest, htoken⟩ :=
      Cursor.rest_eq_of_kind h.valid (ne_end_of_atom? hatom)
    by_cases hsort : sort = .name
    · have hname := Kind.atom?_eq_name_iff.mp (hsort ▸ hatom)
      have htoken := htoken.trans hname
      have h := h.token (congrArg Kind.isBracket htoken) rest
      apply FullAt.congr (factorOf_of_name hname)
      apply FullAt.tail hrest (bind_of_ok (advance_of_cons hrest))
      apply FullAt.congr kind_bind
      split
      · rename_i hkind
        apply FullAt.bind h.valid (sound_argumentsOf hsound)
          (fullAt_argumentsOf hsound hinner h hleast hkind (hplain.headsBlock_name htoken))
        intro _ _ list _
        apply FullAt.of_ok ⟨_, _, rfl⟩
      · apply FullAt.of_ok ⟨_, _, rfl⟩
    · apply FullAt.congr (factorOf_of_literal hatom hsort)
      apply FullAt.tail hrest (bind_of_ok (advance_of_cons hrest))
      apply FullAt.of_ok ⟨_, _, rfl⟩

end

section

variable {least : Nat} {factor : Read Expr} (hsound : Sound factor (fun depth _ => Factor depth))
  (hfactor : FailsFull least Plain factor)

include hsound hfactor

theorem failsFull_chain (count : Nat) (left : Expr) :
  FailsFull least (fun _ => True) (chain factor count left)
  := by
  induction count generalizing left with
  | zero =>
    intro before cursor _ _ _
    apply FullAt.of_ok ⟨_, _, rfl⟩
  | succ count ih =>
    intro before cursor h hleast _
    cases hkind : cursor.kind.isOperator with
    | true =>
      obtain ⟨sign, rest, hrest, hsign⟩ :=
        Cursor.rest_eq_of_kind h.valid (ne_end_of_isOperator hkind)
      rw [← hsign] at hkind
      have h := h.token (not_isBracket_of_isOperator hkind) rest
      apply FullAt.tail hrest (chain_of_operator hrest hkind)
      apply FullAt.bind h.valid hsound
        (hfactor h hleast (plain_cons (isPlain_of_isOperator hkind)))
      intro first rest' right hright
      apply ih _ (h.neutral hright.neutral rest') hleast trivial
    | false => apply FullAt.of_ok ⟨_, _, chain_of_not hkind⟩

theorem failsFull_chainOf :
  FailsFull least Plain (chainOf factor)
  := by
  intro before cursor h hleast hplain
  apply FullAt.bind h.valid hsound (hfactor h hleast hplain)
  intro first rest e he
  apply FullAt.congr get_bind
  apply failsFull_chain hsound hfactor _ e (h.neutral he.neutral rest) hleast trivial

end

/-- There are levels enough for all that may be opened. -/
theorem failsFull_exprWithin {levels least : Nat} (hlevels : maxDepth < levels + least) :
  FailsFull least Plain (exprWithin levels)
  := by
  induction levels generalizing least with
  | zero =>
    intro before cursor h hleast _
    have := h.valid.depth_le
    omega
  | succ levels ih =>
    apply failsFull_chainOf (sound_factorOf (sound_exprWithin levels))
    intro before cursor h hleast hplain
    apply fullAt_factorOf (sound_exprWithin levels) (ih (by omega)) h hleast hplain

theorem failsFull_expr :
  FailsFull 0 Plain expr
  := failsFull_exprWithin (Nat.lt_succ_self maxDepth)

/-! ### Statements without a block -/

section

variable {before : List Token} {cursor : Cursor}

/-- A value and then a semicolon make a statement. -/
theorem fullAt_ended (stmt : Expr → Stmt) (h : Tallies before cursor) (hplain : Plain before) :
  FullAt before (do
    let value ← expr
    let _ ← expect .semicolon
    return stmt value) cursor
  := by
  apply FullAt.bind h.valid sound_expr (failsFull_expr h (Nat.zero_le _) hplain)
  intro first rest value _
  apply FullAt.expect (h.valid.withRest rest) (by decide)
  intro ending rest' _
  apply FullAt.of_ok ⟨_, _, rfl⟩

theorem fullAt_assignment (name : String) (h : Tallies before cursor) :
  FullAt before (assignment name) cursor
  := by
  apply FullAt.expect h.valid (by decide)
  intro sign rest hsign
  apply fullAt_ended _ (h.token (congrArg Kind.isBracket hsign) rest)
  apply plain_cons (congrArg Kind.isPlain hsign)

theorem fullAt_call (callee : String) (h : Tallies before cursor)
    (hkind : cursor.kind = .openParen) (hheads : headsBlock before = false) :
  FullAt before (call callee) cursor
  := by
  apply FullAt.bind h.valid (sound_argumentsOf sound_expr)
  · apply fullAt_argumentsOf sound_expr _ h (Nat.zero_le _) hkind hheads
    intro before cursor h _ hplain
    apply failsFull_expr h (Nat.zero_le _) hplain
  · intro first rest list _
    apply FullAt.congr kind_bind
    split
    · rename_i hkind
      obtain ⟨ending, rest', hrest, _⟩ :=
        Cursor.rest_eq_of_kind (h.valid.withRest rest) (by simp [hkind])
      apply FullAt.tail hrest (bind_of_ok (advance_of_cons hrest))
      apply FullAt.of_ok ⟨_, _, rfl⟩
    · apply FullAt.of_ok ⟨_, _, rfl⟩

theorem fullAt_declaration (h : Tallies before cursor) (hkind : cursor.kind = .typeName) :
  FullAt before declaration cursor
  := by
  obtain ⟨type, rest, hrest, htype⟩ := Cursor.rest_eq_of_kind h.valid (by simp [hkind])
  have h := h.token (congrArg Kind.isBracket (htype.trans hkind)) rest
  apply FullAt.tail hrest (bind_of_ok (advance_of_cons hrest))
  apply FullAt.expect h.valid (by decide)
  intro name rest₁ hname
  have h := h.token (congrArg Kind.isBracket hname) rest₁
  apply FullAt.expect h.valid (by decide)
  intro sign rest₂ hsign
  apply fullAt_ended _ (h.token (congrArg Kind.isBracket hsign) rest₂)
  apply plain_cons (congrArg Kind.isPlain hsign)

theorem fullAt_named (h : Tallies before cursor) (hplain : Plain before)
    (hkind : cursor.kind = .identifier) :
  FullAt before named cursor
  := by
  obtain ⟨name, rest, hrest, hname⟩ := Cursor.rest_eq_of_kind h.valid (by simp [hkind])
  have hname := hname.trans hkind
  have h := h.token (congrArg Kind.isBracket hname) rest
  apply FullAt.tail hrest (bind_of_ok (advance_of_cons hrest))
  apply FullAt.congr kind_bind
  split
  · apply fullAt_assignment _ h
  apply FullAt.congr kind_bind
  split
  · rename_i hopening
    apply fullAt_call _ h hopening (hplain.headsBlock_name hname)
  · apply FullAt.unexpected

theorem fullAt_result (h : Tallies before cursor) (hkind : cursor.kind = .retornar) :
  FullAt before result cursor
  := by
  apply FullAt.congr get_bind
  split
  · obtain ⟨keyword, rest, hrest, hkeyword⟩ := Cursor.rest_eq_of_kind h.valid (by simp [hkind])
    have hkeyword := hkeyword.trans hkind
    apply FullAt.tail hrest (bind_of_ok (advance_of_cons hrest))
    apply fullAt_ended _ (h.token (congrArg Kind.isBracket hkeyword) rest)
    apply plain_cons (congrArg Kind.isPlain hkeyword)
  · apply FullAt.fail
    simp

end

/-! ### Statements with a block -/

theorem failsFull_condition :
  FailsFull 0 (headsBlock · = true) condition
  := by
  intro before cursor h _ hheads
  apply FullAt.expect h.valid (by decide)
  intro opening rest hopening
  have h := h.header hopening hheads rest
  apply FullAt.bind h.valid sound_expr
    (failsFull_expr h (Nat.zero_le _) (plain_cons (congrArg Kind.isPlain hopening)))
  intro first rest' e _
  apply FullAt.expect (h.valid.withRest rest') (by decide)
  intro closing rest'' _
  apply FullAt.of_ok ⟨_, _, rfl⟩

theorem failsFull_parameter :
  FailsFull 0 Plain parameter
  := by
  intro before cursor h _ _
  apply FullAt.expect h.valid (by decide)
  intro type rest htype
  apply FullAt.expect (h.valid.withRest rest) (by decide)
  intro name rest' hname
  apply FullAt.of_ok ⟨_, _, rfl⟩

section

variable {least : Nat} {block : Scope → Read (List Stmt)} (hsound : SoundBlock block)
  (hblock : ∀ scope, FailsFull least (blockIsDue · = true) (block scope))
  {before : List Token} {cursor : Cursor} (h : Tallies before cursor)
  (hleast : least ≤ cursor.depth)

include hsound hblock h hleast

/-- A keyword, a condition and a block, and what comes after them. -/
theorem fullAt_headed (scope : Scope) {f : Expr → List Stmt → Read α}
    (hkind : cursor.kind = .si ∨ cursor.kind = .mientras)
    (hf : ∀ (before rest : List Token) (condition : Expr) (body : List Stmt),
      Tallies before (cursor.withRest rest) →
      FullAt before (f condition body) (cursor.withRest rest)) :
  FullAt before (do
    let _ ← advance
    let condition ← condition
    let body ← block scope
    f condition body) cursor
  := by
  obtain ⟨keyword, rest, hrest, hkeyword⟩ := Cursor.rest_eq_of_kind h.valid
    (by rintro hend; simp [hend] at hkind)
  rw [← hkeyword] at hkind
  have hbracket : keyword.kind.isBracket = false := by
    obtain hkind | hkind := hkind <;> rw [hkind] <;> rfl
  have hheads : headsBlock (keyword :: before) = true := by
    obtain hkind | hkind := hkind <;> simp [headsBlock, hkind]
  have h := h.token hbracket rest
  apply FullAt.tail hrest (bind_of_ok (advance_of_cons hrest))
  apply FullAt.bind h.valid sound_condition (failsFull_condition h (Nat.zero_le _) hheads)
  intro first rest₁ condition hcondition
  have h := h.neutral hcondition.neutral rest₁
  apply FullAt.bind h.valid (hsound scope) (hblock scope h hleast (hcondition.blockIsDue hheads))
  intro second rest₂ body hbody
  apply hf _ rest₂ condition body (h.neutral hbody.neutral rest₂)

theorem fullAt_functionOf (hkind : cursor.kind = .funcion) :
  FullAt before (functionOf block) cursor
  := by
  obtain ⟨keyword, rest, hrest, hkeyword⟩ := Cursor.rest_eq_of_kind h.valid (by simp [hkind])
  have hkeyword := hkeyword.trans hkind
  have h := h.token (congrArg Kind.isBracket hkeyword) rest
  apply FullAt.tail hrest (bind_of_ok (advance_of_cons hrest))
  apply FullAt.expect h.valid (by decide)
  intro name rest₁ hname
  have hheads : headsBlock (name :: keyword :: before) = true := by
    simp [headsBlock, hname, hkeyword]
  have h := h.token (congrArg Kind.isBracket hname) rest₁
  apply FullAt.bind h.valid (sound_itemsInParens sound_parameter)
  · apply fullAt_itemsInParens sound_parameter IsParameter.neutral failsFull_parameter h.valid
      (Nat.zero_le _)
    intro opening rest₂ hopening
    apply h.header hopening hheads
  · intro first rest₂ parameters hparameters
    have h := h.neutral (hparameters.neutral IsParameter.neutral) rest₂
    apply FullAt.bind h.valid (hsound .function)
      (hblock .function h hleast (blockIsDue_of_parameters hparameters hheads))
    intro _ _ body _
    apply FullAt.of_ok ⟨_, _, rfl⟩

theorem fullAt_alternativeOf :
  FullAt before (alternativeOf block) cursor
  := by
  apply FullAt.congr kind_bind
  split
  · rename_i hkind
    obtain ⟨keyword, rest, hrest, hkeyword⟩ := Cursor.rest_eq_of_kind h.valid (by simp [hkind])
    have hkeyword := hkeyword.trans hkind
    have h := h.token (congrArg Kind.isBracket hkeyword) rest
    have hdue : blockIsDue (keyword :: before) = true := by simp [blockIsDue, hkeyword]
    apply FullAt.tail hrest (bind_of_ok (advance_of_cons hrest))
    apply FullAt.bind h.valid (hsound .conditional) (hblock .conditional h hleast hdue)
    intro _ _ body _
    apply FullAt.of_ok ⟨_, _, rfl⟩
  · apply FullAt.of_ok ⟨_, _, rfl⟩

theorem fullAt_conditional (hkind : cursor.kind = .si) :
  FullAt before (do
    let consequence ← consequenceOf block
    let alternative ← alternativeOf block
    return consequence :: alternative) cursor
  := by
  rw [consequenceOf]
  simp only [bind_assoc, pure_bind]
  apply fullAt_headed hsound hblock h hleast .conditional (.inl hkind)
  intro before rest condition body h
  apply FullAt.bind h.valid (sound_alternativeOf hsound)
    (fullAt_alternativeOf hsound hblock h hleast)
  intro _ _ alternative _
  apply FullAt.of_ok ⟨_, _, rfl⟩

omit hsound hblock h hleast in
theorem FullAt.single {read : Read Stmt} (h : FullAt before read cursor) :
  FullAt before (do return [← read] : Read (List Stmt)) cursor
  := by
  cases hread : read cursor with
  | ok stmt next =>
    apply FullAt.of_ok ⟨[stmt], next, ?_⟩
    rw [bind_of_ok hread]
    rfl
  | error fault last => apply FullAt.bind_of_error hread h

omit h hleast in
theorem failsFull_stmtOf :
  FailsFull least Plain (whole (stmtOf block))
  := by
  intro before cursor h hleast hplain
  rw [whole_stmtOf]
  apply FullAt.congr kind_bind
  cases hkind : cursor.kind with
  | typeName => apply (fullAt_declaration h hkind).single
  | identifier => apply (fullAt_named h hplain hkind).single
  | si => apply fullAt_conditional hsound hblock h hleast hkind
  | mientras =>
    apply FullAt.single
    apply fullAt_headed hsound hblock h hleast .loop (.inr hkind)
    intro before rest condition body _
    apply FullAt.of_ok ⟨_, _, rfl⟩
  | funcion => apply (fullAt_functionOf hsound hblock h hleast hkind).single
  | retornar => apply (fullAt_result h hkind).single
  | semicolon =>
    obtain ⟨ending, rest, hrest, _⟩ := Cursor.rest_eq_of_kind h.valid (by simp [hkind])
    apply FullAt.tail hrest (bind_of_ok (advance_of_cons hrest))
    apply FullAt.of_ok ⟨_, _, rfl⟩
  | _ => apply FullAt.fail; simp

end

/-! ### Blocks and programs -/

section

variable {least : Nat} {stmts : Read (List Stmt)} (hsound : Sound stmts Statement)
  (hstmts : FailsFull least Plain stmts)

include hsound hstmts

/-- A statement leaves open what was open before it. -/
theorem failsFull_cons {others : Read (List Stmt)} (hothers : FailsFull least Plain others)
    (hsound' : Sound others Statements) :
  FailsFull least Plain (do
    let first ← stmts
    let second ← others
    return first ++ second)
  := by
  intro before cursor h hleast hplain
  apply FullAt.bind h.valid hsound (hstmts h hleast hplain)
  intro tokens rest first hfirst
  have h := h.neutral hfirst.neutral rest
  apply FullAt.bind h.valid hsound' (hothers h hleast (hfirst.endsPlain before))
  intro _ _ second _
  apply FullAt.of_ok ⟨_, _, rfl⟩

theorem failsFull_stmtsToClose (count : Nat) :
  FailsFull least Plain (stmtsToClose stmts count)
  := by
  induction count with
  | zero =>
    intro before cursor _ _ _
    apply FullAt.unexpected
  | succ count ih =>
    intro before cursor h hleast hplain
    by_cases hclose : cursor.kind = .closeCurly
    · apply FullAt.of_ok ⟨_, _, stmtsToClose_of_close hclose⟩
    by_cases hend : cursor.kind = .endOfInput
    · apply FullAt.congr (stmtsToClose_of_end hend) FullAt.unexpected
    · apply FullAt.congr (stmtsToClose_of_other hclose hend)
      apply failsFull_cons hsound hstmts ih (sound_stmtsToClose hsound count) h hleast hplain

theorem failsFull_stmtsToEnd (count : Nat) :
  FailsFull least Plain (stmtsToEnd stmts count)
  := by
  induction count with
  | zero =>
    intro before cursor _ _ _
    apply FullAt.of_ok ⟨_, _, rfl⟩
  | succ count ih =>
    intro before cursor h hleast hplain
    apply FullAt.congr get_bind
    split
    · apply FullAt.of_ok ⟨_, _, rfl⟩
    · apply failsFull_cons hsound hstmts ih (sound_stmtsToEnd hsound count) h hleast hplain

/-- A block from its opening bracket on.  It is closed in the scope around it, hence the rule for
sequences does not apply. -/
theorem fullAt_body {count : Nat} {scope : Scope} {before : List Token} {cursor : Cursor}
    (hvalid : cursor.Valid) (h : Tallies before (cursor.within scope))
    (hleast : least ≤ cursor.depth + 1) (hplain : Plain before) :
  FullAt before (do
    let body ← stmtsToClose stmts count
    exitScope
    let _ ← expect .closeCurly
    return body) (cursor.within scope)
  := by
  cases hread : stmtsToClose stmts count (cursor.within scope) with
  | error fault last =>
    apply FullAt.bind_of_error hread
      (failsFull_stmtsToClose hsound hstmts count h hleast hplain)
  | ok body next =>
    obtain ⟨tokens, rest, hrest, rfl, _⟩ := sound_stmtsToClose hsound count h.valid hread
    apply FullAt.passing tokens ((bind_of_ok hread).trans exitScope_bind_within) hrest
    apply FullAt.expect (hvalid.withRest rest) (by decide)
    intro closing rest' _
    apply FullAt.of_ok ⟨_, _, rfl⟩

end

theorem failsFull_blockWithin {levels least : Nat} (hlevels : maxDepth < levels + least)
    (scope : Scope) :
  FailsFull least (blockIsDue · = true) (blockWithin levels scope)
  := by
  induction levels generalizing least scope with
  | zero =>
    intro before cursor h hleast _
    have := h.valid.depth_le
    omega
  | succ levels ih =>
    intro before cursor h hleast hdue
    by_cases hdepth : cursor.depth < maxDepth
    · apply FullAt.passing [] (bind_of_ok (enterScope_of_lt hdepth)) rfl
      apply FullAt.expect (h.valid.within hdepth scope) (by decide)
      intro opening rest hopening
      apply FullAt.congr get_bind
      apply fullAt_body (sound_stmtOf (sound_blockWithin levels))
        (failsFull_stmtOf (sound_blockWithin levels) (fun scope => ih (by omega) scope))
        (h.valid.withRest rest) (h.within hdepth hopening scope rest) (Nat.succ_le_succ hleast)
      apply plain_cons (congrArg Kind.isPlain hopening)
    · have hdeep : enterScope scope cursor = .error _ cursor := bind_of_error (if_neg hdepth)
      apply FullAt.of_full (bind_of_error hdeep) (h.full hdepth (.inr hdue))

theorem fullAt_program (tokens : List Token) :
  FullAt [] program (Cursor.ofTokens tokens)
  := by
  have hsound : Sound (whole stmt) Statement := sound_stmtOf (sound_blockWithin _)
  have hstmt : FailsFull 0 Plain (whole stmt) :=
    failsFull_stmtOf (sound_blockWithin _)
      (failsFull_blockWithin (Nat.lt_succ_self maxDepth))
  have hvalid := Cursor.valid_ofTokens tokens
  apply FullAt.congr get_bind
  apply FullAt.bind hvalid (sound_stmtsToEnd hsound _)
    (failsFull_stmtsToEnd hsound hstmt _ ⟨hvalid, rfl⟩ (Nat.zero_le _) plain_nil)
  intro _ _ body _
  apply FullAt.of_ok ⟨_, _, rfl⟩

end Read

namespace FailsAt

variable {tokens : List Token} {fault : Fault} {index limit : Nat} {last : Cursor}

/-- The tokens before the one at which tokens are refused leave open as much as may be. -/
theorem full (h : FailsAt tokens fault index last) (hcause : fault.cause = .tooDeep limit) :
  Read.Full ((closed tokens).take index).reverse last
  := by
  obtain ⟨passed, hpassed, hfull⟩ := Read.fullAt_program tokens h.reads hcause
  rwa [h.take_eq hpassed, ← List.append_nil passed.reverse]

theorem take_succ (h : FailsAt tokens fault index last) :
  ((closed tokens).take (index + 1)).reverse = last.current :: ((closed tokens).take index).reverse
  := by
  rw [List.take_add_one, h.token]
  simp

end FailsAt

/-- Tokens that are refused because too much is open are refused at a token before which as much is
open as may be.  Either the token is a bracket that opens one more, or a block comes next there and
the token is not the bracket that opens it. -/
theorem too_deep_at_opening {tokens : List Token} {fault : Fault} {limit : Nat}
    (h : Program.ofTokens tokens = .error fault) (hcause : fault.cause = .tooDeep limit) :
  ∃ index last, FailsAt tokens fault index last
    ∧ nestingAfter ((closed tokens).take index).reverse = maxDepth
    ∧ ((last.kind = .openCurly ∨ last.kind = .openParen)
          ∧ nestingAfter ((closed tokens).take (index + 1)).reverse = maxDepth + 1
        ∨ last.kind ≠ .openCurly ∧ blockIsDue ((closed tokens).take index).reverse = true)
  := by
  obtain ⟨index, last, hfails⟩ := exists_failsAt h
  obtain ⟨hnesting, hopens⟩ := hfails.full hcause
  refine ⟨index, last, hfails, hnesting, ?_⟩
  rw [hfails.take_succ]
  by_cases hcurly : last.kind = .openCurly
  · left
    rw [nestingAfter_openCurly hcurly, hnesting]
    exact ⟨.inl hcurly, rfl⟩
  obtain ⟨hparen, hheads⟩ | hdue := hopens
  · left
    rw [nestingAfter_openParen hparen hheads, hnesting]
    exact ⟨.inr hparen, rfl⟩
  · right
    exact ⟨hcurly, hdue⟩

/-- One parenthesis more than may be open is refused where it stands. -/
theorem too_deep_at_paren :
  let opening : Token := ⟨.openParen, "(", default⟩
  let tokens : List Token := [⟨.identifier, "x", default⟩, ⟨.assignment, "=", default⟩]
    ++ List.replicate maxDepth opening ++ [⟨.openParen, "(", ⟨⟨132, 1, 133⟩, ⟨133, 1, 134⟩⟩⟩]
  ∃ index last, FailsAt tokens ⟨.tooDeep maxDepth, ⟨132, 1, 133⟩⟩ index last
    ∧ nestingAfter ((closed tokens).take index).reverse = maxDepth
    ∧ ((last.kind = .openCurly ∨ last.kind = .openParen)
          ∧ nestingAfter ((closed tokens).take (index + 1)).reverse = maxDepth + 1
        ∨ last.kind ≠ .openCurly ∧ blockIsDue ((closed tokens).take index).reverse = true)
  := by
  intro opening tokens
  have hmap : (Program.ofTokens tokens).map (fun _ => ())
      = .error ⟨.tooDeep maxDepth, ⟨132, 1, 133⟩⟩ := by
    decide +kernel
  have hrefused : Program.ofTokens tokens = .error ⟨.tooDeep maxDepth, ⟨132, 1, 133⟩⟩ := by
    cases hread : Program.ofTokens tokens with
    | ok program =>
      rw [hread] at hmap
      cases hmap
    | error fault =>
      rw [hread] at hmap
      rw [Except.error.inj hmap]
  apply too_deep_at_opening hrefused rfl

/-- Where a block comes next within as many blocks as may be open, a name is refused because too
much is open, and no bracket starts there. -/
theorem too_deep_at_name :
  let header : List Token :=
    [⟨.si, "si", default⟩, ⟨.openParen, "(", default⟩, ⟨.identifier, "a", default⟩,
      ⟨.closeParen, ")", default⟩]
  let name : Token := ⟨.identifier, "b", ⟨⟨1159, 129, 8⟩, ⟨1160, 129, 9⟩⟩⟩
  let tokens : List Token :=
    (List.replicate maxDepth (header ++ [⟨.openCurly, "\x7b", default⟩])).flatten
      ++ header ++ [name]
  (Program.ofTokens tokens).map (fun _ => ()) = .error ⟨.tooDeep maxDepth, name.span.start⟩
    ∧ ∀ token ∈ tokens, token.kind = .openCurly ∨ token.kind = .openParen →
        token.span.start ≠ name.span.start
  := by
  decide +kernel

end Mientras
