import Mathlib.Tactic.Common
import Mientras.Proofs.Lookahead

/-!
# Readers close what they open

A reader is `Balanced` when it passes tokens and, once it has found its value, has closed all that
it opened; when it fails, all that was open before it is open still.  Every reader is balanced from
every cursor where no more is open than may be, in whatever scopes and whatever token stands there,
and finds nothing without passing a token.
-/

namespace Mientras

namespace Read

variable {α β : Type}

/-- If the reader finds a value, then it passes at least the given number of tokens, and nothing but
the place of the cursor changes.  If it fails, then nothing is closed that was open. -/
structure BalancedAt (least : Nat) (read : Read α) (cursor : Cursor) : Prop where
  ok : ∀ ⦃a : α⦄ ⦃next : Cursor⦄, read cursor = .ok a next →
    ∃ passed rest, cursor.rest = passed ++ rest ∧ least ≤ passed.length
      ∧ next = cursor.withRest rest
  error : ∀ ⦃fault : Fault⦄ ⦃last : Cursor⦄, read cursor = .error fault last →
    cursor.scopes <:+ last.scopes ∧ cursor.depth ≤ last.depth

/-- The reader is balanced from every cursor. -/
def Balanced (least : Nat) (read : Read α) : Prop :=
  ∀ ⦃cursor : Cursor⦄, cursor.Valid → BalancedAt least read cursor

/-! ### Readers in sequence -/

section

variable {least : Nat} {cursor : Cursor}

theorem BalancedAt.mono {fewer : Nat} {read : Read α} (h : BalancedAt least read cursor)
    (hle : fewer ≤ least) :
  BalancedAt fewer read cursor
  where
  ok := by
    intro a next hread
    obtain ⟨passed, rest, hrest, hpassed, hnext⟩ := h.ok hread
    exact ⟨passed, rest, hrest, Nat.le_trans hle hpassed, hnext⟩
  error := h.error

theorem BalancedAt.congr {read chosen : Read α} (h : read cursor = chosen cursor)
    (hchosen : BalancedAt least chosen cursor) :
  BalancedAt least read cursor
  where
  ok := by
    rw [h]
    exact hchosen.ok
  error := by
    rw [h]
    exact hchosen.error

/-- A reader that passes a token and goes on. -/
theorem BalancedAt.tail {read chosen : Read α} {token : Token} {rest : List Token}
    (hrest : cursor.rest = token :: rest) (h : read cursor = chosen (cursor.withRest rest))
    (hchosen : BalancedAt least chosen (cursor.withRest rest)) :
  BalancedAt (least + 1) read cursor
  where
  ok := by
    intro a next hread
    rw [h] at hread
    obtain ⟨passed, rest', hrest', hpassed, rfl⟩ := hchosen.ok hread
    rw [Cursor.rest_withRest] at hrest'
    exact ⟨token :: passed, rest', by rw [hrest, hrest', List.cons_append],
      Nat.succ_le_succ hpassed, rfl⟩
  error := by
    rw [h]
    exact hchosen.error

/-- The second reader starts with as much open as the first. -/
theorem BalancedAt.bind {more : Nat} {x : Read α} {f : α → Read β}
    (hx : BalancedAt least x cursor)
    (hf : ∀ a rest, BalancedAt more (f a) (cursor.withRest rest)) :
  BalancedAt (least + more) (x >>= f) cursor
  := by
  cases hread : x cursor with
  | error fault last =>
    constructor
    · intro b next h
      rw [bind_of_error hread] at h
      cases h
    · intro fault' last' h
      rw [bind_of_error hread] at h
      obtain ⟨rfl, rfl⟩ := EStateM.Result.error.inj h
      apply hx.error hread
  | ok a next =>
    obtain ⟨passed, rest, hrest, hpassed, rfl⟩ := hx.ok hread
    constructor
    · intro b next h
      rw [bind_of_ok hread] at h
      obtain ⟨passed', rest', hrest', hpassed', rfl⟩ := (hf a rest).ok h
      rw [Cursor.rest_withRest] at hrest'
      refine ⟨passed ++ passed', rest', by rw [hrest, hrest', List.append_assoc], ?_, rfl⟩
      rw [List.length_append]
      exact Nat.add_le_add hpassed hpassed'
    · intro fault last h
      rw [bind_of_ok hread] at h
      apply (hf a rest).error h

/-- Tokens that the first reader of a sequence passes are passed. -/
theorem Balanced.bind {more : Nat} {x : Read α} {f : α → Read β} (hx : Balanced least x)
    (hf : ∀ a, Balanced more (f a)) :
  Balanced least (x >>= f)
  := by
  intro cursor hvalid
  have h := (hx hvalid).bind fun a rest => hf a (hvalid.withRest rest)
  exact h.mono (Nat.le_add_right least more)

/-- Tokens that the second reader of a sequence passes are passed. -/
theorem Balanced.seq {fewer : Nat} {x : Read α} {f : α → Read β} (hx : Balanced fewer x)
    (hf : ∀ a, Balanced least (f a)) :
  Balanced least (x >>= f)
  := by
  intro cursor hvalid
  have h := (hx hvalid).bind fun a rest => hf a (hvalid.withRest rest)
  exact h.mono (Nat.le_add_left least fewer)

theorem balanced_pure (a : α) :
  Balanced 0 (pure a)
  := by
  intro cursor _
  constructor
  · intro b next h
    obtain ⟨rfl, rfl⟩ := pure_eq_ok_iff.mp h
    exact ⟨[], cursor.rest, rfl, Nat.zero_le _, rfl⟩
  · intro fault last h
    cases h

theorem Balanced.kind {f : Kind → Read α} (hf : ∀ kind, Balanced least (f kind)) :
  Balanced least (kind >>= f)
  := fun cursor hvalid => .congr kind_bind (hf cursor.kind hvalid)

theorem Balanced.get {f : Cursor → Read α} (hf : ∀ cursor, Balanced least (f cursor)) :
  Balanced least (get >>= f)
  := fun cursor hvalid => .congr get_bind (hf cursor hvalid)

/-! ### Single tokens -/

/-- A reader that fails at once finds nothing and opens nothing. -/
theorem balanced_fail (least : Nat) (cause : Token → Cause) :
  Balanced least (fail cause : Read α)
  := by
  intro cursor _
  constructor
  · intro a next h
    exact absurd h fail_ne_ok
  · intro fault last h
    obtain ⟨rfl, rfl⟩ := EStateM.Result.error.inj h
    exact ⟨List.suffix_rfl, Nat.le_refl _⟩

theorem balanced_unexpected (least : Nat) (expected : String) :
  Balanced least (unexpected expected : Read α)
  := balanced_fail least _

/-- Nothing is passed at the end of the input. -/
theorem balanced_advance :
  Balanced 0 advance
  := by
  intro cursor hvalid
  cases hrest : cursor.rest with
  | cons token rest =>
    have htoken := balanced_pure token (hvalid.withRest rest)
    exact (BalancedAt.tail hrest (advance_of_cons hrest) htoken).mono (Nat.zero_le _)
  | nil =>
    apply BalancedAt.congr _ (balanced_pure cursor.stop hvalid)
    rw [advance, hrest]
    rfl

theorem balanced_expectAs {kind : Kind} (hkind : kind ≠ .endOfInput) (expected : String) :
  Balanced 1 (expectAs kind expected)
  := by
  intro cursor hvalid
  by_cases hcursor : cursor.kind = kind
  · obtain ⟨token, rest, hrest, htoken⟩ := Cursor.rest_eq_of_kind hvalid (hcursor ▸ hkind)
    apply BalancedAt.tail hrest (expectAs_of_cons hrest (htoken.trans hcursor))
    apply balanced_pure token (hvalid.withRest rest)
  · apply BalancedAt.congr _ (balanced_unexpected 1 expected hvalid)
    rw [expectAs, kind_bind, if_neg hcursor]

theorem balanced_expect {kind : Kind} (hkind : kind ≠ .endOfInput) :
  Balanced 1 (expect kind)
  := balanced_expectAs hkind _

/-! ### Nesting -/

/-- What is read with more open is balanced once it is closed again, where `opened` is the cursor
with more open. -/
theorem Balanced.enclosed {opening closing : Read Unit} {body : Read α} (opened : Cursor → Cursor)
    (hopening : ∀ cursor, opening cursor = if cursor.depth < maxDepth then .ok () (opened cursor)
      else fail (fun _ => .tooDeep maxDepth) cursor)
    (hopened : ∀ cursor, (opened cursor).rest = cursor.rest ∧ (opened cursor).stop = cursor.stop
      ∧ cursor.scopes <:+ (opened cursor).scopes ∧ (opened cursor).depth = cursor.depth + 1)
    (hclosing : ∀ cursor rest,
      closing ((opened cursor).withRest rest) = .ok () (cursor.withRest rest))
    (hbody : Balanced least body) :
  Balanced least (do opening; let a ← body; closing; return a)
  := by
  intro cursor hvalid
  by_cases hdepth : cursor.depth < maxDepth
  · have hopen : opening cursor = .ok () (opened cursor) := by rw [hopening, if_pos hdepth]
    obtain ⟨hrest, hstop, hscopes, hmore⟩ := hopened cursor
    have hvalid' : (opened cursor).Valid := ⟨hstop ▸ hvalid.closed, by rw [hmore]; exact hdepth⟩
    constructor
    · intro a next h
      rw [bind_of_ok hopen] at h
      obtain ⟨b, next', hread, h⟩ := bind_eq_ok_iff.mp h
      obtain ⟨passed, rest, hpassed, hleast, rfl⟩ := (hbody hvalid').ok hread
      rw [bind_of_ok (hclosing cursor rest)] at h
      obtain ⟨rfl, rfl⟩ := pure_eq_ok_iff.mp h
      exact ⟨passed, rest, hrest ▸ hpassed, hleast, rfl⟩
    · intro fault last h
      rw [bind_of_ok hopen] at h
      cases hread : body (opened cursor) with
      | ok a next =>
        obtain ⟨passed, rest, _, _, rfl⟩ := (hbody hvalid').ok hread
        rw [bind_of_ok hread, bind_of_ok (hclosing cursor rest)] at h
        cases h
      | error fault' last' =>
        rw [bind_of_error hread] at h
        obtain ⟨rfl, rfl⟩ := EStateM.Result.error.inj h
        obtain ⟨hscopes', hdepth'⟩ := (hbody hvalid').error hread
        exact ⟨hscopes.trans hscopes', by omega⟩
  · apply BalancedAt.congr _ (balanced_fail least (fun _ => .tooDeep maxDepth) hvalid)
    have hfull := hopening cursor
    rw [if_neg hdepth] at hfull
    exact bind_of_error hfull

theorem Balanced.nested {body : Read α} (hbody : Balanced least body) :
  Balanced least (do nest; let a ← body; unnest; return a)
  := by
  apply Balanced.enclosed Cursor.nested _ _ _ hbody
  · intro cursor
    rfl
  · intro cursor
    exact ⟨rfl, rfl, List.suffix_rfl, rfl⟩
  · intro cursor rest
    rfl

theorem Balanced.inScope (scope : Scope) {body : Read α} (hbody : Balanced least body) :
  Balanced least (do enterScope scope; let a ← body; exitScope; return a)
  := by
  apply Balanced.enclosed (Cursor.within · scope) _ _ _ hbody
  · intro cursor
    split
    · rename_i hdepth
      apply enterScope_of_lt hdepth
    · rename_i hdepth
      exact bind_of_error (if_neg hdepth)
  · intro cursor
    exact ⟨rfl, rfl, List.suffix_cons scope cursor.scopes, rfl⟩
  · intro cursor rest
    rfl

end

/-! ### Lists -/

section

variable {item : Read α} (hitem : Balanced 1 item)

include hitem

theorem balanced_moreItems (count : Nat) :
  Balanced 0 (moreItems item count)
  := by
  induction count with
  | zero => apply balanced_pure
  | succ count ih =>
    apply Balanced.kind
    intro kind
    split
    · apply balanced_advance.seq
      intro _
      apply hitem.seq
      intro first
      apply ih.bind
      intro others
      apply balanced_pure
    · apply balanced_pure

theorem balanced_items :
  Balanced 1 (items item)
  := by
  apply hitem.bind
  intro first
  apply Balanced.get
  intro cursor
  apply (balanced_moreItems hitem _).bind
  intro others
  apply balanced_pure

theorem balanced_itemsInParens :
  Balanced 1 (itemsInParens item)
  := by
  have hclose (list : List α) :
      Balanced 1 (expectAs .closeParen "`,` or `)`" >>= fun _ => (pure list : Read (List α))) := by
    apply Balanced.bind (balanced_expectAs (by decide) _)
    intro _
    apply balanced_pure
  apply (balanced_expect (by decide)).bind
  intro _
  apply Balanced.kind
  intro kind
  split
  · rw [pure_bind]
    apply hclose
  · apply (balanced_items hitem).bind hclose

end

/-! ### Expressions -/

section

variable {inner : Read Expr} (hinner : Balanced 1 inner)

include hinner

/-- An expression in parentheses, of which only the reader knows whether they are counted. -/
theorem balanced_parenthesized :
  Balanced 1 (do
    let _ ← expect .openParen
    let e ← inner
    let _ ← expect .closeParen
    return e)
  := by
  apply (balanced_expect (by decide)).bind
  intro _
  apply hinner.bind
  intro e
  apply (balanced_expect (by decide)).bind
  intro _
  apply balanced_pure

theorem balanced_groupOf :
  Balanced 1 (groupOf inner)
  := by
  have hgroup := (balanced_parenthesized hinner).nested.bind (fun e => balanced_pure e.group)
  rw [groupOf]
  simpa only [bind_assoc, pure_bind] using hgroup

theorem balanced_argumentsOf :
  Balanced 1 (argumentsOf inner)
  := (balanced_itemsInParens hinner).nested

theorem balanced_factorOf :
  Balanced 1 (factorOf inner)
  := by
  intro cursor hvalid
  cases hatom : cursor.kind.atom? with
  | none =>
    apply BalancedAt.congr (factorOf_of_none hatom)
    split
    · apply balanced_groupOf hinner hvalid
    · apply balanced_unexpected 1 _ hvalid
  | some sort =>
    obtain ⟨token, rest, hrest, _⟩ :=
      Cursor.rest_eq_of_kind hvalid (Grammar.ne_end_of_atom? hatom)
    have hvalid' := hvalid.withRest rest
    by_cases hsort : sort = .name
    · have hname := Kind.atom?_eq_name_iff.mp (hsort ▸ hatom)
      apply BalancedAt.congr (factorOf_of_name hname)
      apply BalancedAt.tail hrest (bind_of_ok (advance_of_cons hrest))
      apply BalancedAt.congr kind_bind
      split
      · apply ((balanced_argumentsOf hinner).seq fun list => balanced_pure _) hvalid'
      · apply balanced_pure _ hvalid'
    · apply BalancedAt.congr (factorOf_of_literal hatom hsort)
      apply BalancedAt.tail hrest (bind_of_ok (advance_of_cons hrest))
      apply balanced_pure _ hvalid'

end

section

variable {factor : Read Expr} (hfactor : Balanced 1 factor)

include hfactor

theorem balanced_chain (count : Nat) (left : Expr) :
  Balanced 0 (chain factor count left)
  := by
  induction count generalizing left with
  | zero => apply balanced_pure
  | succ count ih =>
    apply Balanced.kind
    intro kind
    split
    · apply balanced_advance.seq
      intro operator
      apply hfactor.seq
      intro right
      apply ih
    · apply balanced_pure

theorem balanced_chainOf :
  Balanced 1 (chainOf factor)
  := by
  apply hfactor.bind
  intro first
  apply Balanced.get
  intro cursor
  apply balanced_chain hfactor

end

theorem balanced_exprWithin (levels : Nat) :
  Balanced 1 (exprWithin levels)
  := by
  induction levels with
  | zero => apply balanced_fail
  | succ levels ih => apply balanced_chainOf (balanced_factorOf ih)

theorem balanced_expr :
  Balanced 1 expr
  := balanced_exprWithin _

/-! ### Statements without a block -/

/-- A value and then a semicolon make a statement. -/
theorem balanced_ended (stmt : Expr → Stmt) :
  Balanced 1 (do
    let value ← expr
    let _ ← expect .semicolon
    return stmt value)
  := by
  apply balanced_expr.bind
  intro value
  apply (balanced_expect (by decide)).bind
  intro _
  apply balanced_pure

theorem balanced_assignment (name : String) :
  Balanced 1 (assignment name)
  := by
  apply (balanced_expect (by decide)).bind
  intro _
  apply balanced_ended

/-- At the end of the input the type is not passed, but then there is no name either. -/
theorem balanced_declaration :
  Balanced 1 declaration
  := by
  apply balanced_advance.seq
  intro type
  apply (balanced_expect (by decide)).bind
  intro name
  apply (balanced_expect (by decide)).bind
  intro _
  apply balanced_ended

theorem balanced_call (callee : String) :
  Balanced 1 (call callee)
  := by
  apply (balanced_argumentsOf balanced_expr).bind
  intro list
  apply Balanced.kind
  intro kind
  split
  · apply balanced_advance.bind
    intro _
    apply balanced_pure
  · apply balanced_pure

theorem balanced_named :
  Balanced 1 named
  := by
  apply balanced_advance.seq
  intro name
  apply Balanced.kind
  intro kind
  split
  · apply balanced_assignment
  apply Balanced.kind
  intro kind
  split
  · apply balanced_call
  · apply balanced_unexpected

theorem balanced_result :
  Balanced 1 result
  := by
  apply Balanced.get
  intro cursor
  split
  · apply balanced_advance.seq
    intro _
    apply balanced_ended
  · apply balanced_fail

/-! ### Statements with a block -/

theorem balanced_condition :
  Balanced 1 condition
  := balanced_parenthesized balanced_expr

theorem balanced_parameter :
  Balanced 1 parameter
  := by
  apply (balanced_expect (by decide)).bind
  intro type
  apply (balanced_expect (by decide)).bind
  intro name
  apply balanced_pure

section

variable {block : Scope → Read (List Stmt)} (hblock : ∀ scope, Balanced 1 (block scope))

include hblock

/-- A keyword, a condition and a block make a statement. -/
theorem balanced_headed (scope : Scope) (stmt : Expr → List Stmt → Stmt) :
  Balanced 1 (do
    let _ ← advance
    let condition ← condition
    let body ← block scope
    return stmt condition body)
  := by
  apply balanced_advance.seq
  intro _
  apply balanced_condition.bind
  intro condition
  apply (hblock scope).bind
  intro body
  apply balanced_pure

theorem balanced_functionOf :
  Balanced 1 (functionOf block)
  := by
  apply balanced_advance.seq
  intro _
  apply (balanced_expect (by decide)).bind
  intro name
  apply (balanced_itemsInParens balanced_parameter).bind
  intro parameters
  apply (hblock .function).bind
  intro body
  apply balanced_pure

theorem balanced_alternativeOf :
  Balanced 0 (alternativeOf block)
  := by
  apply Balanced.kind
  intro kind
  split
  · apply balanced_advance.seq
    intro _
    apply (hblock .conditional).seq
    intro body
    apply balanced_pure
  · apply balanced_pure

theorem balanced_conditionalOf :
  Balanced 1 (whole (conditionalOf block))
  := by
  rw [conditionalOf, whole_keeping_bind]
  apply (balanced_headed hblock .conditional .conditional).bind
  intro consequence
  rw [whole_keeping_bind]
  apply (balanced_alternativeOf hblock).bind
  intro alternative
  apply balanced_pure

theorem balanced_stmtOf :
  Balanced 1 (whole (stmtOf block))
  := by
  rw [whole_stmtOf]
  intro cursor hvalid
  apply BalancedAt.congr kind_bind
  cases hform : cursor.kind.form with
  | declaration => apply balanced_declaration.bind (fun _ => balanced_pure _) hvalid
  | identifier => apply balanced_named.bind (fun _ => balanced_pure _) hvalid
  | conditional =>
    have hconditional := balanced_conditionalOf hblock hvalid
    simp only [conditionalOf, whole_keeping_bind] at hconditional
    exact hconditional
  | alternative => apply balanced_fail 1 _ hvalid
  | loop => apply (balanced_headed hblock .loop .loop).bind (fun _ => balanced_pure _) hvalid
  | function => apply (balanced_functionOf hblock).bind (fun _ => balanced_pure _) hvalid
  | result => apply balanced_result.bind (fun _ => balanced_pure _) hvalid
  | empty =>
    -- a semicolon is no end of the input
    obtain ⟨ending, rest, hrest, _⟩ := Cursor.rest_eq_of_kind hvalid
      (by rintro hend; rw [hend] at hform; cases hform)
    apply BalancedAt.tail hrest (bind_of_ok (advance_of_cons hrest))
    apply balanced_pure _ (hvalid.withRest rest)
  | invalid => apply balanced_fail 1 _ hvalid

end

/-! ### Blocks -/

section

variable {stmts : Read (List Stmt)} (hstmts : Balanced 1 stmts)

include hstmts

theorem balanced_stmtsToClose (count : Nat) :
  Balanced 0 (stmtsToClose stmts count)
  := by
  induction count with
  | zero => apply balanced_unexpected
  | succ count ih =>
    intro cursor hvalid
    by_cases hclose : cursor.kind = .closeCurly
    · apply BalancedAt.congr (stmtsToClose_of_close hclose) (balanced_pure _ hvalid)
    by_cases hend : cursor.kind = .endOfInput
    · apply BalancedAt.congr (stmtsToClose_of_end hend) (balanced_unexpected 0 _ hvalid)
    · apply BalancedAt.congr (stmtsToClose_of_other hclose hend)
      apply hstmts.seq _ hvalid
      intro first
      apply ih.bind
      intro others
      apply balanced_pure

end

theorem balanced_blockWithin (levels : Nat) (scope : Scope) :
  Balanced 1 (blockWithin levels scope)
  := by
  induction levels generalizing scope with
  | zero => apply balanced_fail
  | succ levels ih =>
    have hbody : Balanced 1 (do
        let _ ← expect .openCurly
        let cursor ← get
        stmtsToClose (whole (stmtOf (blockWithin levels))) cursor.rest.length) := by
      apply Balanced.bind (balanced_expect (by decide))
      intro _
      apply Balanced.get
      intro cursor
      apply balanced_stmtsToClose (balanced_stmtOf ih)
    have hblock := (hbody.inScope scope).bind fun body =>
      (balanced_expect (show Kind.closeCurly ≠ .endOfInput by decide)).bind fun _ =>
        balanced_pure body
    rw [blockWithin]
    simpa only [bind_assoc, pure_bind] using hblock

theorem balanced_block (scope : Scope) :
  Balanced 1 (block scope)
  := balanced_blockWithin _ scope

end Read

end Mientras
