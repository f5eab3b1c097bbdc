import Mathlib.Tactic.Common
import Mientras.Proofs.Lookahead

/-!
# Readers fail after tokens that can be completed

A reader is `Viable` for a relation of the grammar when the tokens that it passed before it failed
are the beginning of tokens that spell something.  Every reader is viable for the relation of its
name.  The argument follows the readers.  Where a part of a reader fails, the part is completed, and
then the parts that would have come after it are added, in a short spelling.

A statement with a block has no spelling where as many blocks, groups and argument lists are open
as may be.  Hence nothing is said of failures that deep within.
-/

namespace Mientras

/-- What was expected in place of what was found. -/
def Cause.expected? : Cause → Option String
  | unexpected expected _ => some expected
  | unexpectedEnd expected => some expected
  | _ => none

/-- The number of blocks, groups and argument lists that are open at the cursor where a reader
fails.  The cursor counts a block from before its opening bracket on, so that a block whose bracket
is missing is not open. -/
def Fault.opened (fault : Fault) (last : Cursor) : Nat :=
  if fault.cause.expected? = some Kind.openCurly.description then last.depth - 1 else last.depth

namespace Read

open Grammar

variable {α β : Type}

/-- The reader did not fail because too much is open, and more may be opened. -/
structure Shallow (fault : Fault) (last : Cursor) : Prop where
  cause_ne : fault.cause ≠ .tooDeep maxDepth
  opened_lt : fault.opened last < maxDepth

/-- If the reader fails at the cursor, then the tokens that it passed can be completed, where `form`
says which tokens spell a value. -/
def CompletedAt (form : List Token → α → Prop) (read : Read α) (cursor : Cursor) : Prop :=
  ∀ ⦃fault : Fault⦄ ⦃last : Cursor⦄, read cursor = .error fault last → Shallow fault last →
    cursor.depth < maxDepth
      ∧ ∃ passed more a, cursor.rest = passed ++ last.rest ∧ form (passed ++ more) a

/-- There is something to spell, and whatever the reader passed before it failed can be completed,
from every cursor with as much open. -/
structure Viable (depth : Nat) (inFunction : Bool) (read : Read α)
    (form : List Token → α → Prop) : Prop where
  spelled : depth < maxDepth → ∃ tokens a, form tokens a
  completed : ∀ ⦃cursor : Cursor⦄, cursor.Valid → cursor.depth = depth →
    cursor.inFunction = inFunction → CompletedAt form read cursor

/-! ### Readers in sequence -/

section

variable {depth : Nat} {inFunction : Bool} {form : List Token → α → Prop} {cursor : Cursor}

theorem CompletedAt.of_ok {read : Read α} (h : ∃ a next, read cursor = .ok a next) :
  CompletedAt form read cursor
  := by
  obtain ⟨a, next, h⟩ := h
  intro fault last herror
  rw [h] at herror
  contradiction

theorem CompletedAt.congr {read chosen : Read α} (h : read cursor = chosen cursor)
    (hchosen : CompletedAt form chosen cursor) :
  CompletedAt form read cursor
  := by
  intro fault last herror
  rw [h] at herror
  apply hchosen herror

/-- A reader that passes a token and goes on. -/
theorem CompletedAt.tail {read chosen : Read α} {token : Token} {rest : List Token}
    (hrest : cursor.rest = token :: rest) (h : read cursor = chosen (cursor.withRest rest))
    (hchosen : CompletedAt (fun tokens => form (token :: tokens)) chosen (cursor.withRest rest)) :
  CompletedAt form read cursor
  := by
  intro fault last herror hshallow
  rw [h] at herror
  obtain ⟨hdepth, passed, more, a, hpassed, ha⟩ := hchosen herror hshallow
  refine ⟨hdepth, token :: passed, more, a, ?_, ha⟩
  rw [hrest, List.cons_append, ← hpassed, Cursor.rest_withRest]

theorem Viable.of_ok {read : Read α} (hspelled : ∃ tokens a, form tokens a)
    (h : ∀ cursor, ∃ a next, read cursor = .ok a next) :
  Viable depth inFunction read form
  where
  spelled := fun _ => hspelled
  completed := fun cursor _ _ _ => .of_ok (h cursor)

theorem Viable.pure {a : α} (h : form [] a) :
  Viable depth inFunction (pure a) form
  := .of_ok ⟨[], a, h⟩ (fun cursor => ⟨a, cursor, rfl⟩)

theorem Viable.mono {read : Read α} {form' : List Token → α → Prop}
    (h : Viable depth inFunction read form)
    (hform : ∀ {tokens : List Token} {a : α}, form tokens a → form' tokens a) :
  Viable depth inFunction read form'
  where
  spelled := by
    intro hdepth
    obtain ⟨tokens, a, ha⟩ := h.spelled hdepth
    exact ⟨tokens, a, hform ha⟩
  completed := by
    intro cursor hvalid hcursor hfunction fault last herror hshallow
    obtain ⟨hdepth, passed, more, a, hpassed, ha⟩ :=
      h.completed hvalid hcursor hfunction herror hshallow
    exact ⟨hdepth, passed, more, a, hpassed, hform ha⟩

/-- The tokens that the first reader passed, or those that complete them, spell a value.  What the
second reader does with this value is completed too. -/
theorem CompletedAt.bind {x : Read β} {f : β → Read α} {part : Nat → Bool → List Token → β → Prop}
    (hvalid : cursor.Valid) (hsound : Sound x part)
    (hx : CompletedAt (part cursor.depth cursor.inFunction) x cursor)
    (hf : ∀ {first : List Token} {b : β}, part cursor.depth cursor.inFunction first b →
      Viable cursor.depth cursor.inFunction (f b) (fun tokens => form (first ++ tokens))) :
  CompletedAt form (x >>= f) cursor
  := by
  intro fault last herror hshallow
  cases hread : x cursor with
  | error fault' last' =>
    rw [bind_of_error hread] at herror
    obtain ⟨rfl, rfl⟩ := EStateM.Result.error.inj herror
    obtain ⟨hdepth, passed, more, b, hpassed, hb⟩ := hx hread hshallow
    obtain ⟨tokens, a, ha⟩ := (hf hb).spelled hdepth
    refine ⟨hdepth, passed, more ++ tokens, a, hpassed, ?_⟩
    rwa [← List.append_assoc]
  | ok b next =>
    rw [bind_of_ok hread] at herror
    obtain ⟨first, rest, hrest, rfl, hb⟩ := hsound hvalid hread
    obtain ⟨hdepth, passed, more, a, hpassed, ha⟩ :=
      (hf hb).completed (hvalid.withRest rest) rfl rfl herror hshallow
    refine ⟨hdepth, first ++ passed, more, a, ?_, ?_⟩
    · rw [hrest, List.append_assoc, ← hpassed, Cursor.rest_withRest]
    · rwa [List.append_assoc]

theorem Viable.bind {x : Read β} {f : β → Read α} {part : Nat → Bool → List Token → β → Prop}
    (hsound : Sound x part) (hx : Viable depth inFunction x (part depth inFunction))
    (hf : ∀ {first : List Token} {b : β}, part depth inFunction first b →
      Viable depth inFunction (f b) (fun tokens => form (first ++ tokens))) :
  Viable depth inFunction (x >>= f) form
  where
  spelled := by
    intro hdepth
    obtain ⟨first, b, hb⟩ := hx.spelled hdepth
    obtain ⟨tokens, a, ha⟩ := (hf hb).spelled hdepth
    exact ⟨first ++ tokens, a, ha⟩
  completed := by
    rintro cursor hvalid rfl rfl
    exact .bind hvalid hsound (hx.completed hvalid rfl rfl) hf

theorem Viable.get {f : Cursor → Read α} (hf : ∀ cursor, Viable depth inFunction (f cursor) form) :
  Viable depth inFunction (get >>= f) form
  where
  spelled := (hf default).spelled
  completed := fun cursor hvalid hdepth hfunction =>
    .congr get_bind ((hf cursor).completed hvalid hdepth hfunction)

theorem Viable.kind {f : Kind → Read α} (hf : ∀ kind, Viable depth inFunction (f kind) form) :
  Viable depth inFunction (kind >>= f) form
  where
  spelled := (hf .endOfInput).spelled
  completed := fun cursor hvalid hdepth hfunction =>
    .congr kind_bind ((hf cursor.kind).completed hvalid hdepth hfunction)

/-! ### Single tokens -/

/-- A reader that fails at once has passed no token. -/
theorem CompletedAt.fail {cause : Token → Cause}
    (hcause : (cause cursor.current).expected? ≠ some Kind.openCurly.description)
    (hspelled : cursor.depth < maxDepth → ∃ tokens a, form tokens a) :
  CompletedAt form (fail cause) cursor
  := by
  intro fault last herror hshallow
  obtain ⟨rfl, rfl⟩ := EStateM.Result.error.inj herror
  have hdepth : cursor.depth < maxDepth := by
    have := hshallow.opened_lt
    rwa [Fault.opened, if_neg hcause] at this
  obtain ⟨more, a, ha⟩ := hspelled hdepth
  exact ⟨hdepth, [], more, a, rfl, ha⟩

theorem CompletedAt.unexpected {expected : String}
    (hexpected : expected ≠ Kind.openCurly.description)
    (hspelled : cursor.depth < maxDepth → ∃ tokens a, form tokens a) :
  CompletedAt form (unexpected expected) cursor
  := by
  apply CompletedAt.fail _ hspelled
  split <;> simpa [Cause.expected?] using hexpected

theorem CompletedAt.tooDeep :
  CompletedAt form (Read.fail fun _ => .tooDeep maxDepth) cursor
  := by
  intro fault last herror hshallow
  obtain ⟨rfl, rfl⟩ := EStateM.Result.error.inj herror
  exact absurd rfl hshallow.cause_ne

theorem sound_expectAs {kind : Kind} (expected : String) (hkind : kind ≠ .endOfInput) :
  Sound (expectAs kind expected) (fun _ _ tokens token => tokens = [token] ∧ token.kind = kind)
  := by
  intro cursor cursor' token hvalid h
  obtain ⟨rest, hrest, htoken, rfl⟩ := (expectAs_eq_ok_iff hvalid hkind).mp h
  exact ⟨[token], rest, hrest, rfl, rfl, htoken⟩

theorem Viable.expectAs {kind : Kind} {expected : String} {f : Token → Read α}
    (hkind : kind ≠ .endOfInput) (hexpected : expected ≠ Kind.openCurly.description)
    (hf : ∀ {token : Token}, token.kind = kind →
      Viable depth inFunction (f token) (fun tokens => form (token :: tokens))) :
  Viable depth inFunction (expectAs kind expected >>= f) form
  := by
  have hspelled : ∃ (tokens : List Token) (token : Token), tokens = [token] ∧ token.kind = kind :=
    ⟨_, ⟨kind, "", default⟩, rfl, rfl⟩
  apply Viable.bind (sound_expectAs expected hkind)
  · constructor
    · intro _
      exact hspelled
    · intro cursor hvalid _ _
      by_cases htoken : cursor.kind = kind
      · obtain ⟨token, rest, hrest, hcursor⟩ := Cursor.rest_eq_of_kind hvalid (htoken ▸ hkind)
        exact .of_ok ⟨_, _, expectAs_of_cons hrest (hcursor.trans htoken)⟩
      · apply CompletedAt.congr _ (CompletedAt.unexpected hexpected (fun _ => hspelled))
        rw [Read.expectAs, kind_bind, if_neg htoken]
  · rintro first token ⟨rfl, htoken⟩
    exact hf htoken

theorem description_ne_openCurly {kind : Kind} (h : kind ≠ .openCurly) :
  kind.description ≠ Kind.openCurly.description
  := by
  cases kind with
  | openCurly => exact absurd rfl h
  | _ => decide

/-- The bracket that opens a block is left to `viable_blockWithin`. -/
theorem Viable.expect {kind : Kind} {f : Token → Read α}
    (hkind : kind ≠ .endOfInput ∧ kind ≠ .openCurly)
    (hf : ∀ {token : Token}, token.kind = kind →
      Viable depth inFunction (f token) (fun tokens => form (token :: tokens))) :
  Viable depth inFunction (expect kind >>= f) form
  := .expectAs hkind.1 (description_ne_openCurly hkind.2) hf

/-! ### Nesting -/

/-- What is read with one more open is completed there. -/
theorem Viable.nest {f : Unit → Read α} (hspelled : depth < maxDepth → ∃ tokens a, form tokens a)
    (hf : depth < maxDepth → Viable (depth + 1) inFunction (f ()) form) :
  Viable depth inFunction (nest >>= f) form
  where
  spelled := hspelled
  completed := by
    rintro cursor hvalid rfl rfl fault last herror hshallow
    by_cases hdepth : cursor.depth < maxDepth
    · rw [bind_of_ok (nest_of_lt hdepth)] at herror
      obtain ⟨_, hform⟩ := (hf hdepth).completed (hvalid.nested hdepth) rfl rfl herror hshallow
      exact ⟨hdepth, hform⟩
    · rw [bind_of_error (show nest cursor = .error _ cursor from if_neg hdepth)] at herror
      obtain ⟨rfl, rfl⟩ := EStateM.Result.error.inj herror
      exact absurd rfl hshallow.cause_ne

end

/-! ### Lists -/

section

variable {depth : Nat} {inFunction : Bool} {item : Read α}
  {form : Nat → Bool → List Token → α → Prop} (hsound : Sound item form)
  (hitem : Viable depth inFunction item (form depth inFunction))

include hsound hitem

theorem viable_moreItems (count : Nat) :
  Viable depth inFunction (moreItems item count) (fun tokens others =>
    ∀ {before : List Token} {first : α}, form depth inFunction before first →
      Separated (form depth inFunction) (before ++ tokens) (first :: others))
  := by
  have hnone {before : List Token} {first : α} (hfirst : form depth inFunction before first) :
      Separated (form depth inFunction) (before ++ []) [first] := by
    simpa using Separated.one hfirst
  induction count with
  | zero => apply Viable.pure @hnone
  | succ count ih =>
    constructor
    · intro _
      exact ⟨[], [], @hnone⟩
    · rintro cursor hvalid rfl rfl
      by_cases hkind : cursor.kind = .comma
      · obtain ⟨comma, rest, hrest, hcomma⟩ := Cursor.rest_eq_of_kind hvalid (by simp [hkind])
        have hcomma := hcomma.trans hkind
        apply CompletedAt.tail hrest (moreItems_of_comma hrest hcomma)
        apply CompletedAt.bind (hvalid.withRest rest) hsound
          (hitem.completed (hvalid.withRest rest) rfl rfl)
        intro tokens second hsecond
        apply Viable.bind (sound_moreItems hsound count) ih
        intro tokens' others hothers
        apply Viable.pure
        intro before first hfirst
        rw [List.append_nil]
        apply Separated.more hfirst hcomma (hothers hsecond)
      · apply CompletedAt.of_ok ⟨_, _, moreItems_of_ne hkind⟩

theorem viable_items :
  Viable depth inFunction (items item) (Separated (form depth inFunction))
  := by
  apply Viable.bind hsound hitem
  intro tokens first hfirst
  apply Viable.get
  intro cursor
  apply Viable.bind (sound_moreItems hsound _) (viable_moreItems hsound hitem _)
  intro tokens' others hothers
  apply Viable.pure
  rw [List.append_nil]
  apply hothers hfirst

theorem viable_itemsInParens :
  Viable depth inFunction (itemsInParens item) (InParens (form depth inFunction))
  := by
  apply Viable.expect (by decide)
  intro opening hopening
  apply Viable.kind
  intro kind
  split
  · rw [pure_bind]
    apply Viable.expectAs (by decide) (by decide)
    intro closing hclosing
    apply Viable.pure
    apply InParens.none hopening hclosing
  · apply Viable.bind (sound_items hsound) (viable_items hsound hitem)
    intro tokens list hlist
    apply Viable.expectAs (by decide) (by decide)
    intro closing hclosing
    apply Viable.pure
    apply InParens.some hopening hlist hclosing

end

/-! ### Expressions -/

/-- A name alone is a factor. -/
theorem exists_factor (depth : Nat) :
  ∃ tokens e, Factor depth tokens e
  := ⟨[⟨.identifier, "", default⟩], _, Factor.atom rfl⟩

theorem exists_arguments {depth : Nat} (hdepth : depth < maxDepth) :
  ∃ tokens list, Arguments depth tokens list
  := ⟨[⟨.openParen, "", default⟩, ⟨.closeParen, "", default⟩], [], Arguments.none hdepth rfl rfl⟩

section

variable {depth : Nat} {inFunction : Bool} {inner : Read Expr}
  (hsound : Sound inner (fun depth _ => Expression depth))

include hsound

theorem viable_groupOf (hinner : Viable (depth + 1) inFunction inner (Expression (depth + 1))) :
  Viable depth inFunction (groupOf inner) (Factor depth)
  := by
  apply Viable.nest (fun _ => exists_factor depth)
  intro hdepth
  apply Viable.expect (by decide)
  intro opening hopening
  apply Viable.bind hsound hinner
  intro tokens e he
  apply Viable.expect (by decide)
  intro closing hclosing
  apply Viable.of_ok
  · exact ⟨[], _, Factor.ofGroup hdepth hopening he hclosing⟩
  · intro cursor
    exact ⟨_, _, rfl⟩

theorem viable_argumentsOf
    (hinner : Viable (depth + 1) inFunction inner (Expression (depth + 1))) :
  Viable depth inFunction (argumentsOf inner) (Arguments depth)
  := by
  apply Viable.nest exists_arguments
  intro hdepth
  apply Viable.bind (sound_itemsInParens hsound) (viable_itemsInParens hsound hinner)
  intro tokens list hlist
  apply Viable.of_ok
  · use [], list
    rw [List.append_nil]
    apply arguments_iff.mpr ⟨hdepth, hlist⟩
  · intro cursor
    exact ⟨_, _, rfl⟩

theorem viable_factorOf (hinner : Viable (depth + 1) inFunction inner (Expression (depth + 1))) :
  Viable depth inFunction (factorOf inner) (Factor depth)
  where
  spelled := fun _ => exists_factor depth
  completed := by
    rintro cursor hvalid rfl rfl
    cases hatom : cursor.kind.atom? with
    | none =>
      apply CompletedAt.congr (factorOf_of_none hatom)
      split
      · apply (viable_groupOf hsound hinner).completed hvalid rfl rfl
      · apply CompletedAt.unexpected (by decide) (fun _ => exists_factor _)
    | some sort =>
      obtain ⟨token, rest, hrest, htoken⟩ :=
        Cursor.rest_eq_of_kind hvalid (ne_end_of_atom? hatom)
      by_cases hsort : sort = .name
      · have hname := Kind.atom?_eq_name_iff.mp (hsort ▸ hatom)
        apply CompletedAt.congr (factorOf_of_name hname)
        apply CompletedAt.tail hrest (bind_of_ok (advance_of_cons hrest))
        apply CompletedAt.congr kind_bind
        split
        · apply CompletedAt.bind (hvalid.withRest rest) (sound_argumentsOf hsound)
            ((viable_argumentsOf hsound hinner).completed (hvalid.withRest rest) rfl rfl)
          intro tokens list hlist
          apply Viable.pure
          rw [List.append_nil]
          apply Factor.call (htoken.trans hname) hlist
        · apply CompletedAt.of_ok ⟨_, _, rfl⟩
      · apply CompletedAt.congr (factorOf_of_literal hatom hsort)
        apply CompletedAt.tail hrest (bind_of_ok (advance_of_cons hrest))
        apply CompletedAt.of_ok ⟨_, _, rfl⟩

end

section

variable {depth : Nat} {inFunction : Bool} {factor : Read Expr}
  (hsound : Sound factor (fun depth _ => Factor depth))
  (hfactor : Viable depth inFunction factor (Factor depth))

include hsound hfactor

theorem viable_chain (count : Nat) (left : Expr) :
  Viable depth inFunction (chain factor count left) (fun tokens e =>
    ∀ {before : List Token}, Expression depth before left → Expression depth (before ++ tokens) e)
  := by
  have hnone {left : Expr} {before : List Token} (hleft : Expression depth before left) :
      Expression depth (before ++ []) left := by
    rwa [List.append_nil]
  induction count generalizing left with
  | zero => apply Viable.pure (@hnone left)
  | succ count ih =>
    constructor
    · intro _
      exact ⟨[], left, hnone⟩
    · rintro cursor hvalid rfl rfl
      cases hkind : cursor.kind.isOperator with
      | true =>
        obtain ⟨sign, rest, hrest, hsign⟩ :=
          Cursor.rest_eq_of_kind hvalid (ne_end_of_isOperator hkind)
        rw [← hsign] at hkind
        apply CompletedAt.tail hrest (chain_of_operator hrest hkind)
        apply CompletedAt.bind (hvalid.withRest rest) hsound
          (hfactor.completed (hvalid.withRest rest) rfl rfl)
        intro tokens right hright
        apply (ih _).mono
        intro tokens' e he before hleft
        have := he (Expression.operator hleft hkind hright)
        simpa using this
      | false => apply CompletedAt.of_ok ⟨_, _, chain_of_not hkind⟩

theorem viable_chainOf :
  Viable depth inFunction (chainOf factor) (Expression depth)
  := by
  apply Viable.bind hsound hfactor
  intro tokens first hfirst
  apply Viable.get
  intro cursor
  apply (viable_chain hsound hfactor _ first).mono
  intro tokens' e he
  apply he (Expression.factor hfirst)

end

theorem viable_exprWithin (levels depth : Nat) (inFunction : Bool) :
  Viable depth inFunction (exprWithin levels) (Expression depth)
  := by
  induction levels generalizing depth with
  | zero =>
    constructor
    · intro _
      obtain ⟨tokens, e, he⟩ := exists_factor depth
      exact ⟨tokens, e, Expression.factor he⟩
    · intro cursor _ _ _
      apply CompletedAt.tooDeep
  | succ levels ih =>
    apply viable_chainOf (sound_factorOf (sound_exprWithin levels))
    apply viable_factorOf (sound_exprWithin levels) (ih (depth + 1))

theorem viable_expr (depth : Nat) (inFunction : Bool) :
  Viable depth inFunction expr (Expression depth)
  := viable_exprWithin _ depth inFunction

/-! ### Statements without a block -/

section

variable {depth : Nat} {inFunction : Bool}

/-- A value and then a semicolon make a statement. -/
theorem viable_ended {form : List Token → Stmt → Prop} {stmt : Expr → Stmt}
    (h : ∀ {tokens : List Token} {value : Expr} {ending : Token}, Expression depth tokens value →
      ending.kind = .semicolon → form (tokens ++ [ending]) (stmt value)) :
  Viable depth inFunction (do
    let value ← expr
    let _ ← expect .semicolon
    return stmt value) form
  := by
  apply Viable.bind sound_expr (viable_expr depth inFunction)
  intro tokens value hvalue
  apply Viable.expect (by decide)
  intro ending hending
  apply Viable.pure
  apply h hvalue hending

theorem viable_assignment {name : Token} (hname : name.kind = .identifier) :
  Viable depth inFunction (assignment name.value) (fun tokens stmt =>
    Statement depth inFunction (name :: tokens) [stmt])
  := by
  apply Viable.expect (by decide)
  intro sign hsign
  apply viable_ended
  intro tokens value ending hvalue hending
  apply Statement.assignment hname hsign hvalue hending

theorem viable_call {name : Token} (hname : name.kind = .identifier) :
  Viable depth inFunction (call name.value) (fun tokens stmt =>
    Statement depth inFunction (name :: tokens) [stmt])
  := by
  apply Viable.bind (sound_argumentsOf sound_expr) (viable_argumentsOf sound_expr (viable_expr _ _))
  intro tokens list hlist
  apply Viable.of_ok
  · use [], .call name.value list
    rw [List.append_nil]
    apply Statement.call hname hlist
  · intro cursor
    rw [kind_bind]
    split
    · cases hrest : cursor.rest with
      | nil => exact ⟨_, _, bind_of_ok (by rw [advance, hrest])⟩
      | cons token rest => exact ⟨_, _, bind_of_ok (advance_of_cons hrest)⟩
    · exact ⟨_, _, rfl⟩

/-- The reader completes a statement that starts with a token of the given kind. -/
def CompletesStmt (kind : Kind) (read : Read Stmt) : Prop :=
  ∀ ⦃cursor : Cursor⦄, cursor.Valid → cursor.kind = kind →
    CompletedAt (fun tokens stmt => Statement cursor.depth cursor.inFunction tokens [stmt]) read
      cursor

/-- A reader that passes the first token of a statement and goes on. -/
theorem CompletesStmt.advance {kind : Kind} (hkind : kind ≠ .endOfInput) {f : Token → Read Stmt}
    (hf : ∀ {depth : Nat} {inFunction : Bool} {token : Token}, token.kind = kind →
      Viable depth inFunction (f token) (fun tokens stmt =>
        Statement depth inFunction (token :: tokens) [stmt])) :
  CompletesStmt kind (advance >>= f)
  := by
  intro cursor hvalid hcursor
  obtain ⟨token, rest, hrest, htoken⟩ := Cursor.rest_eq_of_kind hvalid (hcursor ▸ hkind)
  apply CompletedAt.tail hrest (bind_of_ok (advance_of_cons hrest))
  apply (hf (htoken.trans hcursor)).completed (hvalid.withRest rest) rfl rfl

theorem completesStmt_declaration :
  CompletesStmt .typeName declaration
  := by
  apply CompletesStmt.advance (by decide)
  intro depth inFunction type htype
  apply Viable.expect (by decide)
  intro name hname
  apply Viable.expect (by decide)
  intro sign hsign
  apply viable_ended
  intro tokens value ending hvalue hending
  apply Statement.declaration htype hname hsign hvalue hending

theorem completesStmt_named :
  CompletesStmt .identifier named
  := by
  apply CompletesStmt.advance (by decide)
  intro depth inFunction name hname
  apply Viable.kind
  intro kind
  split
  · apply viable_assignment hname
  apply Viable.kind
  intro kind
  split
  · apply viable_call hname
  · constructor
    · apply (viable_assignment hname).spelled
    · rintro cursor hvalid rfl rfl
      apply CompletedAt.unexpected (by decide) (viable_assignment hname).spelled

/-- A result outside of every function could have been another statement. -/
theorem completesStmt_result :
  CompletesStmt .retornar result
  := by
  intro cursor hvalid hkind
  apply CompletedAt.congr get_bind
  split
  · rename_i hfunction
    obtain ⟨keyword, rest, hrest, hkeyword⟩ := Cursor.rest_eq_of_kind hvalid (by simp [hkind])
    apply CompletedAt.tail hrest (bind_of_ok (advance_of_cons hrest))
    apply (viable_ended _).completed (hvalid.withRest rest) rfl rfl
    intro tokens value ending hvalue hending
    rw [hfunction]
    apply Statement.result (hkeyword.trans hkind) hvalue hending
  · apply CompletedAt.fail (by simp [Cause.expected?])
    intro hdepth
    have hname : Token.kind ⟨.identifier, "", default⟩ = .identifier := rfl
    obtain ⟨tokens, stmt, hstmt⟩ := (viable_assignment hname).spelled hdepth
    exact ⟨_, stmt, hstmt⟩

end

/-! ### Statements with a block -/

theorem viable_condition (depth : Nat) (inFunction : Bool) :
  Viable depth inFunction condition (Condition depth)
  := by
  apply Viable.expect (by decide)
  intro opening hopening
  apply Viable.bind sound_expr (viable_expr depth inFunction)
  intro tokens e he
  apply Viable.expect (by decide)
  intro closing hclosing
  apply Viable.pure
  apply Condition.mk hopening he hclosing

theorem viable_parameter (depth : Nat) (inFunction : Bool) :
  Viable depth inFunction parameter IsParameter
  := by
  apply Viable.expect (by decide)
  intro type htype
  apply Viable.expect (by decide)
  intro name hname
  apply Viable.pure
  apply IsParameter.mk htype hname

section

/-- Blocks of every scope are completed, wherever they stand. -/
def ViableBlock (block : Scope → Read (List Stmt)) : Prop :=
  ∀ scope depth inFunction, Viable depth inFunction (block scope)
    (Block depth (scope == .function || inFunction))

variable {block : Scope → Read (List Stmt)} (hsound : SoundBlock block) (hblock : ViableBlock block)

include hsound hblock

theorem completesStmt_loopOf :
  CompletesStmt .mientras (loopOf block)
  := by
  apply CompletesStmt.advance (by decide)
  intro depth inFunction keyword hkeyword
  apply Viable.bind sound_condition (viable_condition depth inFunction)
  intro first condition hcondition
  apply Viable.bind (hsound .loop) (hblock .loop depth inFunction)
  intro second body hbody
  apply Viable.pure
  rw [List.append_nil]
  apply Statement.loop hkeyword hcondition hbody

theorem completesStmt_functionOf :
  CompletesStmt .funcion (functionOf block)
  := by
  apply CompletesStmt.advance (by decide)
  intro depth inFunction keyword hkeyword
  apply Viable.expect (by decide)
  intro name hname
  apply Viable.bind (sound_itemsInParens sound_parameter)
    (viable_itemsInParens sound_parameter (viable_parameter depth inFunction))
  intro first parameters hparameters
  apply Viable.bind (hsound .function) (hblock .function depth inFunction)
  intro second body hbody
  apply Viable.pure
  rw [List.append_nil]
  apply Statement.function hkeyword hname hparameters hbody

theorem viable_alternativeOf (depth : Nat) (inFunction : Bool) :
  Viable depth inFunction (alternativeOf block) (fun tokens stmts =>
    tokens = [] ∧ stmts = []
      ∨ ∃ keyword third body, tokens = keyword :: third ∧ keyword.kind = .sino
          ∧ Block depth inFunction third body ∧ stmts = [.alternative body])
  where
  spelled := fun _ => ⟨[], [], .inl ⟨rfl, rfl⟩⟩
  completed := by
    rintro cursor hvalid rfl rfl
    apply CompletedAt.congr kind_bind
    split
    · rename_i hkind
      obtain ⟨keyword, rest, hrest, hkeyword⟩ := Cursor.rest_eq_of_kind hvalid (by simp [hkind])
      apply CompletedAt.tail hrest (bind_of_ok (advance_of_cons hrest))
      apply CompletedAt.bind (hvalid.withRest rest) (hsound .conditional)
        ((hblock .conditional _ _).completed (hvalid.withRest rest) rfl rfl)
      intro third body hbody
      apply Viable.pure
      rw [List.append_nil]
      exact .inr ⟨keyword, third, body, rfl, hkeyword.trans hkind, hbody, rfl⟩
    · apply CompletedAt.of_ok ⟨_, _, rfl⟩

/-- A conditional is completed without an alternative, if its alternative has not begun. -/
theorem completedAt_conditional {cursor : Cursor} (hvalid : cursor.Valid)
    (hkind : cursor.kind = .si) :
  CompletedAt (Statement cursor.depth cursor.inFunction) (do
    let consequence ← consequenceOf block
    let alternative ← alternativeOf block
    return consequence :: alternative) cursor
  := by
  obtain ⟨keyword, rest, hrest, hkeyword⟩ := Cursor.rest_eq_of_kind hvalid (by simp [hkind])
  have hkeyword := hkeyword.trans hkind
  have hvalid := hvalid.withRest rest
  rw [consequenceOf]
  simp only [bind_assoc, pure_bind]
  apply CompletedAt.tail hrest (bind_of_ok (advance_of_cons hrest))
  apply CompletedAt.bind hvalid sound_condition ((viable_condition _ _).completed hvalid rfl rfl)
  intro first condition hcondition
  apply Viable.bind (hsound .conditional) (hblock .conditional _ _)
  intro second body hbody
  apply Viable.bind (sound_alternativeOf hsound) (viable_alternativeOf hsound hblock _ _)
  intro third others hothers
  apply Viable.pure
  rw [List.append_nil]
  obtain ⟨rfl, rfl⟩ | ⟨otherwise, third, other, rfl, hotherwise, hother, rfl⟩ := hothers
  · rw [List.append_nil]
    apply Statement.conditional hkeyword hcondition hbody
  · have : Statement cursor.depth cursor.inFunction _ _ :=
      Statement.alternative hkeyword hcondition hbody hotherwise hother
    simpa using this

omit hsound hblock in
theorem CompletesStmt.single {kind : Kind} {read : Read Stmt} (h : CompletesStmt kind read)
    {cursor : Cursor} (hvalid : cursor.Valid) (hkind : cursor.kind = kind) :
  CompletedAt (Statement cursor.depth cursor.inFunction) (do return [← read]) cursor
  := by
  intro fault last herror hshallow
  cases hread : read cursor with
  | ok stmt next =>
    rw [bind_of_ok hread] at herror
    contradiction
  | error fault' last' =>
    rw [bind_of_error hread] at herror
    obtain ⟨rfl, rfl⟩ := EStateM.Result.error.inj herror
    obtain ⟨hdepth, passed, more, stmt, hpassed, hstmt⟩ := h hvalid hkind hread hshallow
    exact ⟨hdepth, passed, more, [stmt], hpassed, hstmt⟩

theorem viable_stmtOf (depth : Nat) (inFunction : Bool) :
  Viable depth inFunction (whole (stmtOf block)) (Statement depth inFunction)
  := by
  -- whatever a statement cannot start with stands where a semicolon could
  have hempty (depth : Nat) (inFunction : Bool) :
      ∃ tokens stmts, Statement depth inFunction tokens stmts :=
    ⟨[⟨.semicolon, "", default⟩], [], Statement.empty rfl⟩
  rw [whole_stmtOf]
  constructor
  · intro _
    apply hempty
  · rintro cursor hvalid rfl rfl
    apply CompletedAt.congr kind_bind
    cases hkind : cursor.kind with
    | typeName => apply completesStmt_declaration.single hvalid hkind
    | identifier => apply completesStmt_named.single hvalid hkind
    | si => apply completedAt_conditional hsound hblock hvalid hkind
    | mientras => apply (completesStmt_loopOf hsound hblock).single hvalid hkind
    | funcion => apply (completesStmt_functionOf hsound hblock).single hvalid hkind
    | retornar => apply completesStmt_result.single hvalid hkind
    | semicolon =>
      obtain ⟨ending, rest, hrest, _⟩ := Cursor.rest_eq_of_kind hvalid (by simp [hkind])
      apply CompletedAt.tail hrest (bind_of_ok (advance_of_cons hrest))
      apply CompletedAt.of_ok ⟨_, _, rfl⟩
    | _ => apply CompletedAt.fail (by simp [Cause.expected?]) (fun _ => hempty _ _)

end

/-! ### Blocks and programs -/

section

variable {depth : Nat} {inFunction : Bool} {stmts : Read (List Stmt)}
  (hsound : Sound stmts Statement)
  (hstmts : Viable depth inFunction stmts (Statement depth inFunction))

include hsound hstmts

theorem viable_cons {others : Read (List Stmt)} (hsound' : Sound others Statements)
    (hothers : Viable depth inFunction others (Statements depth inFunction)) :
  Viable depth inFunction (do
    let first ← stmts
    let second ← others
    return first ++ second) (Statements depth inFunction)
  := by
  apply Viable.bind hsound hstmts
  intro tokens first hfirst
  apply Viable.bind hsound' hothers
  intro tokens' second hsecond
  apply Viable.pure
  rw [List.append_nil]
  apply Statements.cons hfirst hsecond

theorem viable_stmtsToClose (count : Nat) :
  Viable depth inFunction (stmtsToClose stmts count) (Statements depth inFunction)
  := by
  have hnone {cursor : Cursor} :
      CompletedAt (Statements depth inFunction) (unexpected Kind.closeCurly.description)
        cursor := by
    apply CompletedAt.unexpected (by decide)
    intro _
    exact ⟨[], [], Statements.nil⟩
  induction count with
  | zero =>
    constructor
    · intro _
      exact ⟨[], [], Statements.nil⟩
    · intro cursor _ _ _
      apply hnone
  | succ count ih =>
    constructor
    · intro _
      exact ⟨[], [], Statements.nil⟩
    · intro cursor hvalid hdepth hfunction
      by_cases hclose : cursor.kind = .closeCurly
      · apply CompletedAt.of_ok ⟨_, _, stmtsToClose_of_close hclose⟩
      by_cases hend : cursor.kind = .endOfInput
      · apply CompletedAt.congr (stmtsToClose_of_end hend) hnone
      · apply CompletedAt.congr (stmtsToClose_of_other hclose hend)
        apply (viable_cons hsound hstmts (sound_stmtsToClose hsound count) ih).completed
          hvalid hdepth hfunction

theorem viable_stmtsToEnd (count : Nat) :
  Viable depth inFunction (stmtsToEnd stmts count) (Statements depth inFunction)
  := by
  induction count with
  | zero => apply Viable.pure Statements.nil
  | succ count ih =>
    apply Viable.get
    intro cursor
    split
    · apply Viable.pure Statements.nil
    · apply viable_cons hsound hstmts (sound_stmtsToEnd hsound count) ih

end

theorem exists_block {depth : Nat} (hdepth : depth < maxDepth) (inFunction : Bool) :
  ∃ tokens body, Block depth inFunction tokens body
  := ⟨[⟨.openCurly, "", default⟩, ⟨.closeCurly, "", default⟩], [],
      Block.mk hdepth rfl Statements.nil rfl⟩

/-- What is read of a block after its opening bracket is completed by the closing one. -/
theorem exists_completed_block {stmts : Read (List Stmt)} {count : Nat} {scope : Scope}
    {cursor last : Cursor} {opening : Token} {rest : List Token} {fault : Fault}
    (hvalid : cursor.Valid) (hdepth : cursor.depth < maxDepth)
    (hopening : opening.kind = .openCurly) (hsound : Sound stmts Statement)
    (hstmts : ∀ depth inFunction, Viable depth inFunction stmts (Statement depth inFunction))
    (herror : (do
      let body ← stmtsToClose stmts count
      exitScope
      let _ ← expect .closeCurly
      return body : Read (List Stmt)) ((cursor.within scope).withRest rest) = .error fault last)
    (hshallow : Shallow fault last) :
  ∃ passed more body, rest = passed ++ last.rest
    ∧ Block cursor.depth (scope == .function || cursor.inFunction)
        (opening :: (passed ++ more)) body
  := by
  have hwithin := (hvalid.within hdepth scope).withRest rest
  cases hread : stmtsToClose stmts count ((cursor.within scope).withRest rest) with
  | error fault' last' =>
    rw [bind_of_error hread] at herror
    obtain ⟨rfl, rfl⟩ := EStateM.Result.error.inj herror
    obtain ⟨_, passed, more, body, hpassed, hbody⟩ :=
      (viable_stmtsToClose hsound (hstmts _ _) count).completed hwithin rfl rfl hread hshallow
    refine ⟨passed, more ++ [⟨.closeCurly, "", default⟩], body, hpassed, ?_⟩
    rw [← List.append_assoc]
    rw [Cursor.inFunction_withRest, Cursor.inFunction_within] at hbody
    apply Block.mk hdepth hopening hbody rfl
  | ok body next =>
    -- the block is closed in the scope around it, hence the rule for sequences does not apply
    rw [bind_of_ok hread] at herror
    obtain ⟨tokens, rest', hrest, rfl, hbody⟩ := sound_stmtsToClose hsound count hwithin hread
    rw [Cursor.rest_withRest] at hrest
    rw [Cursor.withRest_withRest, exitScope_bind_within] at herror
    rw [Cursor.inFunction_withRest, Cursor.inFunction_within] at hbody
    have hclosing : Viable cursor.depth cursor.inFunction
        (expect .closeCurly >>= fun _ => pure body)
        (fun more => Block cursor.depth (scope == .function || cursor.inFunction)
          (opening :: (tokens ++ more))) := by
      apply Viable.expect (by decide)
      intro closing hclosing
      apply Viable.pure
      apply Block.mk hdepth hopening hbody hclosing
    obtain ⟨_, passed, more, body', hpassed, hbody'⟩ :=
      hclosing.completed (hvalid.withRest rest') rfl rfl herror hshallow
    refine ⟨tokens ++ passed, more, body', ?_, ?_⟩
    · rw [hrest, List.append_assoc, ← hpassed, Cursor.rest_withRest]
    · rwa [List.append_assoc]

theorem viable_blockWithin (levels : Nat) :
  ViableBlock (blockWithin levels)
  := by
  induction levels with
  | zero =>
    intro scope depth inFunction
    constructor
    · intro hdepth
      apply exists_block hdepth
    · intro cursor _ _ _
      apply CompletedAt.tooDeep
  | succ levels ih =>
    intro scope depth inFunction
    constructor
    · intro hdepth
      apply exists_block hdepth
    rintro cursor hvalid rfl rfl fault last herror hshallow
    by_cases hdepth : cursor.depth < maxDepth
    · use hdepth
      rw [blockWithin, bind_of_ok (enterScope_of_lt hdepth)] at herror
      by_cases hkind : cursor.kind = .openCurly
      · obtain ⟨opening, rest, hrest, hopening⟩ := Cursor.rest_eq_of_kind hvalid (by simp [hkind])
        have hopening := hopening.trans hkind
        have hopened : expect .openCurly (cursor.within scope)
            = .ok opening ((cursor.within scope).withRest rest) :=
          expect_of_cons hrest hopening
        rw [bind_of_ok hopened, get_bind] at herror
        obtain ⟨passed, more, body, hpassed, hbody⟩ := exists_completed_block hvalid hdepth hopening
          (sound_stmtOf (sound_blockWithin levels))
          (viable_stmtOf (sound_blockWithin levels) ih) herror hshallow
        refine ⟨opening :: passed, more, body, ?_, hbody⟩
        rw [hrest, List.cons_append, ← hpassed]
      -- the bracket is missing, and the block may be empty
      · have hmissing : expect .openCurly (cursor.within scope)
            = unexpected Kind.openCurly.description (cursor.within scope) := by
          rw [expect, expectAs, kind_bind]
          apply congrFun (if_neg hkind)
        rw [bind_of_error hmissing] at herror
        obtain ⟨rfl, rfl⟩ := EStateM.Result.error.inj herror
        obtain ⟨tokens, body, hbody⟩ :=
          exists_block hdepth (scope == .function || cursor.inFunction)
        exact ⟨[], tokens, body, rfl, hbody⟩
    · have hdeep : enterScope scope cursor = .error ⟨.tooDeep maxDepth, _⟩ cursor :=
        bind_of_error (if_neg hdepth)
      rw [blockWithin, bind_of_error hdeep] at herror
      obtain ⟨rfl, rfl⟩ := EStateM.Result.error.inj herror
      exact absurd rfl hshallow.cause_ne

theorem viable_program (depth : Nat) (inFunction : Bool) :
  Viable depth inFunction program (fun tokens program =>
    Statements depth inFunction tokens program.body)
  := by
  have hsound : Sound (whole stmt) Statement := sound_stmtOf (sound_blockWithin _)
  have hstmt : Viable depth inFunction (whole stmt) (Statement depth inFunction) :=
    viable_stmtOf (sound_blockWithin _) (viable_blockWithin _) depth inFunction
  apply Viable.get
  intro cursor
  apply Viable.bind (sound_stmtsToEnd hsound _) (viable_stmtsToEnd hsound hstmt _)
  intro tokens body hbody
  apply Viable.pure
  rwa [List.append_nil]

end Read

end Mientras
