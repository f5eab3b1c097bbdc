import Mathlib.Tactic.Common
import Mientras.Proofs.Refusal

/-!
# Cursors through any operations

The operations on a cursor may be used in any order, whatever the token at the cursor, and after
failures too.  `cursor.StandsAt tokens index` says that the cursor is at a token of the list, no
later than the first end of the input, from which on it sees the list as it was given, and that no
more is open than may be.  Every sequence of operations keeps this, and none goes back
(`standsAt_afterAll`).
-/

namespace Mientras

namespace Read

open Cursor (Passes Sealed)

variable {α : Type}

/-- What can be done at a cursor. -/
inductive Operation where
  | advance
  | expect (kind : Kind)
  | expectAs (kind : Kind) (expected : String)
  | unexpected (expected : String)
  | nest
  | unnest
  | enterScope (scope : Scope)
  | exitScope
  | expr
  | factor
  | group
  | arguments
  | declaration
  | named
  | assignment (name : String)
  | call (callee : String)
  | result
  | condition
  | parameter
  | loop
  | function
  | conditional
  | block (scope : Scope)
  | stmt
  | program

/-- The cursor after the operation, whether it fails or not. -/
def Operation.after (cursor : Cursor) : Operation → Cursor
  | .advance => last (Read.advance cursor)
  | .expect kind => last (Read.expect kind cursor)
  | .expectAs kind expected => last (Read.expectAs kind expected cursor)
  | .unexpected expected => last ((Read.unexpected expected : Read Unit) cursor)
  | .nest => last (Read.nest cursor)
  | .unnest => last (Read.unnest cursor)
  | .enterScope scope => last (Read.enterScope scope cursor)
  | .exitScope => last (Read.exitScope cursor)
  | .expr => last (Read.expr cursor)
  | .factor => last (Read.factor cursor)
  | .group => last (Read.group cursor)
  | .arguments => last (Read.arguments cursor)
  | .declaration => last (Read.declaration cursor)
  | .named => last (Read.named cursor)
  | .assignment name => last (Read.assignment name cursor)
  | .call callee => last (Read.call callee cursor)
  | .result => last (Read.result cursor)
  | .condition => last (Read.condition cursor)
  | .parameter => last (Read.parameter cursor)
  | .loop => last (Read.loop cursor)
  | .function => last (Read.function cursor)
  | .conditional => last (whole Read.conditional cursor)
  | .block scope => last (Read.block scope cursor)
  | .stmt => last (whole Read.stmt cursor)
  | .program => last (Read.program cursor)

/-- The cursor after operations. -/
def afterAll (cursor : Cursor) (operations : List Operation) : Cursor :=
  operations.foldl Operation.after cursor

/-! ### Readers that only go on -/

/-- The reader passes only tokens, and opens no more than may be open, whether it fails or not. -/
def Keeps (read : Read α) : Prop :=
  ∀ ⦃cursor : Cursor⦄, cursor.Sealed →
    ∃ passed, Passes passed cursor (last (read cursor)) ∧ (last (read cursor)).Sealed

theorem Local.keeps {read : Read α} (h : Local read) :
  Keeps read
  := by
  intro cursor hcursor
  obtain ⟨passed, hpasses, hlast, _⟩ := h hcursor 0
  exact ⟨passed, hpasses, hlast⟩

/-- A reader whose value shows the places of tokens is local when the value is not used. -/
theorem keeps_of_local_bind {read : Read α} (h : Local (read >>= fun _ => (pure () : Read Unit))) :
  Keeps read
  := by
  intro cursor hcursor
  obtain ⟨passed, hpasses, hlast⟩ := h.keeps hcursor
  have hsame : last ((read >>= fun _ => (pure () : Read Unit)) cursor) = last (read cursor) := by
    cases hread : read cursor with
    | ok a next =>
      rw [bind_of_ok hread]
      rfl
    | error fault next =>
      rw [bind_of_error hread]
      rfl
  rw [hsame] at hpasses hlast
  exact ⟨passed, hpasses, hlast⟩

theorem keeps_advance :
  Keeps advance
  := keeps_of_local_bind (local_advance (fun _ _ _ => rfl) fun _ => local_pure _)

theorem keeps_expectAs (kind : Kind) (expected : String) :
  Keeps (expectAs kind expected)
  := keeps_of_local_bind (local_expectAs (fun _ _ _ => rfl) kind expected fun _ => local_pure _)

theorem local_block (scope : Scope) :
  Local (block scope)
  := local_blockWithin _ scope

theorem local_conditional :
  Local (whole conditional)
  := by
  rw [conditional, conditionalOf, whole_keeping_bind]
  apply Local.bind (local_consequenceOf local_block)
  intro consequence
  rw [whole_keeping_bind]
  apply Local.bind (local_alternativeOf local_block)
  intro alternative
  apply local_pure

/-- Every operation passes only tokens, and opens no more than may be open. -/
theorem Operation.passes_after (operation : Operation) {cursor : Cursor} (h : cursor.Sealed) :
  ∃ passed, Passes passed cursor (operation.after cursor) ∧ (operation.after cursor).Sealed
  := by
  cases operation with
  | advance => apply keeps_advance h
  | expect kind => apply keeps_expectAs kind kind.description h
  | expectAs kind expected => apply keeps_expectAs kind expected h
  | unexpected expected => apply (local_unexpected (α := Unit) expected).keeps h
  | nest => apply local_nest.keeps h
  | unnest => apply local_unnest.keeps h
  | enterScope scope => apply (local_enterScope scope).keeps h
  | exitScope => apply local_exitScope.keeps h
  | expr => apply local_expr.keeps h
  | factor => apply (local_factorOf local_expr).keeps h
  | group => apply (local_groupOf local_expr).keeps h
  | arguments => apply (local_argumentsOf local_expr).keeps h
  | declaration => apply local_declaration.keeps h
  | named => apply local_named.keeps h
  | assignment name => apply (local_assignment name).keeps h
  | call callee => apply (local_call callee).keeps h
  | result => apply local_result.keeps h
  | condition => apply local_condition.keeps h
  | parameter => apply local_parameter.keeps h
  | loop => apply (local_loopOf local_block).keeps h
  | function => apply (local_functionOf local_block).keeps h
  | conditional => apply local_conditional.keeps h
  | block scope => apply (local_block scope).keeps h
  | stmt => apply (local_stmtOf local_block).keeps h
  | program => apply local_program.keeps h

theorem passes_afterAll (operations : List Operation) {cursor : Cursor} (h : cursor.Sealed) :
  ∃ passed, Passes passed cursor (afterAll cursor operations)
    ∧ (afterAll cursor operations).Sealed
  := by
  induction operations generalizing cursor with
  | nil => exact ⟨0, .zero rfl rfl, h⟩
  | cons operation operations ih =>
    obtain ⟨passed, hpasses, hnext⟩ := operation.passes_after h
    obtain ⟨more, hmore, hlast⟩ := ih hnext
    exact ⟨passed + more, hpasses.trans hmore, hlast⟩

end Read

/-! ### Places in the list of tokens -/

/-- The index of the first end of the input. -/
def firstEnd (tokens : List Token) : Nat :=
  (closed tokens).findIdx (·.isEnd)

/-- The cursor is at the token with the given index. -/
structure Cursor.StandsAt (tokens : List Token) (index : Nat) (cursor : Cursor) : Prop where
  /-- The first end of the input is not passed. -/
  index_le : index ≤ firstEnd tokens
  /-- There is a token at the cursor. -/
  current_eq : (closed tokens)[index]? = some cursor.current
  /-- The tokens from the cursor on are those of the list, up to the first end of the input. -/
  toEnd_eq : cursor.toEnd = ((closed tokens).take (firstEnd tokens + 1)).drop index
  depth_le : cursor.depth ≤ maxDepth

theorem firstEnd_eq (tokens : List Token) :
  firstEnd tokens = (Cursor.ofTokens tokens).rest.length
  := by
  obtain ⟨more, hclosed⟩ := exists_closed_eq tokens
  have hsealed := Cursor.sealed_ofTokens tokens
  have hrest : (Cursor.ofTokens tokens).rest.findIdx (·.isEnd)
      = (Cursor.ofTokens tokens).rest.length := by
    apply List.findIdx_eq_length.mpr
    intro token htoken
    simpa [Token.isEnd] using hsealed.inside token htoken
  have hstop : (Cursor.ofTokens tokens).stop.isEnd = true := Cursor.isEnd_stopOf tokens
  rw [firstEnd, hclosed, Cursor.toEnd, List.append_assoc, List.findIdx_append, hrest,
    if_neg (Nat.lt_irrefl _), List.singleton_append, List.findIdx_cons, hstop]
  simp

/-- A cursor that passed tokens from the first on is at the token after these. -/
theorem Cursor.Passes.standsAt {tokens : List Token} {index : Nat} {cursor : Cursor}
    (h : Passes index (ofTokens tokens) cursor) (hsealed : cursor.Sealed) :
  cursor.StandsAt tokens index
  := by
  obtain ⟨more, hclosed⟩ := exists_closed_eq tokens
  have hlength := h.length
  have htoEnd : (ofTokens tokens).toEnd.length = firstEnd tokens + 1 := by
    rw [toEnd, List.length_append, List.length_singleton, firstEnd_eq]
  constructor
  case index_le =>
    rw [firstEnd_eq]
    omega
  case current_eq =>
    rw [hclosed, List.getElem?_append_left (by rw [htoEnd, firstEnd_eq]; omega)]
    apply h.current_eq
  case toEnd_eq =>
    rw [hclosed, ← htoEnd, List.take_left, toEnd, toEnd, h.rest, h.stop,
      List.drop_append_of_le_length (by omega)]
  case depth_le => exact hsealed.depth_le

/-- A cursor that advances passes one token, but not the first end of the input. -/
theorem Cursor.Passes.advance {tokens : List Token} {index : Nat} {cursor : Cursor}
    (h : Passes index (ofTokens tokens) cursor) :
  Passes (min (index + 1) (firstEnd tokens)) (ofTokens tokens) (Read.Operation.advance.after cursor)
  := by
  have hlength := h.length
  rw [firstEnd_eq, Read.Operation.after, Read.advance]
  cases hrest : cursor.rest with
  | nil =>
    rw [hrest, List.length_nil] at hlength
    rw [Nat.min_eq_right (by omega), ← hlength, Nat.zero_add]
    exact h
  | cons token rest =>
    rw [hrest, List.length_cons] at hlength
    rw [Nat.min_eq_left (by omega)]
    apply h.trans (.tail hrest)

/-- After any operations a cursor is at a token of the list, no later than the first end of the
input, and after more operations no earlier.  The tokens from there on are as they were given, and
no more is open than may be. -/
theorem standsAt_afterAll (tokens : List Token) (operations more : List Read.Operation) :
  ∃ index next, index ≤ next
    ∧ (Read.afterAll (.ofTokens tokens) operations).StandsAt tokens index
    ∧ (Read.afterAll (.ofTokens tokens) (operations ++ more)).StandsAt tokens next
    ∧ (Read.afterAll (.ofTokens tokens) (operations ++ [.advance])).StandsAt tokens
        (min (index + 1) (firstEnd tokens))
  := by
  obtain ⟨index, hpasses, hsealed⟩ :=
    Read.passes_afterAll operations (Cursor.sealed_ofTokens tokens)
  obtain ⟨passed, hmore, hlast⟩ := Read.passes_afterAll more hsealed
  obtain ⟨_, _, hadvanced⟩ := Read.Operation.advance.passes_after hsealed
  use index, index + passed, Nat.le_add_right index passed
  rw [Read.afterAll, Read.afterAll, Read.afterAll, List.foldl_append, List.foldl_append]
  and_intros
  · apply hpasses.standsAt hsealed
  · apply (hpasses.trans hmore).standsAt hlast
  · apply hpasses.advance.standsAt hadvanced

end Mientras
