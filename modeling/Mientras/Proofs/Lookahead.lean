import Mathlib.Tactic.Common
import Mientras.Proofs.Lexeme
import Mientras.Proofs.Sound

/-!
# Readers look at one token

Two cursors are `Alike` for some tokens when nothing in these tokens but their places tells them
apart.  A reader is `Local` when it passes only tokens and depends only on the tokens that it
passes and on the token where it ends: from a cursor that is alike so far it ends in the same way,
after as many tokens.  Every reader is local, and it fails only at the token where it ends.

The loops of the readers are bounded by the number of tokens that are left, which may differ between
two cursors that are alike.  It does not matter, since a loop that may go on as often as there are
tokens never stops for another reason than the token at the cursor.
-/

namespace Mientras

namespace Cursor

/-- The token at the end is the only end of the input. -/
structure Sealed (cursor : Cursor) : Prop extends cursor.Valid where
  inside : ∀ token ∈ cursor.rest, token.kind ≠ .endOfInput

theorem sealed_ofTokens (tokens : List Token) :
  (ofTokens tokens).Sealed
  where
  toValid := valid_ofTokens tokens
  inside := by
    intro token htoken hend
    have := List.all_eq_true.mp List.all_takeWhile token htoken
    simp [Token.isEnd, hend] at this

theorem Sealed.withRest {cursor : Cursor} (h : cursor.Sealed) {token : Token} {rest : List Token}
    (hrest : cursor.rest = token :: rest) :
  (cursor.withRest rest).Sealed
  where
  toValid := h.toValid.withRest rest
  inside := fun other hother => h.inside other (hrest ▸ List.mem_cons_of_mem _ hother)

theorem Sealed.kind_eq_end_iff {cursor : Cursor} (h : cursor.Sealed) :
  cursor.kind = .endOfInput ↔ cursor.rest = []
  := by
  constructor
  · intro hkind
    cases hrest : cursor.rest with
    | nil => rfl
    | cons token rest =>
      rw [kind_of_cons hrest] at hkind
      exact absurd hkind (h.inside token (by simp [hrest]))
  · intro hrest
    rw [kind, current, hrest]
    exact h.closed

/-- The tokens from the cursor on, the end of the input with them. -/
def toEnd (cursor : Cursor) : List Token :=
  cursor.rest ++ [cursor.stop]

/-- The tokens from the cursor on without their places. -/
def ahead (cursor : Cursor) : List Lexeme :=
  cursor.toEnd.map Token.lexeme

theorem head_ahead (cursor : Cursor) :
  cursor.ahead.head? = some cursor.current.lexeme
  := by
  cases hrest : cursor.rest <;> simp [ahead, toEnd, current, hrest]

/-- The cursors stand in the same scopes before tokens that differ at most in their places, the next
`count` of them and the one after these. -/
structure Alike (count : Nat) (cursor other : Cursor) : Prop where
  left : cursor.Sealed
  right : other.Sealed
  scopes : cursor.scopes = other.scopes
  depth : cursor.depth = other.depth
  ahead : cursor.ahead.take (count + 1) = other.ahead.take (count + 1)

namespace Alike

variable {count : Nat} {cursor other : Cursor}

theorem refl (count : Nat) (h : cursor.Sealed) :
  Alike count cursor cursor
  := ⟨h, h, rfl, rfl, rfl⟩

theorem mono {fewer : Nat} (h : Alike count cursor other) (hle : fewer ≤ count) :
  Alike fewer cursor other
  where
  left := h.left
  right := h.right
  scopes := h.scopes
  depth := h.depth
  ahead := by
    have := congrArg (List.take (fewer + 1)) h.ahead
    rwa [List.take_take, List.take_take, Nat.min_eq_left (by omega)] at this

theorem current (h : Alike count cursor other) :
  cursor.current.lexeme = other.current.lexeme
  := by
  have hhead := congrArg List.head? h.ahead
  rw [List.head?_take, List.head?_take, head_ahead, head_ahead] at hhead
  simpa using hhead

theorem kind (h : Alike count cursor other) :
  cursor.kind = other.kind
  := congrArg Lexeme.kind h.current

theorem inFunction (h : Alike count cursor other) :
  cursor.inFunction = other.inFunction
  := by
  rw [Cursor.inFunction, h.scopes, ← Cursor.inFunction]

theorem rest_eq_nil_iff (h : Alike count cursor other) :
  cursor.rest = [] ↔ other.rest = []
  := by
  rw [← h.left.kind_eq_end_iff, ← h.right.kind_eq_end_iff, h.kind]

theorem exists_cons (h : Alike count cursor other) {token : Token} {rest : List Token}
    (hrest : cursor.rest = token :: rest) :
  ∃ token' rest', other.rest = token' :: rest' ∧ token.lexeme = token'.lexeme
  := by
  cases hother : other.rest with
  | nil =>
    rw [h.rest_eq_nil_iff.mpr hother] at hrest
    simp at hrest
  | cons token' rest' =>
    use token', rest', rfl
    simpa [Cursor.current, hrest, hother] using h.current

theorem tail (h : Alike (count + 1) cursor other) {token token' : Token}
    {rest rest' : List Token} (hrest : cursor.rest = token :: rest)
    (hother : other.rest = token' :: rest') :
  Alike count (cursor.withRest rest) (other.withRest rest')
  where
  left := h.left.withRest hrest
  right := h.right.withRest hother
  scopes := h.scopes
  depth := h.depth
  ahead := by
    have hahead := h.ahead
    simp only [Cursor.ahead, toEnd, hrest, hother, List.cons_append, List.map_cons,
      List.take_succ_cons, List.cons.injEq] at hahead
    exact hahead.2

/-- What is open may change in both cursors alike. -/
theorem change (h : Alike count cursor other) {cursor' other' : Cursor}
    (hcursor : cursor'.rest = cursor.rest ∧ cursor'.stop = cursor.stop)
    (hother : other'.rest = other.rest ∧ other'.stop = other.stop)
    (hscopes : cursor'.scopes = other'.scopes) (hdepth : cursor'.depth = other'.depth)
    (hle : cursor'.depth ≤ maxDepth) :
  Alike count cursor' other'
  where
  left := ⟨⟨hcursor.2 ▸ h.left.closed, hle⟩, hcursor.1 ▸ h.left.inside⟩
  right := ⟨⟨hother.2 ▸ h.right.closed, hdepth ▸ hle⟩, hother.1 ▸ h.right.inside⟩
  scopes := hscopes
  depth := hdepth
  ahead := by
    rw [Cursor.ahead, Cursor.ahead, toEnd, toEnd, hcursor.1, hcursor.2, hother.1, hother.2]
    exact h.ahead

end Alike

/-- The second cursor is the given number of tokens after the first. -/
structure Passes (count : Nat) (cursor next : Cursor) : Prop where
  rest : next.rest = cursor.rest.drop count
  stop : next.stop = cursor.stop
  length : next.rest.length + count = cursor.rest.length

namespace Passes

variable {cursor next : Cursor}

/-- A reader that passes no token may change only what is open. -/
theorem zero (hrest : next.rest = cursor.rest) (hstop : next.stop = cursor.stop) :
  Passes 0 cursor next
  := ⟨hrest, hstop, by rw [hrest, Nat.add_zero]⟩

theorem trans {count more : Nat} {last : Cursor} (h : Passes count cursor next)
    (h' : Passes more next last) :
  Passes (count + more) cursor last
  where
  rest := by rw [h'.rest, h.rest, List.drop_drop]
  stop := h'.stop.trans h.stop
  length := by
    have := h.length
    have := h'.length
    omega

theorem tail {token : Token} {rest : List Token} (hrest : cursor.rest = token :: rest) :
  Passes 1 cursor (cursor.withRest rest)
  := ⟨by rw [hrest]; rfl, rfl, by rw [hrest]; rfl⟩

theorem current_eq {count : Nat} (h : Passes count cursor next) :
  cursor.toEnd[count]? = some next.current
  := by
  have hlength := h.length
  rw [toEnd, current, h.stop]
  cases hrest : next.rest with
  | nil =>
    have hcount : count = cursor.rest.length := by simpa [hrest] using hlength
    simp [hcount]
  | cons token rest =>
    rw [hrest, List.length_cons] at hlength
    rw [List.getElem?_append_left (by omega), ← List.head?_drop, ← h.rest, hrest]
    rfl

end Passes

end Cursor

namespace Read

open Cursor (Alike Passes Sealed)

variable {α β : Type}

/-- The cursor at which a reader ended. -/
def last : EStateM.Result Fault Cursor α → Cursor
  | .ok _ cursor => cursor
  | .error _ cursor => cursor

@[simp]
theorem last_ok (a : α) (cursor : Cursor) :
  last (.ok a cursor) = cursor
  := rfl

@[simp]
theorem last_error (fault : Fault) (cursor : Cursor) :
  last (.error fault cursor : EStateM.Result Fault Cursor α) = cursor
  := rfl

/-- Both readers found the value, or both failed for the same cause, each at the token at its
cursor. -/
inductive SameOutcome : EStateM.Result Fault Cursor α → EStateM.Result Fault Cursor α → Prop where
  | ok {a : α} {cursor other : Cursor} : SameOutcome (.ok a cursor) (.ok a other)
  | error {fault fault' : Fault} {cursor other : Cursor} (hcause : fault.cause = fault'.cause)
      (hposition : fault.position = cursor.current.span.start)
      (hposition' : fault'.position = other.current.span.start) :
      SameOutcome (.error fault cursor) (.error fault' other)

/-- From the cursor the first reader passes some tokens.  From another cursor that is alike for
these tokens, where at most `bound` tokens are left, the second reader passes as many and ends in
the same way; the cursors are then alike for the tokens that are left of those for which they
were. -/
def LocalAt (bound : Nat) (read read' : Read α) (cursor : Cursor) : Prop :=
  ∃ passed, Passes passed cursor (last (read cursor)) ∧ (last (read cursor)).Sealed
    ∧ ∀ ⦃more : Nat⦄ ⦃other : Cursor⦄, other.rest.length ≤ bound →
        Alike (passed + more) cursor other →
        Passes passed other (last (read' other))
          ∧ Alike more (last (read cursor)) (last (read' other))
          ∧ SameOutcome (read cursor) (read' other)

/-- The reader looks no further than the token where it ends. -/
def Local (read : Read α) : Prop :=
  ∀ ⦃cursor : Cursor⦄, cursor.Sealed → ∀ bound, LocalAt bound read read cursor

/-! ### Readers in sequence -/

theorem SameOutcome.of_ok {a : α} {cursor : Cursor} {result : EStateM.Result Fault Cursor α}
    (h : SameOutcome (.ok a cursor) result) :
  ∃ other, result = .ok a other
  := by
  cases h
  exact ⟨_, rfl⟩

theorem SameOutcome.of_error {fault : Fault} {cursor : Cursor}
    {result : EStateM.Result Fault Cursor α} (h : SameOutcome (.error fault cursor) result) :
  ∃ fault' other, result = .error fault' other ∧ fault.cause = fault'.cause
    ∧ fault.position = cursor.current.span.start ∧ fault'.position = other.current.span.start
  := by
  cases h with
  | error hcause hposition hposition' => exact ⟨_, _, rfl, hcause, hposition, hposition'⟩

theorem LocalAt.mono {bound fewer : Nat} {read read' : Read α} {cursor : Cursor}
    (h : LocalAt bound read read' cursor) (hle : fewer ≤ bound) :
  LocalAt fewer read read' cursor
  := by
  obtain ⟨passed, hpassed, hlast, hlocal⟩ := h
  use passed, hpassed, hlast
  intro more other hbound
  apply hlocal (Nat.le_trans hbound hle)

/-- The second reader of a sequence has fewer tokens left by those that the first passes. -/
theorem LocalAt.bind {bound : Nat} {x x' : Read α} {f f' : α → Read β} {cursor : Cursor}
    (hx : LocalAt bound x x' cursor)
    (hf : ∀ {a : α} {next : Cursor}, x cursor = .ok a next → next.Sealed →
      next.rest.length ≤ cursor.rest.length →
      LocalAt (bound + next.rest.length - cursor.rest.length) (f a) (f' a) next) :
  LocalAt bound (x >>= f) (x' >>= f') cursor
  := by
  obtain ⟨passed, hpassed, hnext, hlocal⟩ := hx
  cases hread : x cursor with
  | error fault next =>
    rw [hread] at hpassed hnext hlocal
    rw [LocalAt, bind_of_error hread]
    use passed, hpassed, hnext
    intro more other hbound halike
    obtain ⟨hpasses, hlast, hsame⟩ := hlocal hbound halike
    obtain ⟨fault', next', hother, hcause, hposition, hposition'⟩ := hsame.of_error
    rw [hother] at hpasses hlast
    rw [bind_of_error hother]
    exact ⟨hpasses, hlast, .error hcause hposition hposition'⟩
  | ok a next =>
    rw [hread, last_ok] at hpassed hnext hlocal
    have hlength := hpassed.length
    obtain ⟨passed', hpassed', hnext', hlocal'⟩ := hf hread hnext (by omega)
    rw [LocalAt, bind_of_ok hread]
    use passed + passed', hpassed.trans hpassed', hnext'
    intro more other hbound halike
    rw [Nat.add_assoc] at halike
    obtain ⟨hpasses, hlast, hsame⟩ := hlocal hbound halike
    obtain ⟨next', hother⟩ := hsame.of_ok
    rw [hother, last_ok] at hpasses hlast
    have hlength' := hpasses.length
    rw [bind_of_ok hother]
    obtain ⟨hpasses', hrest⟩ := hlocal' (by omega) hlast
    exact ⟨hpasses.trans hpasses', hrest⟩

theorem Local.bind {x : Read α} {f : α → Read β} (hx : Local x) (hf : ∀ a, Local (f a)) :
  Local (x >>= f)
  := by
  intro cursor hcursor bound
  apply LocalAt.bind (hx hcursor bound)
  intro a next _ hnext _
  apply hf a hnext

/-- A reader that finds a value without passing a token. -/
theorem LocalAt.stop {bound : Nat} {read read' : Read α} {cursor : Cursor} {a : α}
    (hcursor : cursor.Sealed) (h : read cursor = .ok a cursor)
    (h' : ∀ {count : Nat} {other : Cursor}, other.rest.length ≤ bound → Alike count cursor other →
      read' other = .ok a other) :
  LocalAt bound read read' cursor
  := by
  rw [LocalAt, h]
  use 0, .zero rfl rfl, hcursor
  intro more other hbound halike
  rw [h' hbound halike]
  exact ⟨.zero rfl rfl, halike.mono (by omega), .ok⟩

/-- Readers that do the same as local readers from the cursor and from every other that is alike. -/
theorem LocalAt.congr {bound : Nat} {read read' chosen chosen' : Read α} {cursor : Cursor}
    (h : read cursor = chosen cursor)
    (h' : ∀ {count : Nat} {other : Cursor}, other.rest.length ≤ bound → Alike count cursor other →
      read' other = chosen' other)
    (hchosen : LocalAt bound chosen chosen' cursor) :
  LocalAt bound read read' cursor
  := by
  obtain ⟨passed, hpassed, hlast, hlocal⟩ := hchosen
  rw [LocalAt, h]
  use passed, hpassed, hlast
  intro more other hbound halike
  rw [h' hbound halike]
  apply hlocal hbound halike

theorem local_pure (a : α) :
  Local (pure a)
  := by
  intro cursor hcursor bound
  apply LocalAt.stop hcursor rfl
  intros
  rfl

/-- A reader may decide by a property of the cursor that its tokens and scopes show. -/
theorem Local.ite {p : Cursor → Bool} {yes no : Read α}
    (hp : ∀ {count : Nat} {cursor other : Cursor}, Alike count cursor other → p cursor = p other)
    (hyes : Local yes) (hno : Local no) :
  Local (do if p (← get) then yes else no)
  := by
  intro cursor hcursor bound
  cases hcase : p cursor with
  | true =>
    apply LocalAt.congr _ _ (hyes hcursor bound)
    · rw [get_bind, hcase, if_pos rfl]
    · intro count other _ halike
      rw [get_bind, ← hp halike, hcase, if_pos rfl]
  | false =>
    apply LocalAt.congr _ _ (hno hcursor bound)
    · rw [get_bind, hcase, if_neg (by simp)]
    · intro count other _ halike
      rw [get_bind, ← hp halike, hcase, if_neg (by simp)]

/-- A loop may be bounded by the number of tokens that are left. -/
theorem local_get (loop : Nat → Read α)
    (h : ∀ {cursor : Cursor} (bound : Nat), cursor.Sealed →
      LocalAt bound (loop cursor.rest.length) (loop bound) cursor) :
  Local (get >>= fun cursor => loop cursor.rest.length)
  := by
  intro cursor hcursor bound
  obtain ⟨passed, hpassed, hlast, _⟩ := h 0 hcursor
  use passed, hpassed, hlast
  intro more other hbound halike
  obtain ⟨passed', hpassed', _, hlocal⟩ := h other.rest.length hcursor
  obtain rfl : passed = passed' := by
    have := hpassed.length
    have := hpassed'.length
    omega
  apply hlocal (Nat.le_refl _) halike

/-! ### Single tokens -/

theorem local_kind :
  Local kind
  := by
  intro cursor hcursor bound
  apply LocalAt.stop hcursor rfl
  intro count other _ halike
  change EStateM.Result.ok other.kind other = .ok cursor.kind other
  rw [halike.kind]

theorem local_fail {cause : Token → Cause}
    (hcause : ∀ token token', token.lexeme = token'.lexeme → cause token = cause token') :
  Local (fail cause : Read α)
  := by
  intro cursor hcursor bound
  use 0, .zero rfl rfl, hcursor
  intro more other _ halike
  exact ⟨.zero rfl rfl, halike.mono (by omega), .error (hcause _ _ halike.current) rfl rfl⟩

theorem description_of_lexeme {token token' : Token} (h : token.lexeme = token'.lexeme) :
  token.description = token'.description
  := by
  obtain ⟨hkind, hvalue⟩ := Lexeme.mk.inj h
  rw [Token.description, Token.description, hkind, hvalue]

theorem local_unexpected (expected : String) :
  Local (unexpected expected : Read α)
  := by
  apply local_fail
  intro token token' h
  rw [Token.isEnd, Token.isEnd, (Lexeme.mk.inj h).1, description_of_lexeme h]

/-- Readers that go on as local readers after a token. -/
theorem LocalAt.tail {bound : Nat} {read read' chosen chosen' : Read α} {cursor : Cursor}
    {token : Token} {rest : List Token} (hrest : cursor.rest = token :: rest)
    (h : read cursor = chosen (cursor.withRest rest))
    (h' : ∀ {other : Cursor} {token' : Token} {rest' : List Token},
      other.rest = token' :: rest' → other.rest.length ≤ bound → token.lexeme = token'.lexeme →
      read' other = chosen' (other.withRest rest'))
    (hchosen : LocalAt (bound - 1) chosen chosen' (cursor.withRest rest)) :
  LocalAt bound read read' cursor
  := by
  obtain ⟨passed, hpassed, hlast, hlocal⟩ := hchosen
  rw [LocalAt, h]
  use 1 + passed, (Passes.tail hrest).trans hpassed, hlast
  intro more other hbound halike
  obtain ⟨token', rest', hother, hlexeme⟩ := halike.exists_cons hrest
  rw [h' hother hbound hlexeme]
  rw [Nat.add_assoc, Nat.add_comm] at halike
  rw [hother, List.length_cons] at hbound
  obtain ⟨hpasses, hlast⟩ :=
    hlocal (by rw [Cursor.rest_withRest]; omega) (halike.tail hrest hother)
  exact ⟨(Passes.tail hother).trans hpasses, hlast⟩

section

-- what follows a token may use its text, but not its place
variable {f : Token → Read β}
  (hvalue : ∀ token token', token.value = token'.value → f token = f token')

include hvalue

theorem local_advance (hf : ∀ token, Local (f token)) :
  Local (advance >>= f)
  := by
  intro cursor hcursor bound
  cases hrest : cursor.rest with
  | cons token rest =>
    apply LocalAt.tail hrest (bind_of_ok (advance_of_cons hrest)) _
      (hf token (hcursor.withRest hrest) _)
    intro other token' rest' hother _ hlexeme
    rw [bind_of_ok (advance_of_cons hother), hvalue _ _ (Lexeme.mk.inj hlexeme).2]
  | nil =>
    have hadvance {cursor : Cursor} (hrest : cursor.rest = []) :
        advance cursor = .ok cursor.stop cursor := by
      simp [advance, hrest]
    apply LocalAt.congr (bind_of_ok (hadvance hrest)) _ (hf cursor.stop hcursor bound)
    intro count other _ halike
    have hother := halike.rest_eq_nil_iff.mp hrest
    have hstop : cursor.stop.lexeme = other.stop.lexeme := by
      simpa [Cursor.current, hrest, hother] using halike.current
    rw [bind_of_ok (hadvance hother), hvalue _ _ (Lexeme.mk.inj hstop).2]

theorem local_expectAs (kind : Kind) (expected : String) (hf : ∀ token, Local (f token)) :
  Local (expectAs kind expected >>= f)
  := by
  rw [expectAs, bind_assoc]
  apply Local.bind local_kind
  intro other
  split
  · apply local_advance hvalue hf
  · apply Local.bind (local_unexpected expected) hf

theorem local_expect (kind : Kind) (hf : ∀ token, Local (f token)) :
  Local (expect kind >>= f)
  := local_expectAs hvalue kind _ hf

end

/-! ### Nesting -/

theorem local_modify {g : Cursor → Cursor}
    (hrest : ∀ cursor, (g cursor).rest = cursor.rest ∧ (g cursor).stop = cursor.stop)
    (hscopes : ∀ {count : Nat} {cursor other : Cursor}, Alike count cursor other →
      (g cursor).scopes = (g other).scopes ∧ (g cursor).depth = (g other).depth)
    (hdepth : ∀ cursor, (g cursor).depth ≤ cursor.depth) :
  Local (modify g : Read Unit)
  := by
  intro cursor hcursor bound
  change LocalAt bound (fun cursor => .ok () (g cursor)) (fun cursor => .ok () (g cursor)) cursor
  have hchange {more : Nat} {other : Cursor} (halike : Alike more cursor other) :
      Alike more (g cursor) (g other) := by
    obtain ⟨hs, hd⟩ := hscopes halike
    apply halike.change (hrest _) (hrest _) hs hd
    exact Nat.le_trans (hdepth cursor) hcursor.depth_le
  use 0, .zero (hrest cursor).1 (hrest cursor).2, (hchange (.refl 0 hcursor)).left
  intro more other _ halike
  exact ⟨.zero (hrest other).1 (hrest other).2, (hchange halike).mono (by omega), .ok⟩

theorem local_nest :
  Local nest
  := by
  intro cursor hcursor bound
  by_cases hdepth : cursor.depth < maxDepth
  · have hnested {more : Nat} {other : Cursor} (halike : Alike more cursor other) :
        Alike more cursor.nested other.nested :=
      halike.change ⟨rfl, rfl⟩ ⟨rfl, rfl⟩ halike.scopes (congrArg (· + 1) halike.depth) hdepth
    rw [LocalAt, nest_of_lt hdepth]
    use 0, .zero rfl rfl, (hnested (.refl 0 hcursor)).left
    intro more other _ halike
    rw [nest_of_lt (halike.depth ▸ hdepth)]
    exact ⟨.zero rfl rfl, (hnested halike).mono (by omega), .ok⟩
  · have hfail : Local (fail (fun _ => .tooDeep maxDepth) : Read Unit) := by
      apply local_fail
      intros
      rfl
    apply LocalAt.congr (if_neg hdepth) _ (hfail hcursor bound)
    intro count other _ halike
    apply if_neg (halike.depth ▸ hdepth)

theorem local_unnest :
  Local unnest
  := by
  apply local_modify
  · intro cursor
    exact ⟨rfl, rfl⟩
  · intro count cursor other halike
    exact ⟨halike.scopes, congrArg (· - 1) halike.depth⟩
  · intro cursor
    apply Nat.sub_le

theorem local_enterScope (scope : Scope) :
  Local (enterScope scope)
  := by
  apply Local.bind local_nest
  intro _
  apply local_modify
  · intro cursor
    exact ⟨rfl, rfl⟩
  · intro count cursor other halike
    exact ⟨congrArg (scope :: ·) halike.scopes, halike.depth⟩
  · intro cursor
    apply Nat.le_refl

theorem local_exitScope :
  Local exitScope
  := by
  apply Local.bind _ (fun _ => local_unnest)
  apply local_modify
  · intro cursor
    exact ⟨rfl, rfl⟩
  · intro count cursor other halike
    exact ⟨congrArg List.tail halike.scopes, halike.depth⟩
  · intro cursor
    apply Nat.le_refl

/-! ### Lists -/

section

variable {item : Read α} (hitem : Local item)

include hitem

theorem localAt_moreItems {count : Nat} {cursor : Cursor} (bound : Nat) (hcursor : cursor.Sealed)
    (hcount : cursor.rest.length ≤ count) :
  LocalAt bound (moreItems item count) (moreItems item bound) cursor
  := by
  induction count generalizing bound cursor with
  | zero =>
    have hend := hcursor.kind_eq_end_iff.mpr (List.eq_nil_of_length_eq_zero (by omega))
    apply LocalAt.stop hcursor rfl
    intro _ other _ halike
    apply moreItems_of_ne
    simp [← halike.kind, hend]
  | succ count ih =>
    by_cases hkind : cursor.kind = .comma
    · obtain ⟨comma, rest, hrest, hcomma⟩ :=
        Cursor.rest_eq_of_kind hcursor.toValid (by simp [hkind])
      rw [hrest, List.length_cons] at hcount
      have hlocal : LocalAt (bound - 1)
          (do return (← item) :: (← moreItems item count))
          (do return (← item) :: (← moreItems item (bound - 1))) (cursor.withRest rest) := by
        apply LocalAt.bind (hitem (hcursor.withRest hrest) _)
        intro first next _ hnext hle
        rw [Cursor.rest_withRest] at hle ⊢
        apply LocalAt.bind ((ih (bound - 1) hnext (by omega)).mono (by omega))
        intro others next' _ hnext' _
        apply local_pure _ hnext'
      apply LocalAt.tail hrest (moreItems_of_comma hrest (hcomma.trans hkind)) _ hlocal
      intro other comma' rest' hother hbound hlexeme
      rw [hother, List.length_cons] at hbound
      obtain ⟨fewer, rfl⟩ : ∃ fewer, bound = fewer + 1 := ⟨bound - 1, by omega⟩
      apply moreItems_of_comma hother
      rw [← (Lexeme.mk.inj hlexeme).1, hcomma, hkind]
    · apply LocalAt.stop hcursor (moreItems_of_ne hkind)
      intro _ other _ halike
      apply moreItems_of_ne
      rwa [← halike.kind]

theorem local_items :
  Local (items item)
  := by
  apply Local.bind hitem
  intro first
  apply local_get (fun count => do return first :: (← moreItems item count))
  intro cursor bound hcursor
  apply LocalAt.bind (localAt_moreItems hitem bound hcursor (Nat.le_refl _))
  intro others next _ hnext _
  apply local_pure _ hnext

theorem local_itemsInParens :
  Local (itemsInParens item)
  := by
  have hclose (list : List α) :
      Local (expectAs .closeParen "`,` or `)`" >>= fun _ => (pure list : Read (List α))) := by
    apply local_expectAs (fun _ _ _ => rfl)
    intro _
    apply local_pure
  apply local_expect (fun _ _ _ => rfl)
  intro _
  apply Local.bind local_kind
  intro kind
  split
  · rw [pure_bind]
    apply hclose
  · apply Local.bind (local_items hitem) hclose

end

/-! ### Expressions -/

section

variable {inner : Read Expr} (hinner : Local inner)

include hinner

theorem local_groupOf :
  Local (groupOf inner)
  := by
  apply Local.bind local_nest
  intro _
  apply local_expect (fun _ _ _ => rfl)
  intro _
  apply Local.bind hinner
  intro e
  apply local_expect (fun _ _ _ => rfl)
  intro _
  apply Local.bind local_unnest
  intro _
  apply local_pure

theorem local_argumentsOf :
  Local (argumentsOf inner)
  := by
  apply Local.bind local_nest
  intro _
  apply Local.bind (local_itemsInParens hinner)
  intro list
  apply Local.bind local_unnest
  intro _
  apply local_pure

theorem local_factorOf :
  Local (factorOf inner)
  := by
  apply Local.bind local_kind
  intro kind
  cases kind.atom? with
  | none =>
    apply Local.bind local_kind
    intro kind
    split
    · apply local_groupOf hinner
    · apply local_unexpected
  | some sort =>
    by_cases hsort : sort = .name
    · subst hsort
      apply local_advance
      · intro token token' hvalue
        simp only [hvalue]
      intro token
      apply Local.bind local_kind
      intro kind
      split
      · apply Local.bind (local_argumentsOf hinner)
        intro list
        apply local_pure
      · apply local_pure
    · have hliteral :
          Local (advance >>= fun token => (pure (.atom sort token.value) : Read Expr)) := by
        apply local_advance
        · intro token token' hvalue
          simp only [hvalue]
        intro token
        apply local_pure
      cases sort with
      | name => exact absurd rfl hsort
      | _ => apply hliteral

end

section

variable {factor : Read Expr} (hfactor : Local factor)

include hfactor

theorem localAt_chain {count : Nat} {left : Expr} {cursor : Cursor} (bound : Nat)
    (hcursor : cursor.Sealed) (hcount : cursor.rest.length ≤ count) :
  LocalAt bound (chain factor count left) (chain factor bound left) cursor
  := by
  induction count generalizing bound left cursor with
  | zero =>
    have hend := hcursor.kind_eq_end_iff.mpr (List.eq_nil_of_length_eq_zero (by omega))
    apply LocalAt.stop hcursor rfl
    intro _ other _ halike
    apply chain_of_not
    rw [← halike.kind, hend]
    rfl
  | succ count ih =>
    cases hkind : cursor.kind.isOperator with
    | true =>
      obtain ⟨sign, rest, hrest, hsign⟩ :=
        Cursor.rest_eq_of_kind hcursor.toValid (by rintro heq; simp [heq, Kind.isOperator] at hkind)
      rw [hrest, List.length_cons] at hcount
      have hlocal : LocalAt (bound - 1)
          (do chain factor count (.binary sign.value left (← factor) false))
          (do chain factor (bound - 1) (.binary sign.value left (← factor) false))
          (cursor.withRest rest) := by
        apply LocalAt.bind (hfactor (hcursor.withRest hrest) _)
        intro right next _ hnext hle
        rw [Cursor.rest_withRest] at hle ⊢
        apply (ih (bound - 1) hnext (by omega)).mono
        omega
      apply LocalAt.tail hrest (chain_of_operator hrest (hsign ▸ hkind)) _ hlocal
      intro other sign' rest' hother hbound hlexeme
      obtain ⟨hkind', hvalue⟩ := Lexeme.mk.inj hlexeme
      rw [hother, List.length_cons] at hbound
      obtain ⟨fewer, rfl⟩ : ∃ fewer, bound = fewer + 1 := ⟨bound - 1, by omega⟩
      rw [chain_of_operator hother (by rw [← hkind', hsign, hkind]), hvalue]
      rfl
    | false =>
      apply LocalAt.stop hcursor (chain_of_not hkind)
      intro _ other _ halike
      apply chain_of_not
      rwa [← halike.kind]

theorem local_chainOf :
  Local (chainOf factor)
  := by
  apply Local.bind hfactor
  intro first
  apply local_get (fun count => chain factor count first)
  intro cursor bound hcursor
  apply localAt_chain hfactor bound hcursor (Nat.le_refl _)

end

theorem local_exprWithin (levels : Nat) :
  Local (exprWithin levels)
  := by
  induction levels with
  | zero => apply local_fail (fun _ _ _ => rfl)
  | succ levels ih => apply local_chainOf (local_factorOf ih)

theorem local_expr :
  Local expr
  := local_exprWithin _

/-! ### Statements without a block -/

/-- A value and then a semicolon make a statement. -/
theorem local_ended (stmt : Expr → Stmt) :
  Local (do
    let value ← expr
    let _ ← expect .semicolon
    return stmt value)
  := by
  apply Local.bind local_expr
  intro value
  apply local_expect (fun _ _ _ => rfl)
  intro _
  apply local_pure

theorem local_declaration :
  Local declaration
  := by
  apply local_advance
  · intro type type' hvalue
    simp only [hvalue]
  intro type
  apply local_expect
  · intro name name' hvalue
    simp only [hvalue]
  intro name
  apply local_expect (fun _ _ _ => rfl)
  intro _
  apply local_ended

theorem local_assignment (name : String) :
  Local (assignment name)
  := by
  apply local_expect (fun _ _ _ => rfl)
  intro _
  apply local_ended

theorem local_call (callee : String) :
  Local (call callee)
  := by
  apply Local.bind (local_argumentsOf local_expr)
  intro list
  apply Local.bind local_kind
  intro kind
  split
  · apply local_advance (fun _ _ _ => rfl)
    intro _
    apply local_pure
  · apply local_pure

theorem local_named :
  Local named
  := by
  apply local_advance
  · intro name name' hvalue
    simp only [hvalue]
  intro name
  apply Local.bind local_kind
  intro kind
  split
  · apply local_assignment
  apply Local.bind local_kind
  intro kind
  split
  · apply local_call
  · apply local_unexpected

theorem local_result :
  Local result
  := by
  apply Local.ite Cursor.Alike.inFunction
  · apply local_advance (fun _ _ _ => rfl)
    intro _
    apply local_ended
  · apply local_fail (fun _ _ _ => rfl)

/-! ### Statements with a block -/

theorem local_condition :
  Local condition
  := by
  apply local_expect (fun _ _ _ => rfl)
  intro _
  apply Local.bind local_expr
  intro e
  apply local_expect (fun _ _ _ => rfl)
  intro _
  apply local_pure

theorem local_parameter :
  Local parameter
  := by
  apply local_expect
  · intro type type' hvalue
    simp only [hvalue]
  intro type
  apply local_expect
  · intro name name' hvalue
    simp only [hvalue]
  intro name
  apply local_pure

theorem whole_keeping (kept : List Stmt) (read : Read (List Stmt)) :
  whole (keeping kept read) = read
  := by
  funext cursor
  simp only [whole, keeping, EStateM.adaptExcept]
  cases read cursor <;> rfl

theorem whole_keeping_bind (kept : List Stmt) (read : Read α) (f : α → ReadStmts) :
  whole (keeping kept read >>= f) = read >>= fun a => whole (f a)
  := by
  funext cursor
  change EStateM.adaptExcept _ (EStateM.bind (EStateM.adaptExcept _ read) f) cursor
    = EStateM.bind read (fun a => whole (f a)) cursor
  simp only [EStateM.adaptExcept, EStateM.bind]
  cases read cursor <;> rfl

/-- A statement is read in the form that its first token shows. -/
theorem whole_stmtOf (block : Scope → Read (List Stmt)) :
  whole (stmtOf block) = (do
    match (← kind).form with
    | .declaration => return [← declaration]
    | .identifier => return [← named]
    | .conditional => do
      let consequence ← consequenceOf block
      let alternative ← alternativeOf block
      return consequence :: alternative
    | .alternative => fail fun _ => .strayAlternative
    | .loop => return [← loopOf block]
    | .function => return [← functionOf block]
    | .result => return [← result]
    | .empty => do
      let _ ← advance
      return []
    | .invalid => fail fun token => .expectedStatement token.description)
  := by
  funext cursor
  have hget (f : Cursor → ReadStmts) : whole (get >>= f) cursor = whole (f cursor) cursor := rfl
  rw [stmtOf, hget, kind_bind]
  cases cursor.kind.form with
  | conditional =>
    simp only [conditionalOf, whole_keeping_bind]
    rfl
  | _ => simp only [whole_keeping]

section

variable {block : Scope → Read (List Stmt)} (hblock : ∀ scope, Local (block scope))

include hblock

theorem local_loopOf :
  Local (loopOf block)
  := by
  apply local_advance (fun _ _ _ => rfl)
  intro _
  apply Local.bind local_condition
  intro condition
  apply Local.bind (hblock _)
  intro body
  apply local_pure

theorem local_functionOf :
  Local (functionOf block)
  := by
  apply local_advance (fun _ _ _ => rfl)
  intro _
  apply local_expect
  · intro name name' hvalue
    simp only [hvalue]
  intro name
  apply Local.bind (local_itemsInParens local_parameter)
  intro parameters
  apply Local.bind (hblock _)
  intro body
  apply local_pure

theorem local_consequenceOf :
  Local (consequenceOf block)
  := by
  apply local_advance (fun _ _ _ => rfl)
  intro _
  apply Local.bind local_condition
  intro condition
  apply Local.bind (hblock _)
  intro body
  apply local_pure

theorem local_alternativeOf :
  Local (alternativeOf block)
  := by
  apply Local.bind local_kind
  intro kind
  split
  · apply local_advance (fun _ _ _ => rfl)
    intro _
    apply Local.bind (hblock _)
    intro body
    apply local_pure
  · apply local_pure

theorem local_stmtOf :
  Local (whole (stmtOf block))
  := by
  rw [whole_stmtOf]
  apply Local.bind local_kind
  intro kind
  cases kind.form with
  | declaration => apply Local.bind local_declaration (fun _ => local_pure _)
  | identifier => apply Local.bind local_named (fun _ => local_pure _)
  | conditional =>
    apply Local.bind (local_consequenceOf hblock)
    intro consequence
    apply Local.bind (local_alternativeOf hblock)
    intro alternative
    apply local_pure
  | alternative => apply local_fail (fun _ _ _ => rfl)
  | loop => apply Local.bind (local_loopOf hblock) (fun _ => local_pure _)
  | function => apply Local.bind (local_functionOf hblock) (fun _ => local_pure _)
  | result => apply Local.bind local_result (fun _ => local_pure _)
  | empty => apply local_advance (fun _ _ _ => rfl) (fun _ => local_pure _)
  | invalid =>
    apply local_fail
    intro token token' h
    rw [description_of_lexeme h]

end

/-! ### Blocks and programs -/

theorem stmtsToEnd_of_nil {stmts : Read (List Stmt)} {count : Nat} {cursor : Cursor}
    (h : cursor.rest = []) :
  stmtsToEnd stmts count cursor = .ok [] cursor
  := by
  cases count with
  | zero => rfl
  | succ count =>
    rw [stmtsToEnd, get_bind, if_pos (by simp [Cursor.atEnd, h])]
    rfl

theorem stmtsToEnd_of_cons {stmts : Read (List Stmt)} {count : Nat} {cursor : Cursor}
    {token : Token} {rest : List Token} (h : cursor.rest = token :: rest) :
  stmtsToEnd stmts (count + 1) cursor = (do
    let first ← stmts
    let others ← stmtsToEnd stmts count
    return first ++ others : Read (List Stmt)) cursor
  := by
  rw [stmtsToEnd, get_bind, if_neg (by simp [Cursor.atEnd, h])]

section

variable {stmts : Read (List Stmt)} (hstmts : Local stmts) (hsound : Sound stmts Grammar.Statement)

include hstmts hsound

/-- A statement and then others, which a loop reads that has one turn less. -/
theorem localAt_cons {loop : Nat → Read (List Stmt)} {count : Nat} {cursor : Cursor} (bound : Nat)
    (hcursor : cursor.Sealed) (hcount : cursor.rest.length ≤ count + 1)
    (hloop : ∀ {next : Cursor}, next.Sealed → next.rest.length ≤ count →
      LocalAt (bound - 1) (loop count) (loop (bound - 1)) next) :
  LocalAt bound (do return (← stmts) ++ (← loop count))
    (do return (← stmts) ++ (← loop (bound - 1))) cursor
  := by
  apply LocalAt.bind (hstmts hcursor bound)
  intro first next hfirst hnext _
  obtain ⟨_, _, _, hless⟩ := hsound.starts hcursor.toValid hfirst
  apply LocalAt.bind ((hloop hnext (by omega)).mono (by omega))
  intro others next' _ hnext' _
  apply local_pure _ hnext'

theorem localAt_stmtsToClose {count : Nat} {cursor : Cursor} (bound : Nat)
    (hcursor : cursor.Sealed) (hcount : cursor.rest.length ≤ count) :
  LocalAt bound (stmtsToClose stmts count) (stmtsToClose stmts bound) cursor
  := by
  induction count generalizing bound cursor with
  | zero =>
    have hend := hcursor.kind_eq_end_iff.mpr (List.eq_nil_of_length_eq_zero (by omega))
    apply LocalAt.congr (stmtsToClose_of_end hend) _ (local_unexpected _ hcursor bound)
    intro _ other _ halike
    apply stmtsToClose_of_end (halike.kind ▸ hend)
  | succ count ih =>
    by_cases hend : cursor.kind = .endOfInput
    · apply LocalAt.congr (stmtsToClose_of_end hend) _ (local_unexpected _ hcursor bound)
      intro _ other _ halike
      apply stmtsToClose_of_end (halike.kind ▸ hend)
    -- another cursor has a token left too, hence its loop has a turn left
    have hsucc {more : Nat} {other : Cursor} (hbound : other.rest.length ≤ bound)
        (halike : Alike more cursor other) : ∃ fewer, bound = fewer + 1 := by
      have hother : other.rest ≠ [] :=
        mt halike.rest_eq_nil_iff.mpr (mt hcursor.kind_eq_end_iff.mpr hend)
      have := List.length_pos_iff.mpr hother
      exact ⟨bound - 1, by omega⟩
    by_cases hclose : cursor.kind = .closeCurly
    · apply LocalAt.stop hcursor (stmtsToClose_of_close hclose)
      intro _ other hbound halike
      obtain ⟨fewer, rfl⟩ := hsucc hbound halike
      apply stmtsToClose_of_close (halike.kind ▸ hclose)
    · apply LocalAt.congr (stmtsToClose_of_other hclose hend) _
        (localAt_cons hstmts hsound bound hcursor hcount (ih (bound - 1)))
      intro _ other hbound halike
      obtain ⟨fewer, rfl⟩ := hsucc hbound halike
      apply stmtsToClose_of_other (halike.kind ▸ hclose) (halike.kind ▸ hend)

theorem localAt_stmtsToEnd {count : Nat} {cursor : Cursor} (bound : Nat)
    (hcursor : cursor.Sealed) (hcount : cursor.rest.length ≤ count) :
  LocalAt bound (stmtsToEnd stmts count) (stmtsToEnd stmts bound) cursor
  := by
  induction count generalizing bound cursor with
  | zero =>
    have hrest : cursor.rest = [] := List.eq_nil_of_length_eq_zero (by omega)
    apply LocalAt.stop hcursor rfl
    intro _ other _ halike
    apply stmtsToEnd_of_nil (halike.rest_eq_nil_iff.mp hrest)
  | succ count ih =>
    cases hrest : cursor.rest with
    | nil =>
      apply LocalAt.stop hcursor (stmtsToEnd_of_nil hrest)
      intro _ other _ halike
      apply stmtsToEnd_of_nil (halike.rest_eq_nil_iff.mp hrest)
    | cons token rest =>
      apply LocalAt.congr (stmtsToEnd_of_cons hrest) _
        (localAt_cons hstmts hsound bound hcursor hcount (ih (bound - 1)))
      intro _ other hbound halike
      obtain ⟨token', rest', hother, _⟩ := halike.exists_cons hrest
      rw [hother, List.length_cons] at hbound
      obtain ⟨fewer, rfl⟩ : ∃ fewer, bound = fewer + 1 := ⟨bound - 1, by omega⟩
      apply stmtsToEnd_of_cons hother

end

theorem local_blockWithin (levels : Nat) (scope : Scope) :
  Local (blockWithin levels scope)
  := by
  induction levels generalizing scope with
  | zero => apply local_fail (fun _ _ _ => rfl)
  | succ levels ih =>
    apply Local.bind (local_enterScope scope)
    intro _
    apply local_expect (fun _ _ _ => rfl)
    intro _
    apply local_get (fun count => do
      let body ← stmtsToClose (whole (stmtOf (blockWithin levels))) count
      exitScope
      let _ ← expect .closeCurly
      return body)
    intro cursor bound hcursor
    apply LocalAt.bind (localAt_stmtsToClose (local_stmtOf ih) (sound_stmtOf (sound_blockWithin _))
      bound hcursor (Nat.le_refl _))
    intro body next _ hnext _
    have hexit : Local (do exitScope; let _ ← expect .closeCurly; return body) := by
      apply Local.bind local_exitScope
      intro _
      apply local_expect (fun _ _ _ => rfl) _ (fun _ => local_pure _)
    apply hexit hnext

theorem local_program :
  Local program
  := by
  apply local_get (fun count => do
    let body ← stmtsToEnd (whole stmt) count
    return Program.mk body)
  intro cursor bound hcursor
  apply LocalAt.bind (localAt_stmtsToEnd (local_stmtOf (local_blockWithin _))
    (sound_stmtOf (sound_blockWithin _)) bound hcursor (Nat.le_refl _))
  intro body next _ hnext _
  apply local_pure _ hnext

end Read

/-! ### Programs from tokens -/

/-- The results are the same, or both are failures for the same cause, at the start of tokens that
have the same index. -/
inductive Corresponds {α : Type} (tokens others : List Token) :
    Except Fault α → Except Fault α → Prop where
  | ok (a : α) : Corresponds tokens others (.ok a) (.ok a)
  | error (cause : Cause) {index : Nat} {token other : Token} (htoken : tokens[index]? = some token)
      (hother : others[index]? = some other) :
      Corresponds tokens others (.error ⟨cause, token.span.start⟩)
        (.error ⟨cause, other.span.start⟩)

theorem Corresponds.map {α β : Type} {tokens others : List Token} {first second : Except Fault α}
    (h : Corresponds tokens others first second) (f : α → β) :
  Corresponds tokens others (first.map f) (second.map f)
  := by
  cases h with
  | ok a => apply Corresponds.ok (f a)
  | error cause htoken hother => apply Corresponds.error cause htoken hother

/-- After the first end of the input nothing is seen. -/
theorem Cursor.toEnd_ofTokens {front more : List Token} {stop : Token}
    (hfront : ∀ token ∈ front, token.isEnd = false) (hstop : stop.isEnd = true) :
  (ofTokens (front ++ stop :: more)).toEnd = front ++ [stop]
  := by
  have hrest : (front ++ stop :: more).takeWhile (!·.isEnd) = front := by
    rw [List.takeWhile_append_of_pos (by simpa using hfront),
      List.takeWhile_cons_of_neg (by simp [hstop]), List.append_nil]
  have hfind : (front ++ stop :: more).find? (·.isEnd) = some stop := by
    rw [List.find?_append, List.find?_eq_none.mpr (by simpa using hfront),
      List.find?_cons_of_pos hstop]
    rfl
  rw [toEnd, ofTokens, hrest, stopOf, hfind]
  rfl

theorem toEnd_of_tokenize {source : String} {tokens : List Token}
    (h : tokenize source = .ok tokens) :
  (Cursor.ofTokens tokens).toEnd = tokens
  := by
  obtain ⟨lexemes, hscans, rfl⟩ := tokenize_eq_ok_iff.mp h
  apply Cursor.toEnd_ofTokens (hscans.isEnd_kept _) (Token.isEnd_endAt _)

/-- A program is read from its tokens without regard to their places. -/
theorem corresponds_ofTokens {tokens others : List Token}
    (h : (Cursor.ofTokens tokens).ahead = (Cursor.ofTokens others).ahead) :
  Corresponds (Cursor.ofTokens tokens).toEnd (Cursor.ofTokens others).toEnd
    (Program.ofTokens tokens) (Program.ofTokens others)
  := by
  have hsealed := Cursor.sealed_ofTokens tokens
  obtain ⟨passed, hpasses, _, hlocal⟩ :=
    Read.local_program hsealed (Cursor.ofTokens others).rest.length
  have halike : Cursor.Alike (passed + 0) (Cursor.ofTokens tokens) (Cursor.ofTokens others) :=
    ⟨hsealed, Cursor.sealed_ofTokens others, rfl, rfl, by rw [h]⟩
  obtain ⟨hpasses', _, hsame⟩ := hlocal (Nat.le_refl _) halike
  rw [Program.ofTokens, Program.ofTokens]
  cases hresult : Read.program (Cursor.ofTokens tokens) with
  | ok program next =>
    rw [hresult] at hsame
    obtain ⟨next', hresult'⟩ := hsame.of_ok
    rw [hresult']
    apply Corresponds.ok
  | error fault next =>
    rw [hresult] at hsame hpasses
    obtain ⟨fault', next', hresult', hcause, hposition, hposition'⟩ := hsame.of_error
    rw [hresult'] at hpasses' ⊢
    obtain ⟨cause, position⟩ := fault
    obtain ⟨cause', position'⟩ := fault'
    obtain rfl : cause = cause' := hcause
    obtain rfl : position = _ := hposition
    obtain rfl : position' = _ := hposition'
    apply Corresponds.error cause hpasses.current_eq hpasses'.current_eq

end Mientras
