import Mathlib.Tactic.Common
import Mientras.Proofs.Balance

/-!
# Readers go on

A statement adds at most two statements to a list, and leaves at most one there when it fails.  A
loop that reads statements passes a token in each of its turns.  Hence it ends by itself: the number
of turns that the readers give it is never what stops it.  With what is known of the balance of
readers, this is `readers_balanced`.
-/

namespace Mientras

namespace Read

variable {α β : Type}

/-! ### What a statement adds to a list -/

/-- The statements are none, one, or a conditional and its alternative. -/
inductive Addition : List Stmt → Prop where
  | none : Addition []
  | one (stmt : Stmt) : Addition [stmt]
  | two (condition : Expr) (body other : List Stmt) :
      Addition [.conditional condition body, .alternative other]

/-- The reader failed before it had read a statement, or in the block of the alternative to a
conditional, which alone it had read. -/
inductive Leaves (block : Scope → Read (List Stmt)) (cursor : Cursor) :
    Interruption → Cursor → Prop where
  | none (fault : Fault) (last : Cursor) : Leaves block cursor ⟨fault, []⟩ last
  | consequence {condition : Expr} {body : List Stmt} {next last : Cursor} {keyword : Token}
      {rest : List Token} {fault : Fault}
      (hconsequence : consequenceOf block cursor = .ok (.conditional condition body) next)
      (hrest : next.rest = keyword :: rest) (hkeyword : keyword.kind = .sino)
      (hfails : block .conditional (next.withRest rest) = .error fault last) :
      Leaves block cursor ⟨fault, [.conditional condition body]⟩ last

theorem keeping_eq_error_iff {kept : List Stmt} {read : Read α} {cursor last : Cursor}
    {interruption : Interruption} :
  keeping kept read cursor = .error interruption last
    ↔ ∃ fault, read cursor = .error fault last ∧ interruption = ⟨fault, kept⟩
  := by
  simp only [keeping, EStateM.adaptExcept]
  cases read cursor with
  | ok a next => simp
  | error fault next =>
    simp only [EStateM.Result.error.injEq]
    constructor
    · rintro ⟨rfl, rfl⟩
      exact ⟨fault, ⟨rfl, rfl⟩, rfl⟩
    · rintro ⟨_, ⟨rfl, rfl⟩, rfl⟩
      exact ⟨rfl, rfl⟩

section

variable {block : Scope → Read (List Stmt)} {cursor last : Cursor} {interruption : Interruption}

theorem exists_conditional_of_consequenceOf {stmt : Stmt} {next : Cursor}
    (h : consequenceOf block cursor = .ok stmt next) :
  ∃ condition body, stmt = .conditional condition body
  := by
  obtain ⟨_, _, _, h⟩ := bind_eq_ok_iff.mp h
  obtain ⟨condition, _, _, h⟩ := bind_eq_ok_iff.mp h
  obtain ⟨body, _, _, h⟩ := bind_eq_ok_iff.mp h
  obtain ⟨rfl, _⟩ := pure_eq_ok_iff.mp h
  exact ⟨condition, body, rfl⟩

theorem eq_nil_or_alternative_of_alternativeOf {stmts : List Stmt} {next : Cursor}
    (h : alternativeOf block cursor = .ok stmts next) :
  stmts = [] ∨ ∃ other, stmts = [.alternative other]
  := by
  rw [alternativeOf, kind_bind] at h
  split at h
  · obtain ⟨_, _, _, h⟩ := bind_eq_ok_iff.mp h
    obtain ⟨other, _, _, h⟩ := bind_eq_ok_iff.mp h
    obtain ⟨rfl, _⟩ := pure_eq_ok_iff.mp h
    exact .inr ⟨other, rfl⟩
  · obtain ⟨rfl, _⟩ := pure_eq_ok_iff.mp h
    exact .inl rfl

theorem addition_of_conditionalOf {stmts : List Stmt} {next : Cursor}
    (h : conditionalOf block cursor = .ok stmts next) :
  Addition stmts
  := by
  obtain ⟨stmt, _, hstmt, h⟩ := bind_eq_ok_iff.mp h
  obtain ⟨others, _, hothers, h⟩ := bind_eq_ok_iff.mp h
  obtain ⟨rfl, _⟩ := pure_eq_ok_iff.mp h
  obtain ⟨condition, body, rfl⟩ :=
    exists_conditional_of_consequenceOf (keeping_eq_ok_iff.mp hstmt)
  obtain rfl | ⟨other, rfl⟩ := eq_nil_or_alternative_of_alternativeOf (keeping_eq_ok_iff.mp hothers)
  · apply Addition.one
  · apply Addition.two

theorem addition_of_stmtOf {stmts : List Stmt} {next : Cursor}
    (h : stmtOf block cursor = .ok stmts next) :
  Addition stmts
  := by
  rw [stmtOf, get_bind] at h
  cases hform : cursor.kind.form with
  | conditional =>
    rw [hform] at h
    apply addition_of_conditionalOf h
  | empty =>
    rw [hform] at h
    obtain ⟨_, _, _, h⟩ := bind_eq_ok_iff.mp (keeping_eq_ok_iff.mp h)
    obtain ⟨rfl, _⟩ := pure_eq_ok_iff.mp h
    apply Addition.none
  | alternative | invalid =>
    rw [hform] at h
    exact absurd (keeping_eq_ok_iff.mp h) fail_ne_ok
  | declaration | identifier | loop | function | result =>
    rw [hform] at h
    obtain ⟨stmt, rfl, _⟩ := keeping_single_eq_ok_iff.mp h
    apply Addition.one

theorem leaves_of_conditionalOf (hblock : ∀ scope, Balanced 1 (block scope)) (hvalid : cursor.Valid)
    (h : conditionalOf block cursor = .error interruption last) :
  Leaves block cursor interruption last
  := by
  rw [conditionalOf] at h
  cases hconsequence : keeping [] (consequenceOf block) cursor with
  | error interruption' last' =>
    rw [bind_of_error hconsequence] at h
    obtain ⟨rfl, rfl⟩ := EStateM.Result.error.inj h
    obtain ⟨fault, _, rfl⟩ := keeping_eq_error_iff.mp hconsequence
    apply Leaves.none
  | ok stmt next =>
    rw [bind_of_ok hconsequence] at h
    rw [keeping_eq_ok_iff] at hconsequence
    obtain ⟨condition, body, rfl⟩ := exists_conditional_of_consequenceOf hconsequence
    obtain ⟨_, rest, _, _, rfl⟩ :=
      (balanced_headed hblock .conditional .conditional hvalid).ok hconsequence
    cases halternative : keeping [.conditional condition body] (alternativeOf block)
        (cursor.withRest rest) with
    | ok others next' =>
      rw [bind_of_ok halternative] at h
      cases h
    | error interruption' last' =>
      rw [bind_of_error halternative] at h
      obtain ⟨rfl, rfl⟩ := EStateM.Result.error.inj h
      obtain ⟨fault, hfails, rfl⟩ := keeping_eq_error_iff.mp halternative
      rw [alternativeOf, kind_bind] at hfails
      split at hfails
      · rename_i hkind
        obtain ⟨keyword, rest', hrest, hkeyword⟩ :=
          Cursor.rest_eq_of_kind (hvalid.withRest rest) (by simp [hkind])
        rw [bind_of_ok (advance_of_cons hrest)] at hfails
        apply Leaves.consequence hconsequence hrest (hkeyword.trans hkind)
        cases hread : block .conditional ((cursor.withRest rest).withRest rest') with
        | ok other next' =>
          rw [bind_of_ok hread] at hfails
          cases hfails
        | error fault' last' =>
          rw [bind_of_error hread] at hfails
          exact hfails
      · cases hfails

theorem leaves_of_stmtOf (hblock : ∀ scope, Balanced 1 (block scope)) (hvalid : cursor.Valid)
    (h : stmtOf block cursor = .error interruption last) :
  Leaves block cursor interruption last
  := by
  rw [stmtOf, get_bind] at h
  cases hform : cursor.kind.form with
  | conditional =>
    rw [hform] at h
    apply leaves_of_conditionalOf hblock hvalid h
  | _ =>
    rw [hform] at h
    obtain ⟨fault, _, rfl⟩ := keeping_eq_error_iff.mp h
    apply Leaves.none

end

/-! ### Loops that end by themselves -/

/-- The loops that read statements do not go on forever, and do not depend on how often they may go
on, if this is as often as there are tokens. -/
structure LoopsEnd (stmts : Read (List Stmt)) : Prop where
  /-- No turn of a loop can be followed by others without end. -/
  turns : ∀ ⦃cursor : Cursor⦄, cursor.Valid →
    Acc (fun next cursor => ∃ list, stmts cursor = .ok list next) cursor
  /-- The loop of a program goes on until the end of the input. -/
  toEnd : ∀ ⦃cursor : Cursor⦄ ⦃count : Nat⦄, cursor.Valid → cursor.rest.length ≤ count →
    stmtsToEnd stmts count cursor = (do
      if cursor.atEnd then return []
      else
        let first ← stmts
        let others ← stmtsToEnd stmts count
        return first ++ others : Read (List Stmt)) cursor
  /-- The loop of a block goes on until a closing bracket. -/
  toClose : ∀ ⦃cursor : Cursor⦄ ⦃count : Nat⦄, cursor.Valid → cursor.rest.length ≤ count →
    stmtsToClose stmts count cursor = (do
      if cursor.kind = .closeCurly then return []
      else if cursor.kind = .endOfInput then unexpected Kind.closeCurly.description
      else
        let first ← stmts
        let others ← stmtsToClose stmts count
        return first ++ others : Read (List Stmt)) cursor

theorem bind_congr_of_ok {ε σ : Type} {x : EStateM ε σ α} {f g : α → EStateM ε σ β} {s : σ}
    (h : ∀ a s', x s = .ok a s' → f a s' = g a s') :
  (x >>= f) s = (x >>= g) s
  := by
  cases hread : x s with
  | ok a s' => rw [bind_of_ok hread, bind_of_ok hread, h a s' hread]
  | error e s' => rw [bind_of_error hread, bind_of_error hread]

section

variable {stmts : Read (List Stmt)} (hstmts : Balanced 1 stmts)

include hstmts

theorem length_lt_of_turn {cursor next : Cursor} {list : List Stmt} (hvalid : cursor.Valid)
    (h : stmts cursor = .ok list next) :
  next.Valid ∧ next.rest.length < cursor.rest.length
  := by
  obtain ⟨passed, rest, hrest, hpassed, rfl⟩ := (hstmts hvalid).ok h
  use hvalid.withRest rest
  rw [Cursor.rest_withRest, hrest, List.length_append]
  omega

theorem acc_turn {cursor : Cursor} (hvalid : cursor.Valid) :
  Acc (fun next cursor => ∃ list, stmts cursor = .ok list next) cursor
  := by
  induction hlength : cursor.rest.length using Nat.strongRecOn generalizing cursor with
  | ind length ih =>
    constructor
    rintro next ⟨list, h⟩
    obtain ⟨hnext, hlt⟩ := length_lt_of_turn hstmts hvalid h
    apply ih _ (hlength ▸ hlt) hnext rfl

/-- After a turn fewer tokens are left, so that loops that agree on these agree. -/
theorem turn_congr {loop loop' : Read (List Stmt)} {cursor : Cursor} (hvalid : cursor.Valid)
    (h : ∀ {next : Cursor}, next.Valid → next.rest.length < cursor.rest.length →
      loop next = loop' next) :
  (do return (← stmts) ++ (← loop) : Read (List Stmt)) cursor
    = (do return (← stmts) ++ (← loop') : Read (List Stmt)) cursor
  := by
  apply bind_congr_of_ok
  intro first next hfirst
  obtain ⟨hnext, hlt⟩ := length_lt_of_turn hstmts hvalid hfirst
  change EStateM.bind loop _ next = EStateM.bind loop' _ next
  rw [EStateM.bind, EStateM.bind, h hnext hlt]

theorem stmtsToEnd_congr {count other : Nat} {cursor : Cursor} (hvalid : cursor.Valid)
    (hcount : cursor.rest.length ≤ count) (hother : cursor.rest.length ≤ other) :
  stmtsToEnd stmts count cursor = stmtsToEnd stmts other cursor
  := by
  induction count generalizing other cursor with
  | zero =>
    have hrest := List.eq_nil_of_length_eq_zero (Nat.le_zero.mp hcount)
    rw [stmtsToEnd_of_nil hrest, stmtsToEnd_of_nil hrest]
  | succ count ih =>
    cases hrest : cursor.rest with
    | nil => rw [stmtsToEnd_of_nil hrest, stmtsToEnd_of_nil hrest]
    | cons token rest =>
      rw [hrest, List.length_cons] at hother
      obtain ⟨fewer, rfl⟩ : ∃ fewer, other = fewer + 1 := ⟨other - 1, by omega⟩
      rw [stmtsToEnd_of_cons hrest, stmtsToEnd_of_cons hrest]
      apply turn_congr hstmts hvalid
      intro next hnext hlt
      rw [hrest, List.length_cons] at hlt hcount
      apply ih hnext <;> omega

theorem stmtsToClose_congr {count other : Nat} {cursor : Cursor} (hvalid : cursor.Valid)
    (hcount : cursor.rest.length ≤ count) (hother : cursor.rest.length ≤ other) :
  stmtsToClose stmts count cursor = stmtsToClose stmts other cursor
  := by
  induction count generalizing other cursor with
  | zero =>
    have hend : cursor.kind = .endOfInput := by
      rw [← hvalid.kind_nil, ← List.eq_nil_of_length_eq_zero (Nat.le_zero.mp hcount),
        Cursor.withRest_rest]
    rw [stmtsToClose_of_end hend, stmtsToClose_of_end hend]
  | succ count ih =>
    by_cases hend : cursor.kind = .endOfInput
    · rw [stmtsToClose_of_end hend, stmtsToClose_of_end hend]
    obtain ⟨token, rest, hrest, _⟩ := Cursor.rest_eq_of_kind hvalid hend
    rw [hrest, List.length_cons] at hother
    obtain ⟨fewer, rfl⟩ : ∃ fewer, other = fewer + 1 := ⟨other - 1, by omega⟩
    by_cases hclose : cursor.kind = .closeCurly
    · rw [stmtsToClose_of_close hclose, stmtsToClose_of_close hclose]
    · rw [stmtsToClose_of_other hclose hend, stmtsToClose_of_other hclose hend]
      apply turn_congr hstmts hvalid
      intro next hnext hlt
      rw [hrest, List.length_cons] at hlt hcount
      apply ih hnext <;> omega

theorem loopsEnd_of_balanced :
  LoopsEnd stmts
  where
  turns := fun _ hvalid => acc_turn hstmts hvalid
  toEnd := by
    intro cursor count hvalid hcount
    cases hrest : cursor.rest with
    | nil =>
      rw [stmtsToEnd_of_nil hrest, if_pos (by simp [Cursor.atEnd, hrest])]
      rfl
    | cons token rest =>
      rw [stmtsToEnd_congr hstmts hvalid hcount (Nat.le_succ_of_le hcount),
        stmtsToEnd_of_cons hrest, if_neg (by simp [Cursor.atEnd, hrest])]
  toClose := by
    intro cursor count hvalid hcount
    rw [stmtsToClose_congr hstmts hvalid hcount (Nat.le_succ_of_le hcount)]
    by_cases hclose : cursor.kind = .closeCurly
    · rw [stmtsToClose_of_close hclose, if_pos hclose]
      rfl
    by_cases hend : cursor.kind = .endOfInput
    · rw [stmtsToClose_of_end hend, if_neg hclose, if_pos hend]
    · rw [stmtsToClose_of_other hclose hend, if_neg hclose, if_neg hend]

end

/-! ### All readers -/

/-- What the reader adds to a list of statements, whether it fails or not. -/
structure AddsStatements (read : ReadStmts) : Prop where
  ok : ∀ ⦃cursor next : Cursor⦄ ⦃stmts : List Stmt⦄, read cursor = .ok stmts next → Addition stmts
  error : ∀ ⦃cursor last : Cursor⦄ ⦃interruption : Interruption⦄, cursor.Valid →
    read cursor = .error interruption last → Leaves block cursor interruption last

theorem addsStatements_stmt :
  AddsStatements stmt
  where
  ok := fun _ _ _ h => addition_of_stmtOf h
  error := fun _ _ _ hvalid h => leaves_of_stmtOf balanced_block hvalid h

theorem addsStatements_conditional :
  AddsStatements conditional
  where
  ok := fun _ _ _ h => addition_of_conditionalOf h
  error := fun _ _ _ hvalid h => leaves_of_conditionalOf balanced_block hvalid h

/-- Every reader that finds a value has passed a token and left open exactly what was open before,
and a reader that fails has closed nothing that was.  A statement adds none, one or two statements
to a list, and only a conditional is left there by a failure, which is in the block of its
alternative.  Hence the loops of programs and of blocks end by themselves. -/
theorem readers_balanced :
  (Balanced 1 (whole stmt) ∧ Balanced 1 (whole conditional)
    ∧ (∀ scope, Balanced 1 (block scope)) ∧ Balanced 1 declaration ∧ Balanced 1 named
    ∧ (∀ name, Balanced 1 (assignment name)) ∧ (∀ callee, Balanced 1 (call callee))
    ∧ Balanced 1 loop ∧ Balanced 1 function ∧ Balanced 1 result
    ∧ Balanced 1 expr ∧ Balanced 1 factor ∧ Balanced 1 group ∧ Balanced 1 arguments)
  ∧ (AddsStatements stmt ∧ AddsStatements conditional)
  ∧ LoopsEnd (whole stmt) ∧ ∀ levels, LoopsEnd (whole (stmtOf (blockWithin levels)))
  := by
  refine ⟨⟨?_, ?_, balanced_block, balanced_declaration, balanced_named, balanced_assignment,
    balanced_call, ?_, ?_, balanced_result, balanced_expr, ?_, ?_, ?_⟩,
    ⟨addsStatements_stmt, addsStatements_conditional⟩, ?_, ?_⟩
  · apply balanced_stmtOf balanced_block
  · apply balanced_conditionalOf balanced_block
  · apply balanced_headed balanced_block .loop .loop
  · apply balanced_functionOf balanced_block
  · apply balanced_factorOf balanced_expr
  · apply balanced_groupOf balanced_expr
  · apply balanced_argumentsOf balanced_expr
  · apply loopsEnd_of_balanced (balanced_stmtOf balanced_block)
  · intro levels
    apply loopsEnd_of_balanced (balanced_stmtOf (balanced_blockWithin levels))

end Read

end Mientras
