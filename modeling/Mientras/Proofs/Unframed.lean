import Mathlib.Tactic.Common
import Mientras.Proofs.Lookahead

/-!
# Faults of reading show no line

Readers know tokens and not the source, so that none of them fails with a cause that shows a line.
`Unframed read` says so of a reader.  It is enough that it holds of the readers that the reader is
built from, whatever they find.
-/

namespace Mientras

namespace Read

variable {α β : Type}

/-- No failure of the reader shows a line of the source. -/
def Unframed (read : Read α) : Prop :=
  ∀ cursor fault last, read cursor = .error fault last → fault.cause.isFramed = false

/-! ### Building readers -/

@[grind ←]
theorem unframed_pure (a : α) :
  Unframed (pure a)
  := by
  intro cursor fault last h
  cases h

@[grind ←]
theorem unframed_get :
  Unframed get
  := by
  intro cursor fault last h
  cases h

@[grind ←]
theorem unframed_modify (f : Cursor → Cursor) :
  Unframed (modify f)
  := by
  intro cursor fault last h
  cases h

@[grind ←]
theorem Unframed.bind {x : Read α} {f : α → Read β} (hx : Unframed x) (hf : ∀ a, Unframed (f a)) :
  Unframed (x >>= f)
  := by
  intro cursor fault last h
  change EStateM.bind x f cursor = _ at h
  rw [EStateM.bind] at h
  split at h
  · rename_i a next hok
    apply hf a next fault last h
  · rename_i fault' next herror
    obtain ⟨rfl, rfl⟩ := EStateM.Result.error.inj h
    apply hx cursor fault' next herror

/-! ### Single tokens -/

@[grind ←]
theorem unframed_kind :
  Unframed kind
  := by
  intro cursor fault last h
  cases h

@[grind ←]
theorem unframed_advance :
  Unframed advance
  := by
  intro cursor fault last h
  rw [advance] at h
  split at h <;> cases h

@[grind ←]
theorem unframed_fail {cause : Token → Cause} (h : ∀ token, (cause token).isFramed = false) :
  Unframed (fail cause : Read α)
  := by
  intro cursor fault last hfail
  obtain ⟨rfl, rfl⟩ := EStateM.Result.error.inj hfail
  apply h

@[grind ←]
theorem unframed_unexpected (expected : String) :
  Unframed (unexpected expected : Read α)
  := by
  apply unframed_fail
  intro token
  split <;> rfl

@[grind ←]
theorem unframed_expectAs (kind : Kind) (expected : String) :
  Unframed (expectAs kind expected)
  := by
  grind [expectAs]

@[grind ←]
theorem unframed_expect (kind : Kind) :
  Unframed (expect kind)
  := unframed_expectAs kind _

@[grind ←]
theorem unframed_nest :
  Unframed nest
  := by
  intro cursor fault last h
  rw [nest] at h
  split at h
  · cases h
  · exact unframed_fail (fun _ => rfl) cursor fault last h

@[grind ←]
theorem unframed_unnest :
  Unframed unnest
  := by
  intro cursor fault last h
  cases h

@[grind ←]
theorem unframed_enterScope (scope : Scope) :
  Unframed (enterScope scope)
  := by
  grind [enterScope]

@[grind ←]
theorem unframed_exitScope :
  Unframed exitScope
  := by
  grind [exitScope]

/-! ### Lists of items -/

section

variable {item : Read α} (hitem : Unframed item)

include hitem

@[grind ←]
theorem unframed_moreItems (count : Nat) :
  Unframed (moreItems item count)
  := by
  induction count with
  | zero => apply unframed_pure
  | succ count ih => grind [moreItems]

@[grind ←]
theorem unframed_items :
  Unframed (items item)
  := by
  grind [items]

@[grind ←]
theorem unframed_itemsInParens :
  Unframed (itemsInParens item)
  := by
  grind [itemsInParens]

end

/-! ### Expressions -/

section

variable {inner : Read Expr} (hinner : Unframed inner)

include hinner

@[grind ←]
theorem unframed_groupOf :
  Unframed (groupOf inner)
  := by
  grind [groupOf]

@[grind ←]
theorem unframed_argumentsOf :
  Unframed (argumentsOf inner)
  := by
  grind [argumentsOf]

@[grind ←]
theorem unframed_factorOf :
  Unframed (factorOf inner)
  := by
  rw [factorOf]
  apply unframed_kind.bind
  intro kind
  cases kind.atom? with
  | none => grind
  | some sort => cases sort <;> grind

@[grind ←]
theorem unframed_chain (count : Nat) (left : Expr) :
  Unframed (chain inner count left)
  := by
  induction count generalizing left with
  | zero => apply unframed_pure
  | succ count ih => grind [chain]

end

@[grind ←]
theorem unframed_exprWithin (levels : Nat) :
  Unframed (exprWithin levels)
  := by
  induction levels with
  | zero => exact unframed_fail fun _ => rfl
  | succ levels ih => grind [exprWithin, chainOf]

@[grind ←]
theorem unframed_expr :
  Unframed expr
  := unframed_exprWithin _

/-! ### Statements without a block -/

@[grind ←]
theorem unframed_declaration :
  Unframed declaration
  := by
  grind [declaration]

@[grind ←]
theorem unframed_assignment (name : String) :
  Unframed (assignment name)
  := by
  grind [assignment]

@[grind ←]
theorem unframed_call (callee : String) :
  Unframed (call callee)
  := by
  grind [call, arguments]

@[grind ←]
theorem unframed_named :
  Unframed named
  := by
  grind [named]

@[grind ←]
theorem unframed_result :
  Unframed result
  := by
  grind [result, Cause.isFramed]

@[grind ←]
theorem unframed_condition :
  Unframed condition
  := by
  grind [condition]

@[grind ←]
theorem unframed_parameter :
  Unframed parameter
  := by
  grind [parameter]

/-! ### Statements with a block -/

section

variable {block : Scope → Read (List Stmt)} (hblock : ∀ scope, Unframed (block scope))

include hblock

@[grind ←]
theorem unframed_loopOf :
  Unframed (loopOf block)
  := by
  grind [loopOf]

@[grind ←]
theorem unframed_functionOf :
  Unframed (functionOf block)
  := by
  grind [functionOf]

@[grind ←]
theorem unframed_consequenceOf :
  Unframed (consequenceOf block)
  := by
  grind [consequenceOf]

@[grind ←]
theorem unframed_alternativeOf :
  Unframed (alternativeOf block)
  := by
  grind [alternativeOf]

@[grind ←]
theorem unframed_stmtOf :
  Unframed (whole (stmtOf block))
  := by
  rw [whole_stmtOf]
  apply unframed_kind.bind
  intro kind
  cases kind.form <;> grind [Cause.isFramed]

end

@[grind ←]
theorem unframed_stmtsToClose {stmts : Read (List Stmt)} (hstmts : Unframed stmts) (count : Nat) :
  Unframed (stmtsToClose stmts count)
  := by
  induction count with
  | zero => apply unframed_unexpected
  | succ count ih => grind [stmtsToClose]

@[grind ←]
theorem unframed_blockWithin (levels : Nat) (scope : Scope) :
  Unframed (blockWithin levels scope)
  := by
  induction levels generalizing scope with
  | zero => exact unframed_fail fun _ => rfl
  | succ levels ih =>
    have hstmts := unframed_stmtOf ih
    grind [blockWithin]

theorem unframed_stmtsToEnd {stmts : Read (List Stmt)} (hstmts : Unframed stmts) (count : Nat) :
  Unframed (stmtsToEnd stmts count)
  := by
  induction count with
  | zero => apply unframed_pure
  | succ count ih => grind [stmtsToEnd]

theorem unframed_program :
  Unframed program
  := by
  have hstmt : Unframed (whole stmt) := unframed_stmtOf (unframed_blockWithin _)
  grind [program, unframed_stmtsToEnd]

end Read

/-- Tokens are refused for a cause that shows no line. -/
theorem isFramed_of_ofTokens {tokens : List Token} {fault : Fault}
    (h : Program.ofTokens tokens = .error fault) :
  fault.cause.isFramed = false
  := by
  rw [Program.ofTokens] at h
  split at h
  · cases h
  · rename_i last hread
    obtain rfl := Except.error.inj h
    apply Read.unframed_program _ _ _ hread

end Mientras
