import Mientras.Proofs.Grammar
import Mientras.Proofs.Reader

/-!
# Readers keep to the grammar

A reader is `Sound` for a relation of the grammar when the tokens that it passes on the way to a
value spell that value, and when nothing but the place of the cursor changes.  Every reader is
sound for the relation of its name.  The argument follows the readers: it goes from the parts of a
reader to the reader, over the number of levels within which expressions and blocks are read, and
over the number of items that a loop may read.
-/

namespace Mientras

namespace Read

open Grammar

variable {α β : Type}

/-- The tokens that the reader passes spell the value that it finds, where `form` is told how much
is open around them and whether they stand within a function. -/
def Sound (read : Read α) (form : Nat → Bool → List Token → α → Prop) : Prop :=
  ∀ ⦃cursor cursor' : Cursor⦄ ⦃a : α⦄, cursor.Valid → read cursor = .ok a cursor' →
    ∃ tokens rest, cursor.rest = tokens ++ rest ∧ cursor' = cursor.withRest rest
      ∧ form cursor.depth cursor.inFunction tokens a

/-- What follows a sound reader goes on after the tokens that it passed. -/
theorem Sound.of_bind {read : Read α} {form : Nat → Bool → List Token → α → Prop}
    (hsound : Sound read form) {f : α → Read β} {cursor cursor' : Cursor} {b : β}
    (hvalid : cursor.Valid) (h : (read >>= f) cursor = .ok b cursor') :
  ∃ a tokens rest, cursor.rest = tokens ++ rest ∧ form cursor.depth cursor.inFunction tokens a
    ∧ f a (cursor.withRest rest) = .ok b cursor'
  := by
  obtain ⟨a, _, hread, hf⟩ := bind_eq_ok_iff.mp h
  obtain ⟨tokens, rest, hrest, rfl, hform⟩ := hsound hvalid hread
  exact ⟨a, tokens, rest, hrest, hform, hf⟩

/-- The reader is sound where a token of the given kind stands at the cursor. -/
def SoundAt (kind : Kind) (read : Read α) (form : Nat → Bool → List Token → α → Prop) : Prop :=
  ∀ ⦃cursor cursor' : Cursor⦄ ⦃a : α⦄, cursor.Valid → cursor.kind = kind →
    read cursor = .ok a cursor' →
    ∃ tokens rest, cursor.rest = tokens ++ rest ∧ cursor' = cursor.withRest rest
      ∧ form cursor.depth cursor.inFunction tokens a

/-! ### Lists -/

/-- Further items extend every list that ends where they start. -/
theorem sound_moreItems {item : Read α} {form : Nat → Bool → List Token → α → Prop}
    (hitem : Sound item form) (count : Nat) :
  Sound (moreItems item count) (fun depth inFunction tokens others =>
    ∀ {before : List Token} {first : α}, form depth inFunction before first →
      Separated (form depth inFunction) (before ++ tokens) (first :: others))
  := by
  induction count with
  | zero =>
    intro cursor cursor' others _ h
    obtain ⟨rfl, rfl⟩ := pure_eq_ok_iff.mp h
    use [], cursor.rest, rfl, rfl
    intro before first hfirst
    simpa using Separated.one hfirst
  | succ count ih =>
    intro cursor cursor' others hvalid h
    rw [moreItems, kind_bind] at h
    split at h
    · rename_i hkind
      obtain ⟨comma, rest, hrest, hcomma⟩ := Cursor.rest_eq_of_kind hvalid (by simp [hkind])
      rw [bind_of_ok (advance_of_cons hrest)] at h
      obtain ⟨second, tokens, rest', hrest', hsecond, h⟩ :=
        hitem.of_bind (hvalid.withRest _) h
      obtain ⟨others', tokens', rest'', hrest'', hothers, h⟩ :=
        ih.of_bind (hvalid.withRest _) h
      obtain ⟨rfl, rfl⟩ := pure_eq_ok_iff.mp h
      simp only [Cursor.rest_withRest] at hrest' hrest''
      use comma :: (tokens ++ tokens'), rest''
      and_intros
      · simp [hrest, hrest', hrest'']
      · rfl
      · intro before first hfirst
        apply Separated.more hfirst (hcomma.trans hkind) (hothers hsecond)
    · obtain ⟨rfl, rfl⟩ := pure_eq_ok_iff.mp h
      use [], cursor.rest, rfl, rfl
      intro before first hfirst
      simpa using Separated.one hfirst

theorem sound_items {item : Read α} {form : Nat → Bool → List Token → α → Prop}
    (hitem : Sound item form) :
  Sound (items item) (fun depth inFunction => Separated (form depth inFunction))
  := by
  intro cursor cursor' list hvalid h
  obtain ⟨first, tokens, rest, hrest, hfirst, h⟩ := hitem.of_bind hvalid h
  rw [get_bind] at h
  obtain ⟨others, tokens', rest', hrest', hothers, h⟩ :=
    (sound_moreItems hitem _).of_bind (hvalid.withRest _) h
  obtain ⟨rfl, rfl⟩ := pure_eq_ok_iff.mp h
  rw [Cursor.rest_withRest] at hrest'
  use tokens ++ tokens', rest'
  and_intros
  · simp [hrest, hrest']
  · rfl
  · apply hothers hfirst

theorem sound_itemsInParens {item : Read α} {form : Nat → Bool → List Token → α → Prop}
    (hitem : Sound item form) :
  Sound (itemsInParens item) (fun depth inFunction => InParens (form depth inFunction))
  := by
  intro cursor cursor' list hvalid h
  obtain ⟨opening, rest, hrest, hopening, h⟩ :=
    (expect_bind_eq_ok_iff hvalid (by decide)).mp h
  rw [kind_bind] at h
  split at h
  · rw [pure_bind] at h
    obtain ⟨closing, rest', hrest', hclosing, h⟩ :=
      (expectAs_bind_eq_ok_iff (hvalid.withRest _) (by decide)).mp h
    obtain ⟨rfl, rfl⟩ := pure_eq_ok_iff.mp h
    use [opening, closing], rest'
    rw [Cursor.rest_withRest] at hrest'
    simpa [hrest, hrest'] using InParens.none hopening hclosing
  · obtain ⟨list, tokens, rest', hrest', hlist, h⟩ :=
      (sound_items hitem).of_bind (hvalid.withRest _) h
    obtain ⟨closing, rest'', hrest'', hclosing, h⟩ :=
      (expectAs_bind_eq_ok_iff (hvalid.withRest _) (by decide)).mp h
    obtain ⟨rfl, rfl⟩ := pure_eq_ok_iff.mp h
    use opening :: tokens ++ [closing], rest''
    simp only [Cursor.rest_withRest] at hrest' hrest''
    simpa [hrest, hrest', hrest''] using InParens.some hopening hlist hclosing

/-! ### Expressions -/

section

variable {inner : Read Expr}

theorem sound_groupOf (hinner : Sound inner (fun depth _ => Expression depth)) :
  Sound (groupOf inner) (fun depth _ => Factor depth)
  := by
  intro cursor cursor' e hvalid h
  obtain ⟨hdepth, h⟩ := nest_bind_eq_ok_iff.mp h
  have hvalid := hvalid.nested hdepth
  obtain ⟨opening, rest, hrest, hopening, h⟩ :=
    (expect_bind_eq_ok_iff hvalid (by decide)).mp h
  obtain ⟨e, tokens, rest', hrest', he, h⟩ := hinner.of_bind (hvalid.withRest _) h
  obtain ⟨closing, rest'', hrest'', hclosing, h⟩ :=
    (expect_bind_eq_ok_iff (hvalid.withRest _) (by decide)).mp h
  obtain ⟨rfl, rfl⟩ := pure_eq_ok_iff.mp h
  simp only [Cursor.rest_withRest, Cursor.rest_nested] at hrest hrest' hrest''
  use opening :: tokens ++ [closing], rest''
  and_intros
  · simp [hrest, hrest', hrest'']
  · rfl
  · apply Factor.ofGroup hdepth hopening he hclosing

theorem sound_argumentsOf (hinner : Sound inner (fun depth _ => Expression depth)) :
  Sound (argumentsOf inner) (fun depth _ => Arguments depth)
  := by
  intro cursor cursor' list hvalid h
  obtain ⟨hdepth, h⟩ := nest_bind_eq_ok_iff.mp h
  obtain ⟨list, tokens, rest, hrest, hlist, h⟩ :=
    (sound_itemsInParens hinner).of_bind (hvalid.nested hdepth) h
  obtain ⟨rfl, rfl⟩ := pure_eq_ok_iff.mp h
  use tokens, rest, hrest, rfl
  apply arguments_iff.mpr ⟨hdepth, hlist⟩

theorem sound_factorOf (hinner : Sound inner (fun depth _ => Expression depth)) :
  Sound (factorOf inner) (fun depth _ => Factor depth)
  := by
  intro cursor cursor' e hvalid h
  cases hatom : cursor.kind.atom? with
  | none =>
    rw [factorOf_of_none hatom] at h
    split at h
    · apply sound_groupOf hinner hvalid h
    · exact absurd h unexpected_ne_ok
  | some sort =>
    obtain ⟨token, rest, hrest, htoken⟩ :=
      Cursor.rest_eq_of_kind hvalid (by rintro heq; simp [heq, Kind.atom?] at hatom)
    by_cases hsort : sort = .name
    · have hname := Kind.atom?_eq_name_iff.mp (hsort ▸ hatom)
      rw [factorOf_of_name hname, bind_of_ok (advance_of_cons hrest), kind_bind] at h
      split at h
      · obtain ⟨list, tokens, rest', hrest', hlist, h⟩ :=
          (sound_argumentsOf hinner).of_bind (hvalid.withRest _) h
        obtain ⟨rfl, rfl⟩ := pure_eq_ok_iff.mp h
        rw [Cursor.rest_withRest] at hrest'
        use token :: tokens, rest'
        and_intros
        · simp [hrest, hrest']
        · rfl
        · apply Factor.call (htoken.trans hname) hlist
      · obtain ⟨rfl, rfl⟩ := pure_eq_ok_iff.mp h
        use [token], rest, hrest, rfl
        apply Factor.atom (htoken ▸ hsort ▸ hatom)
    · rw [factorOf_of_literal hatom hsort, bind_of_ok (advance_of_cons hrest)] at h
      obtain ⟨rfl, rfl⟩ := pure_eq_ok_iff.mp h
      use [token], rest, hrest, rfl
      apply Factor.atom (htoken ▸ hatom)

/-- Further factors extend every expression that ends where they start. -/
theorem sound_chain {factor : Read Expr} (hfactor : Sound factor (fun depth _ => Factor depth))
    (count : Nat) (left : Expr) :
  Sound (chain factor count left) (fun depth _ tokens e =>
    ∀ {before : List Token}, Expression depth before left → Expression depth (before ++ tokens) e)
  := by
  induction count generalizing left with
  | zero =>
    intro cursor cursor' e _ h
    obtain ⟨rfl, rfl⟩ := pure_eq_ok_iff.mp h
    use [], cursor.rest, rfl, rfl
    intro before hleft
    simpa using hleft
  | succ count ih =>
    intro cursor cursor' e hvalid h
    rw [chain, kind_bind] at h
    split at h
    · rename_i hkind
      obtain ⟨sign, rest, hrest, hsign⟩ :=
        Cursor.rest_eq_of_kind hvalid (by rintro heq; simp [heq, Kind.isOperator] at hkind)
      rw [bind_of_ok (advance_of_cons hrest)] at h
      obtain ⟨right, tokens, rest', hrest', hright, h⟩ :=
        hfactor.of_bind (hvalid.withRest _) h
      obtain ⟨tokens', rest'', hrest'', rfl, he⟩ := ih _ (hvalid.withRest _) h
      simp only [Cursor.rest_withRest] at hrest' hrest''
      use sign :: (tokens ++ tokens'), rest''
      and_intros
      · simp [hrest, hrest', hrest'']
      · rfl
      · intro before hleft
        have := he (Expression.operator hleft (hsign ▸ hkind) hright)
        simpa using this
    · obtain ⟨rfl, rfl⟩ := pure_eq_ok_iff.mp h
      use [], cursor.rest, rfl, rfl
      intro before hleft
      simpa using hleft

theorem sound_chainOf {factor : Read Expr} (hfactor : Sound factor (fun depth _ => Factor depth)) :
  Sound (chainOf factor) (fun depth _ => Expression depth)
  := by
  intro cursor cursor' e hvalid h
  obtain ⟨first, tokens, rest, hrest, hfirst, h⟩ := hfactor.of_bind hvalid h
  rw [get_bind] at h
  obtain ⟨tokens', rest', hrest', rfl, he⟩ := sound_chain hfactor _ _ (hvalid.withRest _) h
  rw [Cursor.rest_withRest] at hrest'
  use tokens ++ tokens', rest'
  and_intros
  · simp [hrest, hrest']
  · rfl
  · apply he (Expression.factor hfirst)

theorem sound_exprWithin (levels : Nat) :
  Sound (exprWithin levels) (fun depth _ => Expression depth)
  := by
  induction levels with
  | zero =>
    intro cursor cursor' e _ h
    exact absurd h fail_ne_ok
  | succ levels ih => apply sound_chainOf (sound_factorOf ih)

theorem sound_expr :
  Sound expr (fun depth _ => Expression depth)
  := sound_exprWithin _

end

/-! ### Statements without a block -/

theorem soundAt_declaration :
  SoundAt .typeName declaration (fun depth inFunction tokens stmt =>
    Statement depth inFunction tokens [stmt])
  := by
  intro cursor cursor' stmt hvalid hkind h
  obtain ⟨type, rest, hrest, htype⟩ := Cursor.rest_eq_of_kind hvalid (by simp [hkind])
  rw [declaration, bind_of_ok (advance_of_cons hrest)] at h
  obtain ⟨name, rest₁, hrest₁, hname, h⟩ :=
    (expect_bind_eq_ok_iff (hvalid.withRest _) (by decide)).mp h
  obtain ⟨sign, rest₂, hrest₂, hsign, h⟩ :=
    (expect_bind_eq_ok_iff (hvalid.withRest _) (by decide)).mp h
  obtain ⟨value, tokens, rest₃, hrest₃, hvalue, h⟩ :=
    sound_expr.of_bind (hvalid.withRest _) h
  obtain ⟨ending, rest₄, hrest₄, hending, h⟩ :=
    (expect_bind_eq_ok_iff (hvalid.withRest _) (by decide)).mp h
  obtain ⟨rfl, rfl⟩ := pure_eq_ok_iff.mp h
  simp only [Cursor.rest_withRest] at hrest₁ hrest₂ hrest₃ hrest₄
  use type :: name :: sign :: tokens ++ [ending], rest₄
  and_intros
  · simp [hrest, hrest₁, hrest₂, hrest₃, hrest₄]
  · rfl
  · apply Statement.declaration (htype.trans hkind) hname hsign hvalue hending

theorem sound_assignment (name : Token) (hname : name.kind = .identifier) :
  Sound (assignment name.value) (fun depth inFunction tokens stmt =>
    Statement depth inFunction (name :: tokens) [stmt])
  := by
  intro cursor cursor' stmt hvalid h
  obtain ⟨sign, rest, hrest, hsign, h⟩ := (expect_bind_eq_ok_iff hvalid (by decide)).mp h
  obtain ⟨value, tokens, rest₁, hrest₁, hvalue, h⟩ :=
    sound_expr.of_bind (hvalid.withRest _) h
  obtain ⟨ending, rest₂, hrest₂, hending, h⟩ :=
    (expect_bind_eq_ok_iff (hvalid.withRest _) (by decide)).mp h
  obtain ⟨rfl, rfl⟩ := pure_eq_ok_iff.mp h
  simp only [Cursor.rest_withRest] at hrest₁ hrest₂
  use sign :: tokens ++ [ending], rest₂
  and_intros
  · simp [hrest, hrest₁, hrest₂]
  · rfl
  · apply Statement.assignment hname hsign hvalue hending

theorem sound_call (name : Token) (hname : name.kind = .identifier) :
  Sound (call name.value) (fun depth inFunction tokens stmt =>
    Statement depth inFunction (name :: tokens) [stmt])
  := by
  intro cursor cursor' stmt hvalid h
  obtain ⟨list, tokens, rest, hrest, hlist, h⟩ :=
    (sound_argumentsOf sound_expr).of_bind hvalid h
  rw [kind_bind] at h
  split at h
  · rename_i hkind
    obtain ⟨ending, rest₁, hrest₁, hending⟩ :=
      Cursor.rest_eq_of_kind (hvalid.withRest rest) (by simp [hkind])
    rw [bind_of_ok (advance_of_cons hrest₁)] at h
    obtain ⟨rfl, rfl⟩ := pure_eq_ok_iff.mp h
    rw [Cursor.rest_withRest] at hrest₁
    use tokens ++ [ending], rest₁
    and_intros
    · simp [hrest, hrest₁]
    · rfl
    · apply Statement.callEnded hname hlist (hending.trans hkind)
  · obtain ⟨rfl, rfl⟩ := pure_eq_ok_iff.mp h
    use tokens, rest, hrest, rfl
    apply Statement.call hname hlist

theorem soundAt_named :
  SoundAt .identifier named (fun depth inFunction tokens stmt =>
    Statement depth inFunction tokens [stmt])
  := by
  intro cursor cursor' stmt hvalid hkind h
  obtain ⟨name, rest, hrest, hname⟩ := Cursor.rest_eq_of_kind hvalid (by simp [hkind])
  rw [named, bind_of_ok (advance_of_cons hrest), kind_bind] at h
  have hvalid' := hvalid.withRest rest
  have hname := hname.trans hkind
  split at h
  · obtain ⟨tokens, rest₁, hrest₁, rfl, hstmt⟩ := sound_assignment name hname hvalid' h
    rw [Cursor.rest_withRest] at hrest₁
    use name :: tokens, rest₁
    and_intros
    · simp [hrest, hrest₁]
    · rfl
    · apply hstmt
  · rw [kind_bind] at h
    split at h
    · obtain ⟨tokens, rest₁, hrest₁, rfl, hstmt⟩ := sound_call name hname hvalid' h
      rw [Cursor.rest_withRest] at hrest₁
      use name :: tokens, rest₁
      and_intros
      · simp [hrest, hrest₁]
      · rfl
      · apply hstmt
    · exact absurd h unexpected_ne_ok

theorem soundAt_result :
  SoundAt .retornar result (fun depth inFunction tokens stmt =>
    Statement depth inFunction tokens [stmt])
  := by
  intro cursor cursor' stmt hvalid hkind h
  obtain ⟨keyword, rest, hrest, hkeyword⟩ := Cursor.rest_eq_of_kind hvalid (by simp [hkind])
  rw [result, get_bind] at h
  split at h
  · rename_i hfunction
    rw [bind_of_ok (advance_of_cons hrest)] at h
    obtain ⟨value, tokens, rest₁, hrest₁, hvalue, h⟩ :=
      sound_expr.of_bind (hvalid.withRest _) h
    obtain ⟨ending, rest₂, hrest₂, hending, h⟩ :=
      (expect_bind_eq_ok_iff (hvalid.withRest _) (by decide)).mp h
    obtain ⟨rfl, rfl⟩ := pure_eq_ok_iff.mp h
    simp only [Cursor.rest_withRest] at hrest₁ hrest₂
    use keyword :: tokens ++ [ending], rest₂
    and_intros
    · simp [hrest, hrest₁, hrest₂]
    · rfl
    · rw [hfunction]
      apply Statement.result (hkeyword.trans hkind) hvalue hending
  · exact absurd h fail_ne_ok

/-! ### Statements with a block -/

theorem sound_condition :
  Sound condition (fun depth _ => Condition depth)
  := by
  intro cursor cursor' e hvalid h
  obtain ⟨opening, rest, hrest, hopening, h⟩ := (expect_bind_eq_ok_iff hvalid (by decide)).mp h
  obtain ⟨e, tokens, rest₁, hrest₁, he, h⟩ := sound_expr.of_bind (hvalid.withRest _) h
  obtain ⟨closing, rest₂, hrest₂, hclosing, h⟩ :=
    (expect_bind_eq_ok_iff (hvalid.withRest _) (by decide)).mp h
  obtain ⟨rfl, rfl⟩ := pure_eq_ok_iff.mp h
  simp only [Cursor.rest_withRest] at hrest₁ hrest₂
  use opening :: tokens ++ [closing], rest₂
  and_intros
  · simp [hrest, hrest₁, hrest₂]
  · rfl
  · apply Condition.mk hopening he hclosing

theorem sound_parameter :
  Sound parameter (fun _ _ => IsParameter)
  := by
  intro cursor cursor' _ hvalid h
  obtain ⟨type, rest, hrest, htype, h⟩ := (expect_bind_eq_ok_iff hvalid (by decide)).mp h
  obtain ⟨name, rest₁, hrest₁, hname, h⟩ :=
    (expect_bind_eq_ok_iff (hvalid.withRest _) (by decide)).mp h
  obtain ⟨rfl, rfl⟩ := pure_eq_ok_iff.mp h
  rw [Cursor.rest_withRest] at hrest₁
  use [type, name], rest₁
  and_intros
  · simp [hrest, hrest₁]
  · rfl
  · apply IsParameter.mk htype hname

section

/-- A block of a scope may hold results when it is that of a function, or stands within one. -/
def SoundBlock (block : Scope → Read (List Stmt)) : Prop :=
  ∀ scope, Sound (block scope) (fun depth inFunction =>
    Block depth (scope == .function || inFunction))

variable {block : Scope → Read (List Stmt)} (hblock : SoundBlock block)

include hblock

theorem soundAt_loopOf :
  SoundAt .mientras (loopOf block) (fun depth inFunction tokens stmt =>
    Statement depth inFunction tokens [stmt])
  := by
  intro cursor cursor' stmt hvalid hkind h
  obtain ⟨keyword, rest, hrest, hkeyword⟩ := Cursor.rest_eq_of_kind hvalid (by simp [hkind])
  rw [loopOf, bind_of_ok (advance_of_cons hrest)] at h
  obtain ⟨condition, first, rest₁, hrest₁, hcondition, h⟩ :=
    sound_condition.of_bind (hvalid.withRest _) h
  obtain ⟨body, second, rest₂, hrest₂, hbody, h⟩ :=
    (hblock .loop).of_bind (hvalid.withRest _) h
  obtain ⟨rfl, rfl⟩ := pure_eq_ok_iff.mp h
  simp only [Cursor.rest_withRest] at hrest₁ hrest₂
  use keyword :: first ++ second, rest₂
  and_intros
  · simp [hrest, hrest₁, hrest₂]
  · rfl
  · apply Statement.loop (hkeyword.trans hkind) hcondition hbody

theorem soundAt_functionOf :
  SoundAt .funcion (functionOf block) (fun depth inFunction tokens stmt =>
    Statement depth inFunction tokens [stmt])
  := by
  intro cursor cursor' stmt hvalid hkind h
  obtain ⟨keyword, rest, hrest, hkeyword⟩ := Cursor.rest_eq_of_kind hvalid (by simp [hkind])
  rw [functionOf, bind_of_ok (advance_of_cons hrest)] at h
  obtain ⟨name, rest₁, hrest₁, hname, h⟩ :=
    (expect_bind_eq_ok_iff (hvalid.withRest _) (by decide)).mp h
  obtain ⟨parameters, first, rest₂, hrest₂, hparameters, h⟩ :=
    (sound_itemsInParens sound_parameter).of_bind (hvalid.withRest _) h
  obtain ⟨body, second, rest₃, hrest₃, hbody, h⟩ :=
    (hblock .function).of_bind (hvalid.withRest _) h
  obtain ⟨rfl, rfl⟩ := pure_eq_ok_iff.mp h
  simp only [Cursor.rest_withRest] at hrest₁ hrest₂ hrest₃
  use keyword :: name :: first ++ second, rest₃
  and_intros
  · simp [hrest, hrest₁, hrest₂, hrest₃]
  · rfl
  · apply Statement.function (hkeyword.trans hkind) hname hparameters hbody

theorem soundAt_consequenceOf :
  SoundAt .si (consequenceOf block) (fun depth inFunction tokens stmt =>
    ∃ keyword first second condition body, tokens = keyword :: first ++ second
      ∧ keyword.kind = .si ∧ Condition depth first condition ∧ Block depth inFunction second body
      ∧ stmt = .conditional condition body)
  := by
  intro cursor cursor' stmt hvalid hkind h
  obtain ⟨keyword, rest, hrest, hkeyword⟩ := Cursor.rest_eq_of_kind hvalid (by simp [hkind])
  rw [consequenceOf, bind_of_ok (advance_of_cons hrest)] at h
  obtain ⟨condition, first, rest₁, hrest₁, hcondition, h⟩ :=
    sound_condition.of_bind (hvalid.withRest _) h
  obtain ⟨body, second, rest₂, hrest₂, hbody, h⟩ :=
    (hblock .conditional).of_bind (hvalid.withRest _) h
  obtain ⟨rfl, rfl⟩ := pure_eq_ok_iff.mp h
  simp only [Cursor.rest_withRest] at hrest₁ hrest₂
  use keyword :: first ++ second, rest₂
  and_intros
  · simp [hrest, hrest₁, hrest₂]
  · rfl
  · exact ⟨keyword, first, second, condition, body, rfl, hkeyword.trans hkind, hcondition, hbody,
      rfl⟩

theorem sound_alternativeOf :
  Sound (alternativeOf block) (fun depth inFunction tokens stmts =>
    tokens = [] ∧ stmts = []
      ∨ ∃ keyword third body, tokens = keyword :: third ∧ keyword.kind = .sino
          ∧ Block depth inFunction third body ∧ stmts = [.alternative body])
  := by
  intro cursor cursor' stmts hvalid h
  rw [alternativeOf, kind_bind] at h
  split at h
  · rename_i hkind
    obtain ⟨keyword, rest, hrest, hkeyword⟩ := Cursor.rest_eq_of_kind hvalid (by simp [hkind])
    rw [bind_of_ok (advance_of_cons hrest)] at h
    obtain ⟨body, third, rest₁, hrest₁, hbody, h⟩ :=
      (hblock .conditional).of_bind (hvalid.withRest _) h
    obtain ⟨rfl, rfl⟩ := pure_eq_ok_iff.mp h
    rw [Cursor.rest_withRest] at hrest₁
    use keyword :: third, rest₁
    and_intros
    · simp [hrest, hrest₁]
    · rfl
    · exact .inr ⟨keyword, third, body, rfl, hkeyword.trans hkind, hbody, rfl⟩
  · obtain ⟨rfl, rfl⟩ := pure_eq_ok_iff.mp h
    use [], cursor.rest, rfl, rfl
    exact .inl ⟨rfl, rfl⟩

theorem soundAt_conditionalOf :
  SoundAt .si (whole (conditionalOf block)) Statement
  := by
  intro cursor cursor' stmts hvalid hkind h
  rw [whole_eq_ok_iff, conditionalOf] at h
  obtain ⟨stmt, _, hstmt, h⟩ := bind_eq_ok_iff.mp h
  obtain ⟨others, _, hothers, h⟩ := bind_eq_ok_iff.mp h
  obtain ⟨rfl, rfl⟩ := pure_eq_ok_iff.mp h
  obtain ⟨_, rest, hrest, rfl, keyword, first, second, condition, body, rfl, hkeyword,
    hcondition, hbody, rfl⟩ :=
    soundAt_consequenceOf hblock hvalid hkind (keeping_eq_ok_iff.mp hstmt)
  obtain ⟨_, rest₁, hrest₁, rfl, hother⟩ :=
    sound_alternativeOf hblock (hvalid.withRest rest) (keeping_eq_ok_iff.mp hothers)
  rw [Cursor.rest_withRest] at hrest₁
  obtain ⟨rfl, rfl⟩ | ⟨otherwise, third, other, rfl, hotherwise, hother, rfl⟩ := hother
  · use keyword :: first ++ second, rest₁
    and_intros
    · simp [hrest, hrest₁]
    · rfl
    · apply Statement.conditional hkeyword hcondition hbody
  · use keyword :: first ++ second ++ otherwise :: third, rest₁
    and_intros
    · simp [hrest, hrest₁]
    · rfl
    · apply Statement.alternative hkeyword hcondition hbody hotherwise hother

theorem sound_stmtOf :
  Sound (whole (stmtOf block)) Statement
  := by
  intro cursor cursor' stmts hvalid h
  -- the kind of the first token settles which reader is used
  rw [whole_eq_ok_iff, stmtOf, get_bind] at h
  cases hkind : cursor.kind with
  | typeName =>
    rw [hkind] at h
    obtain ⟨stmt, rfl, hstmt⟩ := keeping_single_eq_ok_iff.mp h
    apply soundAt_declaration hvalid hkind hstmt
  | identifier =>
    rw [hkind] at h
    obtain ⟨stmt, rfl, hstmt⟩ := keeping_single_eq_ok_iff.mp h
    apply soundAt_named hvalid hkind hstmt
  | si =>
    rw [hkind] at h
    apply soundAt_conditionalOf hblock hvalid hkind (whole_eq_ok_iff.mpr h)
  | mientras =>
    rw [hkind] at h
    obtain ⟨stmt, rfl, hstmt⟩ := keeping_single_eq_ok_iff.mp h
    apply soundAt_loopOf hblock hvalid hkind hstmt
  | funcion =>
    rw [hkind] at h
    obtain ⟨stmt, rfl, hstmt⟩ := keeping_single_eq_ok_iff.mp h
    apply soundAt_functionOf hblock hvalid hkind hstmt
  | retornar =>
    rw [hkind] at h
    obtain ⟨stmt, rfl, hstmt⟩ := keeping_single_eq_ok_iff.mp h
    apply soundAt_result hvalid hkind hstmt
  | semicolon =>
    rw [hkind] at h
    obtain ⟨ending, rest, hrest, hending⟩ := Cursor.rest_eq_of_kind hvalid (by simp [hkind])
    have h := keeping_eq_ok_iff.mp h
    rw [bind_of_ok (advance_of_cons hrest)] at h
    obtain ⟨rfl, rfl⟩ := pure_eq_ok_iff.mp h
    use [ending], rest, hrest, rfl
    apply Statement.empty (hending.trans hkind)
  | _ =>
    rw [hkind] at h
    exact absurd (keeping_eq_ok_iff.mp h) fail_ne_ok

end

/-! ### Blocks and programs -/

/-- A reader that finds a statement starts at a token that starts one, and passes it. -/
theorem Sound.starts {read : Read (List Stmt)} (hsound : Sound read Statement)
    {cursor cursor' : Cursor} {stmts : List Stmt} (hvalid : cursor.Valid)
    (h : read cursor = .ok stmts cursor') :
  StartsStatement cursor.kind
    ∧ ∃ rest, cursor' = cursor.withRest rest ∧ cursor'.rest.length < cursor.rest.length
  := by
  obtain ⟨tokens, rest, hrest, rfl, hstmt⟩ := hsound hvalid h
  obtain ⟨token, tokens, rfl, htoken⟩ := hstmt.starts
  constructor
  · rwa [Cursor.kind_of_cons hrest]
  · use rest, rfl
    simp only [hrest, Cursor.rest_withRest, List.cons_append, List.length_cons, List.length_append]
    omega

/-- A statement and then others are read as statements. -/
theorem sound_cons {stmts others : Read (List Stmt)} (hstmts : Sound stmts Statement)
    (hothers : Sound others Statements) :
  Sound (do
    let first ← stmts
    let second ← others
    return first ++ second) Statements
  := by
  intro cursor cursor' body hvalid h
  obtain ⟨first, tokens, rest, hrest, hfirst, h⟩ := hstmts.of_bind hvalid h
  obtain ⟨second, tokens', rest', hrest', hsecond, h⟩ := hothers.of_bind (hvalid.withRest _) h
  obtain ⟨rfl, rfl⟩ := pure_eq_ok_iff.mp h
  rw [Cursor.rest_withRest] at hrest'
  use tokens ++ tokens', rest'
  and_intros
  · simp [hrest, hrest']
  · rfl
  · apply Statements.cons hfirst hsecond

theorem sound_stmtsToClose {stmts : Read (List Stmt)} (hstmts : Sound stmts Statement)
    (count : Nat) :
  Sound (stmtsToClose stmts count) Statements
  := by
  induction count with
  | zero =>
    intro cursor cursor' body _ h
    exact absurd h unexpected_ne_ok
  | succ count ih =>
    intro cursor cursor' body hvalid h
    by_cases hclose : cursor.kind = .closeCurly
    · rw [stmtsToClose_of_close hclose] at h
      obtain ⟨rfl, rfl⟩ := EStateM.Result.ok.inj h
      use [], cursor.rest, rfl, rfl
      apply Statements.nil
    by_cases hend : cursor.kind = .endOfInput
    · rw [stmtsToClose_of_end hend] at h
      exact absurd h unexpected_ne_ok
    · rw [stmtsToClose_of_other hclose hend] at h
      apply sound_cons hstmts ih hvalid h

theorem sound_blockWithin (levels : Nat) :
  SoundBlock (blockWithin levels)
  := by
  induction levels with
  | zero =>
    intro scope cursor cursor' body _ h
    exact absurd h fail_ne_ok
  | succ levels ih =>
    intro scope cursor cursor' body hvalid h
    obtain ⟨hdepth, h⟩ := enterScope_bind_eq_ok_iff.mp h
    have hwithin := hvalid.within hdepth scope
    obtain ⟨opening, rest, hrest, hopening, h⟩ :=
      (expect_bind_eq_ok_iff hwithin (by decide)).mp h
    rw [get_bind] at h
    obtain ⟨body, tokens, rest₁, hrest₁, hbody, h⟩ :=
      (sound_stmtsToClose (sound_stmtOf ih) _).of_bind (hwithin.withRest _) h
    rw [Cursor.withRest_withRest, exitScope_bind_within] at h
    obtain ⟨closing, rest₂, hrest₂, hclosing, h⟩ :=
      (expect_bind_eq_ok_iff (hvalid.withRest _) (by decide)).mp h
    obtain ⟨rfl, rfl⟩ := pure_eq_ok_iff.mp h
    simp only [Cursor.rest_withRest, Cursor.rest_within, Cursor.depth_withRest,
      Cursor.depth_within, Cursor.inFunction_withRest, Cursor.inFunction_within]
      at hrest hrest₁ hrest₂ hbody
    use opening :: tokens ++ [closing], rest₂
    and_intros
    · simp [hrest, hrest₁, hrest₂]
    · rfl
    · apply Block.mk hdepth hopening hbody hclosing

theorem sound_stmtsToEnd {stmts : Read (List Stmt)} (hstmts : Sound stmts Statement)
    (count : Nat) :
  Sound (stmtsToEnd stmts count) Statements
  := by
  induction count with
  | zero =>
    intro cursor cursor' body _ h
    obtain ⟨rfl, rfl⟩ := pure_eq_ok_iff.mp h
    use [], cursor.rest, rfl, rfl
    apply Statements.nil
  | succ count ih =>
    intro cursor cursor' body hvalid h
    rw [stmtsToEnd, get_bind] at h
    split at h
    · obtain ⟨rfl, rfl⟩ := pure_eq_ok_iff.mp h
      use [], cursor.rest, rfl, rfl
      apply Statements.nil
    · apply sound_cons hstmts ih hvalid h

/-- A loop that may read as many statements as there are tokens ends at the end of the input. -/
theorem rest_eq_nil_of_stmtsToEnd {stmts : Read (List Stmt)} (hstmts : Sound stmts Statement)
    {count : Nat} {cursor cursor' : Cursor} {body : List Stmt} (hvalid : cursor.Valid)
    (hcount : cursor.rest.length ≤ count) (h : stmtsToEnd stmts count cursor = .ok body cursor') :
  cursor'.rest = []
  := by
  induction count generalizing cursor body with
  | zero =>
    obtain ⟨rfl, rfl⟩ := pure_eq_ok_iff.mp h
    apply List.length_eq_zero_iff.mp (Nat.le_zero.mp hcount)
  | succ count ih =>
    rw [stmtsToEnd, get_bind] at h
    split at h
    · rename_i hend
      obtain ⟨rfl, rfl⟩ := pure_eq_ok_iff.mp h
      simpa [Cursor.atEnd] using hend
    · obtain ⟨first, tokens, rest, hrest, hfirst, h⟩ := hstmts.of_bind hvalid h
      obtain ⟨others, _, hothers, h⟩ := bind_eq_ok_iff.mp h
      obtain ⟨rfl, rfl⟩ := pure_eq_ok_iff.mp h
      obtain ⟨token, tokens', rfl, _⟩ := hfirst.starts
      apply ih (hvalid.withRest _) _ hothers
      simp only [hrest, List.cons_append, List.length_cons, List.length_append] at hcount
      simp only [Cursor.rest_withRest]
      omega

/-- Whatever is read as a program is spelled by all of the tokens before the end. -/
theorem derives_of_program {cursor cursor' : Cursor} {program : Program} (hvalid : cursor.Valid)
    (hdepth : cursor.depth = 0) (hfunction : cursor.inFunction = false)
    (h : Read.program cursor = .ok program cursor') :
  Derives cursor.rest program
  := by
  have hstmt : Sound (whole stmt) Statement := sound_stmtOf (sound_blockWithin _)
  rw [Read.program, get_bind] at h
  obtain ⟨body, cursor₁, hbody, h⟩ := bind_eq_ok_iff.mp h
  obtain ⟨rfl, rfl⟩ := pure_eq_ok_iff.mp h
  have hnil := rest_eq_nil_of_stmtsToEnd hstmt hvalid (Nat.le_refl _) hbody
  obtain ⟨tokens, rest, hrest, rfl, hform⟩ := sound_stmtsToEnd hstmt _ hvalid hbody
  obtain rfl : rest = [] := hnil
  rw [hdepth, hfunction] at hform
  rw [hrest, List.append_nil]
  apply hform

end Read

end Mientras
