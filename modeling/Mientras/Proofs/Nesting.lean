import Mathlib.Tactic.Common
import Mientras.Proofs.Grammar

/-!
# What is open at a token

The brackets among some tokens show what is open after them: `openAfter` keeps a stack of them,
where every closing bracket closes the one that was opened last.  The parentheses of a condition and
of the parameters of a function belong to the header of a block and are not counted.  They are told
from the others by the tokens right before them.

Whatever the grammar lets tokens spell closes all that it opens.
-/

namespace Mientras

/-! ### Open brackets -/

/-- What a bracket opens. -/
inductive Bracket where
  /-- A block. -/
  | block
  /-- A group, or the arguments of a call. -/
  | inner
  /-- A condition, or the parameters of a function. -/
  | header
  deriving DecidableEq, Repr

/-- The kinds of brackets. -/
def Kind.isBracket : Kind → Bool
  | openCurly | openParen | closeCurly | closeParen => true
  | _ => false

/-- A parenthesis after the tokens, of which the last comes first, belongs to the header of a
block. -/
def headsBlock : List Token → Bool
  | [] => false
  | last :: before =>
    last.kind == .si || last.kind == .mientras
      || last.kind == .identifier && before.head?.any (·.kind == .funcion)

/-- The brackets that are open after the tokens, of which the last comes first.  The innermost
bracket comes first too. -/
def openAfter : List Token → List Bracket
  | [] => []
  | token :: before =>
    match token.kind with
    | .openCurly => .block :: openAfter before
    | .openParen => (if headsBlock before then .header else .inner) :: openAfter before
    | .closeCurly | .closeParen => (openAfter before).tail
    | _ => openAfter before

/-- The number of blocks, groups and argument lists that are open after the tokens, of which the
last comes first. -/
def nestingAfter (before : List Token) : Nat :=
  (openAfter before).countP (· != .header)

/-- A block comes after the tokens, of which the last comes first: its header is complete. -/
def blockIsDue : List Token → Bool
  | [] => false
  | last :: before =>
    last.kind == .sino || last.kind == .closeParen && (openAfter before).head? == some .header

section

variable {token : Token} {before : List Token}

theorem openAfter_of_not_isBracket (h : token.kind.isBracket = false) :
  openAfter (token :: before) = openAfter before
  := by
  rw [openAfter]
  split <;> simp_all [Kind.isBracket]

theorem openAfter_openCurly (h : token.kind = .openCurly) :
  openAfter (token :: before) = .block :: openAfter before
  := by
  simp [openAfter, h]

theorem openAfter_openParen (h : token.kind = .openParen) :
  openAfter (token :: before)
    = (if headsBlock before then .header else .inner) :: openAfter before
  := by
  simp [openAfter, h]

theorem openAfter_closing (h : token.kind = .closeCurly ∨ token.kind = .closeParen) :
  openAfter (token :: before) = (openAfter before).tail
  := by
  obtain h | h := h <;> simp [openAfter, h]

theorem nestingAfter_openCurly (h : token.kind = .openCurly) :
  nestingAfter (token :: before) = nestingAfter before + 1
  := by
  rw [nestingAfter, openAfter_openCurly h, List.countP_cons_of_pos (by decide), nestingAfter]

theorem nestingAfter_openParen (h : token.kind = .openParen) (hheads : headsBlock before = false) :
  nestingAfter (token :: before) = nestingAfter before + 1
  := by
  rw [nestingAfter, openAfter_openParen h, hheads, if_neg (by simp),
    List.countP_cons_of_pos (by decide), nestingAfter]

theorem nestingAfter_header (h : token.kind = .openParen) (hheads : headsBlock before = true) :
  nestingAfter (token :: before) = nestingAfter before
  := by
  rw [nestingAfter, openAfter_openParen h, hheads, if_pos rfl,
    List.countP_cons_of_neg (by decide), nestingAfter]

end

/-! ### Tokens that close what they open -/

/-- After the tokens the same brackets are open as before them. -/
def Neutral (tokens : List Token) : Prop :=
  ∀ before, openAfter (tokens.reverse ++ before) = openAfter before

theorem neutral_nil :
  Neutral []
  := fun _ => rfl

theorem Neutral.append {first second : List Token} (h : Neutral first) (h' : Neutral second) :
  Neutral (first ++ second)
  := by
  intro before
  rw [List.reverse_append, List.append_assoc, h', h]

theorem neutral_token {token : Token} (h : token.kind.isBracket = false) :
  Neutral [token]
  := fun _ => openAfter_of_not_isBracket h

theorem Neutral.cons {token : Token} {tokens : List Token} (h : token.kind.isBracket = false)
    (hs : Neutral tokens) :
  Neutral (token :: tokens)
  := (neutral_token h).append hs

/-- What a bracket opens is closed after the tokens. -/
theorem Neutral.enclosed {opening closing : Token} {tokens : List Token} (h : Neutral tokens)
    (hopening : opening.kind = .openCurly ∨ opening.kind = .openParen)
    (hclosing : closing.kind = .closeCurly ∨ closing.kind = .closeParen) :
  Neutral (opening :: tokens ++ [closing])
  := by
  intro before
  have hreverse : (opening :: tokens ++ [closing]).reverse ++ before
      = closing :: (tokens.reverse ++ opening :: before) := by
    simp
  rw [hreverse, openAfter_closing hclosing, h]
  obtain hopening | hopening := hopening
  · rw [openAfter_openCurly hopening, List.tail_cons]
  · rw [openAfter_openParen hopening, List.tail_cons]

theorem Neutral.inParens {opening closing : Token} {tokens : List Token} (h : Neutral tokens)
    (hopening : opening.kind = .openParen) (hclosing : closing.kind = .closeParen) :
  Neutral (opening :: tokens ++ [closing])
  := h.enclosed (.inr hopening) (.inr hclosing)

theorem not_isBracket_of_isOperator {kind : Kind} (h : kind.isOperator = true) :
  kind.isBracket = false
  := by
  cases kind <;> trivial

theorem not_isBracket_of_atom? {kind : Kind} {sort : Atom} (h : kind.atom? = some sort) :
  kind.isBracket = false
  := by
  cases kind <;> trivial

namespace Grammar

mutual

theorem Expression.neutral : ∀ {depth : Nat} {tokens : List Token} {e : Expr},
    Expression depth tokens e → Neutral tokens
  | _, _, _, .factor h => h.neutral
  | _, _, _, .operator hleft hsign hright =>
      hleft.neutral.append (.cons (not_isBracket_of_isOperator hsign) hright.neutral)

theorem Factor.neutral : ∀ {depth : Nat} {tokens : List Token} {e : Expr},
    Factor depth tokens e → Neutral tokens
  | _, _, _, .atom h => neutral_token (not_isBracket_of_atom? h)
  | _, _, _, .group _ hopening h hclosing => h.neutral.inParens hopening hclosing
  | _, _, _, .bare _ hopening h _ hclosing => h.neutral.inParens hopening hclosing
  | _, _, _, .call hname h => .cons (congrArg Kind.isBracket hname) h.neutral

theorem Arguments.neutral : ∀ {depth : Nat} {tokens : List Token} {list : List Expr},
    Arguments depth tokens list → Neutral tokens
  | _, _, _, .none _ hopening hclosing => neutral_nil.inParens hopening hclosing
  | _, _, _, .some _ hopening h hclosing => h.neutral.inParens hopening hclosing

theorem Expressions.neutral : ∀ {depth : Nat} {tokens : List Token} {list : List Expr},
    Expressions depth tokens list → Neutral tokens
  | _, _, _, .one h => h.neutral
  | _, _, _, .more h hcomma hs =>
      h.neutral.append (.cons (congrArg Kind.isBracket hcomma) hs.neutral)

end

theorem Condition.neutral {depth : Nat} {tokens : List Token} {e : Expr}
    (h : Condition depth tokens e) :
  Neutral tokens
  := by
  cases h with
  | mk hopening h hclosing => apply h.neutral.inParens hopening hclosing

section

variable {α : Type} {form : List Token → α → Prop}
  (hform : ∀ {tokens : List Token} {item : α}, form tokens item → Neutral tokens)

include hform

theorem Separated.neutral {tokens : List Token} {items : List α} (h : Separated form tokens items) :
  Neutral tokens
  := by
  induction h with
  | one h => apply hform h
  | more h hcomma _ ih => apply (hform h).append (.cons (congrArg Kind.isBracket hcomma) ih)

/-- A list in parentheses closes them. -/
theorem InParens.exists_neutral {tokens : List Token} {items : List α}
    (h : InParens form tokens items) :
  ∃ opening closing inner, tokens = opening :: inner ++ [closing] ∧ opening.kind = .openParen
    ∧ Neutral inner ∧ closing.kind = .closeParen
  := by
  cases h with
  | @none opening closing hopening hclosing =>
    exact ⟨opening, closing, [], rfl, hopening, neutral_nil, hclosing⟩
  | @some opening closing inner _ hopening h hclosing =>
    exact ⟨opening, closing, inner, rfl, hopening, h.neutral hform, hclosing⟩

theorem InParens.neutral {tokens : List Token} {items : List α} (h : InParens form tokens items) :
  Neutral tokens
  := by
  obtain ⟨opening, closing, inner, rfl, hopening, hinner, hclosing⟩ := h.exists_neutral hform
  apply hinner.inParens hopening hclosing

end

theorem IsParameter.neutral {tokens : List Token} {parameter : Parameter}
    (h : IsParameter tokens parameter) :
  Neutral tokens
  := by
  cases h with
  | mk htype hname =>
    apply Neutral.cons (congrArg Kind.isBracket htype)
    apply neutral_token (congrArg Kind.isBracket hname)

mutual

theorem Statement.neutral : ∀ {depth : Nat} {inFunction : Bool} {tokens : List Token}
    {stmts : List Stmt}, Statement depth inFunction tokens stmts → Neutral tokens
  | _, _, _, _, .declaration htype hname hsign hvalue hending =>
      .append (.cons (congrArg Kind.isBracket htype) (.cons (congrArg Kind.isBracket hname)
        (.cons (congrArg Kind.isBracket hsign) hvalue.neutral)))
        (neutral_token (congrArg Kind.isBracket hending))
  | _, _, _, _, .assignment hname hsign hvalue hending =>
      .append (.cons (congrArg Kind.isBracket hname)
        (.cons (congrArg Kind.isBracket hsign) hvalue.neutral))
        (neutral_token (congrArg Kind.isBracket hending))
  | _, _, _, _, .call hname h => .cons (congrArg Kind.isBracket hname) h.neutral
  | _, _, _, _, .callEnded hname h hending =>
      .append (.cons (congrArg Kind.isBracket hname) h.neutral)
        (neutral_token (congrArg Kind.isBracket hending))
  | _, _, _, _, .conditional hkeyword hcondition hbody =>
      .append (.cons (congrArg Kind.isBracket hkeyword) hcondition.neutral) hbody.neutral
  | _, _, _, _, .alternative hkeyword hcondition hbody hotherwise hother =>
      .append (.append (.cons (congrArg Kind.isBracket hkeyword) hcondition.neutral) hbody.neutral)
        (.cons (congrArg Kind.isBracket hotherwise) hother.neutral)
  | _, _, _, _, .loop hkeyword hcondition hbody =>
      .append (.cons (congrArg Kind.isBracket hkeyword) hcondition.neutral) hbody.neutral
  | _, _, _, _, .function hkeyword hname hparameters hbody =>
      .append (.cons (congrArg Kind.isBracket hkeyword)
        (.cons (congrArg Kind.isBracket hname) (hparameters.neutral IsParameter.neutral)))
        hbody.neutral
  | _, _, _, _, .result hkeyword hvalue hending =>
      .append (.cons (congrArg Kind.isBracket hkeyword) hvalue.neutral)
        (neutral_token (congrArg Kind.isBracket hending))
  | _, _, _, _, .empty hending => neutral_token (congrArg Kind.isBracket hending)

theorem Block.neutral : ∀ {depth : Nat} {inFunction : Bool} {tokens : List Token}
    {body : List Stmt}, Block depth inFunction tokens body → Neutral tokens
  | _, _, _, _, .mk _ hopening h hclosing => h.neutral.enclosed (.inl hopening) (.inl hclosing)

theorem Statements.neutral : ∀ {depth : Nat} {inFunction : Bool} {tokens : List Token}
    {stmts : List Stmt}, Statements depth inFunction tokens stmts → Neutral tokens
  | _, _, _, _, .nil => neutral_nil
  | _, _, _, _, .cons h hs => h.neutral.append hs.neutral

end

end Grammar

/-! ### What stands right before a token -/

/-- A token of the kind stands right before no parenthesis of a header, and before no name that
does. -/
def Kind.isPlain : Kind → Bool
  | si | mientras | funcion | identifier => false
  | _ => true

/-- The last of the tokens, which comes first, begins no header. -/
def Plain (before : List Token) : Prop :=
  ∀ last ∈ before.head?, last.kind.isPlain = true

theorem plain_nil :
  Plain []
  := by
  intro last hlast
  cases hlast

theorem plain_cons {token : Token} {before : List Token} (h : token.kind.isPlain = true) :
  Plain (token :: before)
  := by
  intro last hlast
  obtain rfl := Option.some.inj hlast
  exact h

theorem isPlain_of_isOperator {kind : Kind} (h : kind.isOperator = true) :
  kind.isPlain = true
  := by
  cases kind <;> trivial

theorem Plain.headsBlock_eq {before : List Token} (h : Plain before) :
  headsBlock before = false
  := by
  cases before with
  | nil => rfl
  | cons last before =>
    have hlast := h last rfl
    cases hkind : last.kind <;> simp_all [headsBlock, Kind.isPlain]

theorem Plain.headsBlock_name {before : List Token} (h : Plain before) {name : Token}
    (hname : name.kind = .identifier) :
  headsBlock (name :: before) = false
  := by
  cases before with
  | nil => simp [headsBlock, hname]
  | cons last before =>
    have hlast := h last rfl
    cases hkind : last.kind <;> simp_all [headsBlock, Kind.isPlain]

/-- The header of a block is complete after the parenthesis that closes it. -/
theorem blockIsDue_of_inParens {opening closing : Token} {tokens before : List Token}
    (hopening : opening.kind = .openParen) (h : Neutral tokens)
    (hclosing : closing.kind = .closeParen) (hheads : headsBlock before = true) :
  blockIsDue ((opening :: tokens ++ [closing]).reverse ++ before) = true
  := by
  have hreverse : (opening :: tokens ++ [closing]).reverse ++ before
      = closing :: (tokens.reverse ++ opening :: before) := by
    simp
  rw [hreverse, blockIsDue, h, openAfter_openParen hopening, hheads]
  simp [hclosing]

namespace Grammar

theorem Condition.blockIsDue {depth : Nat} {tokens before : List Token} {e : Expr}
    (h : Condition depth tokens e) (hheads : headsBlock before = true) :
  blockIsDue (tokens.reverse ++ before) = true
  := by
  cases h with
  | mk hopening h hclosing => apply blockIsDue_of_inParens hopening h.neutral hclosing hheads

theorem blockIsDue_of_parameters {tokens before : List Token} {parameters : List Parameter}
    (h : InParens IsParameter tokens parameters) (hheads : headsBlock before = true) :
  blockIsDue (tokens.reverse ++ before) = true
  := by
  obtain ⟨opening, closing, inner, rfl, hopening, hinner, hclosing⟩ :=
    h.exists_neutral IsParameter.neutral
  apply blockIsDue_of_inParens hopening hinner hclosing hheads

/-- After the tokens comes no header that they begin. -/
def EndsPlain (tokens : List Token) : Prop :=
  ∀ before, Plain (tokens.reverse ++ before)

theorem endsPlain_concat {ending : Token} (h : ending.kind.isPlain = true) (tokens : List Token) :
  EndsPlain (tokens ++ [ending])
  := by
  intro before
  rw [List.reverse_append, List.reverse_singleton, List.singleton_append, List.cons_append]
  apply plain_cons h

theorem EndsPlain.append {second : List Token} (h : EndsPlain second) (first : List Token) :
  EndsPlain (first ++ second)
  := by
  intro before
  rw [List.reverse_append, List.append_assoc]
  apply h

theorem Arguments.endsPlain {depth : Nat} {tokens : List Token} {list : List Expr}
    (h : Arguments depth tokens list) :
  EndsPlain tokens
  := by
  cases h with
  | @none _ opening _ _ _ hclosing =>
    apply endsPlain_concat (congrArg Kind.isPlain hclosing) [opening]
  | some _ _ _ hclosing => apply endsPlain_concat (congrArg Kind.isPlain hclosing)

theorem Block.endsPlain {depth : Nat} {inFunction : Bool} {tokens : List Token} {body : List Stmt}
    (h : Block depth inFunction tokens body) :
  EndsPlain tokens
  := by
  cases h with
  | mk _ _ _ hclosing => apply endsPlain_concat (congrArg Kind.isPlain hclosing)

/-- A statement ends with a semicolon or a closing bracket. -/
theorem Statement.endsPlain {depth : Nat} {inFunction : Bool} {tokens : List Token}
    {stmts : List Stmt} (h : Statement depth inFunction tokens stmts) :
  EndsPlain tokens
  := by
  cases h with
  | declaration _ _ _ _ hending | assignment _ _ _ hending | callEnded _ _ hending
  | result _ _ hending => apply endsPlain_concat (congrArg Kind.isPlain hending)
  | empty hending => apply endsPlain_concat (congrArg Kind.isPlain hending) []
  | @call _ _ name _ _ _ h => apply h.endsPlain.append [name]
  | conditional _ _ hbody | loop _ _ hbody | function _ _ _ hbody => apply hbody.endsPlain.append
  | @alternative _ _ _ otherwise _ _ third _ _ _ _ _ _ _ hother =>
    apply EndsPlain.append
    apply hother.endsPlain.append [otherwise]

end Grammar

end Mientras
