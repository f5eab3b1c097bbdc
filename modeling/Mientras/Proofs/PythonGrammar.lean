import Mathlib.Tactic.Common
import Mientras.Proofs.Scan

/-!
# The grammar of Python expressions

The expressions of Python with the operators of this language: comparisons bind loosest and are
chained, sums bind tighter and products tightest, both from left to right, and their operands are
atoms, calls and expressions in parentheses.  A `Derivation` has one form for each rule of that
grammar, `yield` gives the lexemes that it derives, and `tree` what they mean.  The grammar is not
ambiguous: a list of lexemes has at most one derivation (`Derivation.eq_of_yield_eq`).
-/

namespace Mientras.Python

/-! ### Derivations -/

/-- The symbols of the grammar. -/
inductive Symbol where
  /-- Expressions with operators of the first `n` levels. -/
  | level (n : Nat)
  /-- Operators of the level `n`, each with its right operand. -/
  | operations (n : Nat)
  /-- The argument lists that follow what is called. -/
  | calls
  /-- The inside of an argument list. -/
  | arguments
  /-- What follows an argument in its list. -/
  | others

/-- The operators of a level.  Those of the first level bind tightest, and those of the last are
the comparisons. -/
def operators : Nat → List Kind
  | 0 => [.star, .slash]
  | 1 => [.plus, .dash]
  | 2 => [.equals, .notEquals, .less, .lessEquals, .greater, .greaterEquals]
  | _ => []

/-- The kinds of the names and literals. -/
def atoms : List Kind :=
  [.identifier, .integer, .float, .text]

/-- Expressions with operators of all levels. -/
abbrev Symbol.expression : Symbol :=
  .level 3

/-- The ways to derive lexemes from a symbol. -/
inductive Derivation : Symbol → Type where
  | chain {n : Nat} (first : Derivation (.level n)) (operations : Derivation (.operations n)) :
      Derivation (.level (n + 1))
  | noOperation {n : Nat} : Derivation (.operations n)
  | operation {n : Nat} (sign : Lexeme) (hsign : sign.kind ∈ operators n)
      (operand : Derivation (.level n)) (operations : Derivation (.operations n)) :
      Derivation (.operations n)
  | atom (lexeme : Lexeme) (h : lexeme.kind ∈ atoms) (calls : Derivation .calls) :
      Derivation (.level 0)
  | group (opening : Lexeme) (hopening : opening.kind = .openParen)
      (inside : Derivation .expression) (closing : Lexeme) (hclosing : closing.kind = .closeParen)
      (calls : Derivation .calls) :
      Derivation (.level 0)
  | noCall : Derivation .calls
  | call (opening : Lexeme) (hopening : opening.kind = .openParen)
      (arguments : Derivation .arguments) (closing : Lexeme)
      (hclosing : closing.kind = .closeParen) (calls : Derivation .calls) :
      Derivation .calls
  | noArgument : Derivation .arguments
  | someArgument (first : Derivation .expression) (others : Derivation .others) :
      Derivation .arguments
  | noOther : Derivation .others
  /-- A comma may stand after the last argument. -/
  | lastComma (comma : Lexeme) (hcomma : comma.kind = .comma) : Derivation .others
  | other (comma : Lexeme) (hcomma : comma.kind = .comma) (argument : Derivation .expression)
      (others : Derivation .others) :
      Derivation .others

namespace Derivation

/-- The lexemes that are derived. -/
def yield : ∀ {s : Symbol}, Derivation s → List Lexeme
  | _, chain first operations => first.yield ++ operations.yield
  | _, noOperation => []
  | _, operation sign _ operand operations => sign :: (operand.yield ++ operations.yield)
  | _, atom lexeme _ calls => lexeme :: calls.yield
  | _, group opening _ inside closing _ calls =>
    opening :: (inside.yield ++ closing :: calls.yield)
  | _, noCall => []
  | _, call opening _ arguments closing _ calls =>
    opening :: (arguments.yield ++ closing :: calls.yield)
  | _, noArgument => []
  | _, someArgument first others => first.yield ++ others.yield
  | _, noOther => []
  | _, lastComma comma _ => [comma]
  | _, other comma _ argument others => comma :: (argument.yield ++ others.yield)

end Derivation

/-! ### Trees -/

/-- The expressions of Python as trees. -/
inductive Tree where
  | atom (kind : Kind) (text : String)
  | binary (operator : String) (left right : Tree)
  /-- Two or more comparisons of which each shares an operand with the next. -/
  | chained (operators : List String) (operands : List Tree)
  | call (callee : Tree) (arguments : List Tree)

/-- Operators of one level with their operands.  Two or more comparisons are chained, and the other
operators are taken from left to right. -/
def Tree.ofOperations (n : Nat) (first : Tree) (operations : List (String × Tree)) : Tree :=
  if n = 2 ∧ 2 ≤ operations.length then
    .chained (operations.map (·.1)) (first :: operations.map (·.2))
  else operations.foldl (fun left operation => .binary operation.1 left operation.2) first

theorem Tree.ofOperations_nil (n : Nat) (first : Tree) :
  ofOperations n first [] = first
  := by
  simp [ofOperations]

theorem Tree.ofOperations_singleton (n : Nat) (first operand : Tree) (operator : String) :
  ofOperations n first [(operator, operand)] = .binary operator first operand
  := by
  simp [ofOperations]

/-- What the derivations from a symbol stand for. -/
def Symbol.Value : Symbol → Type
  | level _ => Tree
  | operations _ => List (String × Tree)
  | calls => List (List Tree)
  | arguments | others => List Tree

/-- What a derivation stands for. -/
def Derivation.tree : ∀ {s : Symbol}, Derivation s → s.Value
  | _, @chain n first operations => Tree.ofOperations n first.tree operations.tree
  | _, noOperation => ([] : List (String × Tree))
  | _, operation sign _ operand operations =>
    ((sign.value, operand.tree) :: operations.tree : List (String × Tree))
  | _, atom lexeme _ calls => calls.tree.foldl Tree.call (.atom lexeme.kind lexeme.value)
  | _, group _ _ inside _ _ calls => calls.tree.foldl Tree.call inside.tree
  | _, noCall => ([] : List (List Tree))
  | _, call _ _ arguments _ _ calls => (arguments.tree :: calls.tree : List (List Tree))
  | _, noArgument => ([] : List Tree)
  | _, someArgument first others => (first.tree :: others.tree : List Tree)
  | _, noOther => ([] : List Tree)
  | _, lastComma _ _ => ([] : List Tree)
  | _, other _ _ argument others => (argument.tree :: others.tree : List Tree)

/-! ### Unique derivations

A derivation of a symbol ends where something stands that cannot continue it.  Two derivations of
one symbol that are read from the same lexemes up to such places are equal. -/

/-- The lexemes do not start with an argument list or an operator of the first `n` levels. -/
def EndsLevel (n : Nat) (rest : List Lexeme) : Prop :=
  ∀ lexeme ∈ rest.head?, lexeme.kind ≠ .openParen ∧ ∀ m < n, lexeme.kind ∉ operators m

/-- The lexemes start with what closes an argument list. -/
def Closes (rest : List Lexeme) : Prop :=
  ∃ lexeme ∈ rest.head?, lexeme.kind = .closeParen

/-- The lexemes cannot continue what is derived from the symbol. -/
def Symbol.Ends : Symbol → List Lexeme → Prop
  | level n, rest => EndsLevel n rest
  | operations n, rest => EndsLevel (n + 1) rest
  | calls, rest => EndsLevel 0 rest
  | arguments, rest | others, rest => Closes rest

/-- An operator is of one level only, and is neither a parenthesis nor a comma. -/
theorem ne_of_mem_operators {kind : Kind} {n : Nat} (h : kind ∈ operators n) :
  kind ∉ [Kind.openParen, .closeParen, .comma] ∧ ∀ m < n, kind ∉ operators m
  := by
  have hlevels : ∀ n < 3, ∀ kind ∈ operators n,
      kind ∉ [Kind.openParen, .closeParen, .comma] ∧ ∀ m < n, kind ∉ operators m := by decide
  by_cases hn : n < 3
  · apply hlevels n hn kind h
  · obtain ⟨n, rfl⟩ : ∃ m, n = m + 3 := ⟨n - 3, by omega⟩
    simp [operators] at h

theorem EndsLevel.mono {m n : Nat} {rest : List Lexeme} (h : EndsLevel n rest) (hmn : m ≤ n) :
  EndsLevel m rest
  := by
  intro lexeme hlexeme
  use (h lexeme hlexeme).1
  intro k hk
  apply (h lexeme hlexeme).2 k (by omega)

/-- A closing parenthesis or a comma ends an expression. -/
theorem endsLevel_cons {lexeme : Lexeme} (h : lexeme.kind ∈ [Kind.closeParen, .comma]) (n : Nat)
    (rest : List Lexeme) :
  EndsLevel n (lexeme :: rest)
  := by
  intro other hother
  obtain rfl := Option.some.inj hother
  constructor
  · intro hkind
    rw [hkind] at h
    revert h
    decide
  · intro m _ hm
    apply (ne_of_mem_operators hm).1
    apply List.mem_cons_of_mem _ h

namespace Derivation

theorem endsLevel_operations {n : Nat} (d : Derivation (.operations n)) {rest : List Lexeme}
    (h : EndsLevel (n + 1) rest) :
  EndsLevel n (d.yield ++ rest)
  := by
  cases d with
  | noOperation => apply h.mono (Nat.le_succ n)
  | operation sign hsign operand operations =>
    intro lexeme hlexeme
    obtain rfl := Option.some.inj hlexeme
    obtain ⟨hne, hlevels⟩ := ne_of_mem_operators hsign
    exact ⟨List.ne_of_not_mem_cons hne, hlevels⟩

theorem endsLevel_others (d : Derivation .others) {rest : List Lexeme} (h : Closes rest)
    (n : Nat) :
  EndsLevel n (d.yield ++ rest)
  := by
  cases d with
  | noOther =>
    obtain ⟨closing, hclosing, hkind⟩ := h
    obtain ⟨rest, rfl⟩ := List.head?_eq_some_iff.mp hclosing
    apply endsLevel_cons (by simp [hkind])
  | lastComma comma hcomma => apply endsLevel_cons (by simp [hcomma])
  | other comma hcomma argument others => apply endsLevel_cons (by simp [hcomma])

/-- An expression starts with an atom or an opening parenthesis. -/
theorem exists_first : ∀ {n : Nat} (d : Derivation (.level n)),
    ∃ first rest, d.yield = first :: rest ∧ (first.kind ∈ atoms ∨ first.kind = .openParen)
  | _, .chain first operations => by
      obtain ⟨lexeme, rest, hyield, hkind⟩ := exists_first first
      use lexeme, rest ++ operations.yield
      rw [yield, hyield]
      exact ⟨rfl, hkind⟩
  | _, .atom lexeme h calls => ⟨lexeme, calls.yield, rfl, .inl h⟩
  | _, .group opening hopening _ _ _ _ => ⟨opening, _, rfl, .inr hopening⟩

/-- What closes an argument list does not start an expression. -/
theorem not_closes_yield {n : Nat} (d : Derivation (.level n)) {rest : List Lexeme} :
  ¬ Closes (d.yield ++ rest)
  := by
  rintro ⟨closing, hclosing, hkind⟩
  obtain ⟨first, others, hyield, hfirst⟩ := exists_first d
  rw [hyield] at hclosing
  obtain rfl := Option.some.inj hclosing
  rw [hkind] at hfirst
  revert hfirst
  decide

theorem not_closes_comma {comma : Lexeme} (h : comma.kind = .comma) {rest : List Lexeme} :
  ¬ Closes (comma :: rest)
  := by
  rintro ⟨closing, hclosing, hkind⟩
  obtain rfl := Option.some.inj hclosing
  simp [h] at hkind

/-- An atom is not an opening parenthesis. -/
theorem ne_of_mem_atoms {kind : Kind} (h : kind ∈ atoms) :
  kind ≠ .openParen
  := by
  rintro rfl
  revert h
  decide

/-- What can be left out does not start like what may stand where it is left out. -/
theorem not_ends_of_append {s : Symbol} (hs : ∀ n, s ≠ .level n) {d : Derivation s}
    (hd : d.yield ≠ []) {rest rest' : List Lexeme} (heq : rest = d.yield ++ rest') :
  ¬ s.Ends rest
  := by
  subst heq
  intro h
  cases d with
  | chain | atom | group => exact hs _ rfl
  | noOperation | noCall | noArgument | noOther => exact hd rfl
  | operation sign hsign => exact (h sign rfl).2 _ (Nat.lt_succ_self _) hsign
  | call opening hopening => exact (h opening rfl).1 hopening
  | someArgument first others =>
    rw [yield, List.append_assoc] at h
    exact first.not_closes_yield h
  | lastComma comma hcomma => exact not_closes_comma hcomma h
  | other comma hcomma => exact not_closes_comma hcomma h

/-- No other derivation from the symbol derives the same lexemes, up to places where neither can be
continued. -/
def Determined {s : Symbol} (d : Derivation s) : Prop :=
  ∀ ⦃d' : Derivation s⦄ ⦃rest rest' : List Lexeme⦄, d.yield ++ rest = d'.yield ++ rest' →
    s.Ends rest → s.Ends rest' → d = d' ∧ rest = rest'

/-- Two derivations one after the other are determined when each of them is and the second ends the
first. -/
theorem Determined.append {s t : Symbol} {first first' : Derivation s}
    {second second' : Derivation t} (hfirst : first.Determined) (hsecond : second.Determined)
    {rest rest' : List Lexeme}
    (h : first.yield ++ second.yield ++ rest = first'.yield ++ second'.yield ++ rest')
    (hs : s.Ends (second.yield ++ rest)) (hs' : s.Ends (second'.yield ++ rest'))
    (ht : t.Ends rest) (ht' : t.Ends rest') :
  first = first' ∧ second = second' ∧ rest = rest'
  := by
  rw [List.append_assoc, List.append_assoc] at h
  obtain ⟨hfirst, htail⟩ := hfirst h hs hs'
  exact ⟨hfirst, hsecond htail ht ht'⟩

/-- What stands in parentheses is determined, and so are the calls after it. -/
theorem Determined.enclosed {s : Symbol} {inside inside' : Derivation s}
    {calls calls' : Derivation .calls} (hinside : inside.Determined) (hcalls : calls.Determined)
    (hs : ∀ {closing : Lexeme} {rest : List Lexeme}, closing.kind = .closeParen →
      s.Ends (closing :: rest))
    {opening opening' closing closing' : Lexeme} (hclosing : closing.kind = .closeParen)
    (hclosing' : closing'.kind = .closeParen) {rest rest' : List Lexeme}
    (h : opening :: (inside.yield ++ closing :: calls.yield) ++ rest
      = opening' :: (inside'.yield ++ closing' :: calls'.yield) ++ rest')
    (hends : EndsLevel 0 rest) (hends' : EndsLevel 0 rest') :
  opening = opening' ∧ inside = inside' ∧ closing = closing' ∧ calls = calls' ∧ rest = rest'
  := by
  rw [List.cons_append, List.cons_append, List.append_assoc, List.append_assoc, List.cons_append,
    List.cons_append] at h
  obtain ⟨hopening, htail⟩ := List.cons.inj h
  obtain ⟨hinside, hclose⟩ := hinside htail (hs hclosing) (hs hclosing')
  obtain ⟨hclose, htail⟩ := List.cons.inj hclose
  exact ⟨hopening, hinside, hclose, hcalls htail hends hends'⟩

theorem Determined.operation {n : Nat} {sign : Lexeme} {hsign : sign.kind ∈ operators n}
    {operand : Derivation (.level n)} {operations : Derivation (.operations n)}
    (hoperand : operand.Determined) (hoperations : operations.Determined) :
  (operation sign hsign operand operations).Determined
  := by
  intro d' rest rest' h hends hends'
  cases d' with
  | noOperation =>
    exact absurd hends' (not_ends_of_append (by simp) (by simp [yield]) h.symm)
  | operation sign' hsign' operand' operations' =>
    obtain ⟨rfl, htail⟩ := List.cons.inj h
    obtain ⟨rfl, rfl, hrest⟩ := hoperand.append hoperations htail
      (operations.endsLevel_operations hends) (operations'.endsLevel_operations hends') hends hends'
    exact ⟨rfl, hrest⟩

theorem Determined.group {opening closing : Lexeme} {hopening : opening.kind = .openParen}
    {hclosing : closing.kind = .closeParen} {inside : Derivation .expression}
    {calls : Derivation .calls} (hinside : inside.Determined) (hcalls : calls.Determined) :
  (group opening hopening inside closing hclosing calls).Determined
  := by
  intro d' rest rest' h hends hends'
  cases d' with
  | atom lexeme hatom calls' =>
    obtain ⟨rfl, _⟩ := List.cons.inj h
    exact absurd hopening (ne_of_mem_atoms hatom)
  | group opening' hopening' inside' closing' hclosing' calls' =>
    obtain ⟨rfl, rfl, rfl, rfl, hrest⟩ := hinside.enclosed hcalls
      (fun hkind => endsLevel_cons (by simp [hkind]) _ _) hclosing hclosing' h hends hends'
    exact ⟨rfl, hrest⟩

theorem Determined.call {opening closing : Lexeme} {hopening : opening.kind = .openParen}
    {hclosing : closing.kind = .closeParen} {arguments : Derivation .arguments}
    {calls : Derivation .calls} (harguments : arguments.Determined) (hcalls : calls.Determined) :
  (call opening hopening arguments closing hclosing calls).Determined
  := by
  intro d' rest rest' h hends hends'
  cases d' with
  | noCall => exact absurd hends' (not_ends_of_append (by simp) (by simp [yield]) h.symm)
  | call opening' hopening' arguments' closing' hclosing' calls' =>
    obtain ⟨rfl, rfl, rfl, rfl, hrest⟩ := harguments.enclosed hcalls
      (fun hkind => ⟨_, rfl, hkind⟩) hclosing hclosing' h hends hends'
    exact ⟨rfl, hrest⟩

theorem Determined.someArgument {first : Derivation .expression} {others : Derivation .others}
    (hfirst : first.Determined) (hothers : others.Determined) :
  (someArgument first others).Determined
  := by
  intro d' rest rest' h hends hends'
  cases d' with
  | noArgument =>
    obtain ⟨lexeme, tail, hyield, _⟩ := exists_first first
    exact absurd hends' (not_ends_of_append (by simp) (by simp [yield, hyield]) h.symm)
  | someArgument first' others' =>
    obtain ⟨rfl, rfl, hrest⟩ := hfirst.append hothers h (others.endsLevel_others hends _)
      (others'.endsLevel_others hends' _) hends hends'
    exact ⟨rfl, hrest⟩

/-- After a comma, either an argument follows or the list is closed. -/
theorem yield_append_ne {n : Nat} {argument : Derivation (.level n)} {others : Derivation .others}
    {rest rest' : List Lexeme} (hrest : Closes rest) :
  rest ≠ argument.yield ++ others.yield ++ rest'
  := by
  rintro rfl
  rw [List.append_assoc] at hrest
  exact argument.not_closes_yield hrest

theorem determined_lastComma {comma : Lexeme} {hcomma : comma.kind = .comma} :
  (lastComma comma hcomma).Determined
  := by
  intro d' rest rest' h hends hends'
  cases d' with
  | noOther => exact absurd hends' (not_ends_of_append (by simp) (by simp [yield]) h.symm)
  | lastComma comma' hcomma' =>
    obtain ⟨rfl, hrest⟩ := List.cons.inj h
    exact ⟨rfl, hrest⟩
  | other comma' hcomma' argument others =>
    obtain ⟨_, htail⟩ := List.cons.inj h
    exact absurd htail (yield_append_ne hends)

theorem Determined.other {comma : Lexeme} {hcomma : comma.kind = .comma}
    {argument : Derivation .expression} {others : Derivation .others}
    (hargument : argument.Determined) (hothers : others.Determined) :
  (other comma hcomma argument others).Determined
  := by
  intro d' rest rest' h hends hends'
  cases d' with
  | noOther => exact absurd hends' (not_ends_of_append (by simp) (by simp [yield]) h.symm)
  | lastComma comma' hcomma' =>
    obtain ⟨_, htail⟩ := List.cons.inj h
    exact absurd htail.symm (yield_append_ne hends')
  | other comma' hcomma' argument' others' =>
    obtain ⟨rfl, htail⟩ := List.cons.inj h
    obtain ⟨rfl, rfl, hrest⟩ := hargument.append hothers htail (others.endsLevel_others hends _)
      (others'.endsLevel_others hends' _) hends hends'
    exact ⟨rfl, hrest⟩

/-- Every derivation is determined. -/
theorem determined {s : Symbol} (d : Derivation s) :
  d.Determined
  := by
  induction d with
  | chain first operations ihfirst ihoperations =>
    intro d' rest rest' h hends hends'
    cases d' with
    | chain first' operations' =>
      obtain ⟨rfl, rfl, hrest⟩ := ihfirst.append ihoperations h
        (operations.endsLevel_operations hends) (operations'.endsLevel_operations hends') hends
        hends'
      exact ⟨rfl, hrest⟩
  | operation _ _ _ _ ihoperand ihoperations => apply ihoperand.operation ihoperations
  | atom lexeme hatom calls ihcalls =>
    intro d' rest rest' h hends hends'
    cases d' with
    | atom lexeme' hatom' calls' =>
      obtain ⟨rfl, htail⟩ := List.cons.inj h
      obtain ⟨rfl, hrest⟩ := ihcalls htail hends hends'
      exact ⟨rfl, hrest⟩
    | group opening hopening =>
      obtain ⟨rfl, _⟩ := List.cons.inj h
      exact absurd hopening (ne_of_mem_atoms hatom)
  | group _ _ _ _ _ _ ihinside ihcalls => apply ihinside.group ihcalls
  | call _ _ _ _ _ _ iharguments ihcalls => apply iharguments.call ihcalls
  | someArgument _ _ ihfirst ihothers => apply ihfirst.someArgument ihothers
  | lastComma => apply determined_lastComma
  | other _ _ _ _ ihargument ihothers => apply ihargument.other ihothers
  | noOperation =>
    intro d' rest rest' h hends hends'
    cases d' with
    | noOperation => exact ⟨rfl, h⟩
    | operation => exact absurd hends (not_ends_of_append (by simp) (by simp [yield]) h)
  | noCall =>
    intro d' rest rest' h hends hends'
    cases d' with
    | noCall => exact ⟨rfl, h⟩
    | call => exact absurd hends (not_ends_of_append (by simp) (by simp [yield]) h)
  | noArgument =>
    intro d' rest rest' h hends hends'
    cases d' with
    | noArgument => exact ⟨rfl, h⟩
    | someArgument first =>
      obtain ⟨lexeme, tail, hyield, _⟩ := exists_first first
      exact absurd hends (not_ends_of_append (by simp) (by simp [yield, hyield]) h)
  | noOther =>
    intro d' rest rest' h hends hends'
    cases d' with
    | noOther => exact ⟨rfl, h⟩
    | lastComma => exact absurd hends (not_ends_of_append (by simp) (by simp [yield]) h)
    | other => exact absurd hends (not_ends_of_append (by simp) (by simp [yield]) h)

/-- The grammar is not ambiguous. -/
theorem eq_of_yield_eq {n : Nat} {d d' : Derivation (.level n)} (h : d.yield = d'.yield) :
  d = d'
  := by
  have hnil : EndsLevel n [] := by simp [EndsLevel]
  apply (determined d (by rw [h]) hnil hnil).1

end Derivation

end Mientras.Python
