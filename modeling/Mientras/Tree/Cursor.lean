import Mientras.Fault.Basic
import Mientras.Token.Basic

/-!
# Cursors over tokens

A `Cursor` stands at a token of a list, within the scopes that are open there.  What comes after
the first end of the input is never seen.  `Read` is the type of readers: a reader starts at a
cursor and ends at a cursor, also when it fails, and a failure closes nothing that is open.
-/

namespace Mientras

/-- What a list of statements belongs to. -/
inductive Scope where
  | program
  | function
  | conditional
  | loop
  deriving DecidableEq, Repr, Inhabited

/-- A place in a list of tokens. -/
structure Cursor where
  /-- The tokens from the place on, up to the end of the input. -/
  rest : List Token
  /-- The token that stands at the end of the input. -/
  stop : Token
  /-- The open scopes, the innermost first. -/
  scopes : List Scope
  /-- The number of blocks, groups and argument lists that are open. -/
  depth : Nat
  deriving Repr, Inhabited

/-- The greatest number of blocks, groups and argument lists that may be open together. -/
def maxDepth : Nat := 128

namespace Cursor

/-- The end of the input among the tokens.  A list without one ends where its last token ends.
-/
def stopOf (tokens : List Token) : Token :=
  (tokens.find? (·.isEnd)).getD
    (Token.endAt ((tokens.getLast?.map (·.span.stop)).getD Position.start))

/-- The cursor at the first of the tokens. -/
def ofTokens (tokens : List Token) : Cursor where
  rest := tokens.takeWhile (!·.isEnd)
  stop := stopOf tokens
  scopes := [.program]
  depth := 0

/-- The token at the cursor. -/
def current (cursor : Cursor) : Token :=
  cursor.rest.headD cursor.stop

/-- The kind of the token at the cursor. -/
def kind (cursor : Cursor) : Kind :=
  cursor.current.kind

/-- The cursor is at the end of the input. -/
def atEnd (cursor : Cursor) : Bool :=
  cursor.rest.isEmpty

/-- Some open scope is a function. -/
def inFunction (cursor : Cursor) : Bool :=
  cursor.scopes.contains .function

theorem isEnd_stopOf (tokens : List Token) :
  (stopOf tokens).isEnd = true
  := by
  unfold stopOf
  cases h : tokens.find? (·.isEnd) with
  | none => simp
  | some token => simpa using List.find?_some h

end Cursor

/-- A reader moves a cursor and finds a value, or fails. -/
abbrev Read := EStateM Fault Cursor

namespace Read

/-- The token at the cursor. -/
def current : Read Token := do
  return (← get).current

/-- The kind of the token at the cursor. -/
def kind : Read Kind := do
  return (← get).kind

/-- Passes a token.  The end of the input is never passed. -/
def advance : Read Token := fun cursor =>
  match cursor.rest with
  | [] => .ok cursor.stop cursor
  | token :: rest => .ok token { cursor with rest }

/-- Fails at the token at the cursor. -/
def fail {α : Type} (cause : Token → Cause) : Read α := fun cursor =>
  .error ⟨cause cursor.current, cursor.current.span.start⟩ cursor

/-- Fails because the token at the cursor is not what was expected. -/
def unexpected {α : Type} (expected : String) : Read α :=
  fail fun token =>
    if token.isEnd then .unexpectedEnd expected else .unexpected expected token.description

/-- Passes a token of the given kind, which a failure calls `expected`. -/
def expectAs (kind : Kind) (expected : String) : Read Token := do
  if (← Read.kind) = kind then advance else unexpected expected

/-- Passes a token of the given kind. -/
def expect (kind : Kind) : Read Token :=
  expectAs kind kind.description

/-- Opens one more block, group or argument list. -/
def nest : Read Unit := fun cursor =>
  if cursor.depth < maxDepth then .ok () { cursor with depth := cursor.depth + 1 }
  else fail (fun _ => .tooDeep maxDepth) cursor

/-- Closes a block, group or argument list. -/
def unnest : Read Unit := fun cursor =>
  .ok () { cursor with depth := cursor.depth - 1 }

/-- Opens a block in the given scope. -/
def enterScope (scope : Scope) : Read Unit := do
  nest
  modify fun cursor => { cursor with scopes := scope :: cursor.scopes }

/-- Closes the innermost block. -/
def exitScope : Read Unit := do
  modify fun cursor => { cursor with scopes := cursor.scopes.tail }
  unnest

/-- Reads more items while a comma stands at the cursor, at most `count` of them. -/
def moreItems {α : Type} (item : Read α) : Nat → Read (List α)
  | 0 => pure []
  | count + 1 => do
    if (← kind) = .comma then
      let _ ← advance
      let first ← item
      let others ← moreItems item count
      return first :: others
    else return []

/-- Reads one or more items with commas between them. -/
def items {α : Type} (item : Read α) : Read (List α) := do
  let first ← item
  let others ← moreItems item (← get).rest.length
  return first :: others

/-- Reads items with commas between them up to a closing parenthesis, which is passed too. -/
def itemsInParens {α : Type} (item : Read α) : Read (List α) := do
  let _ ← expect .openParen
  let list ← if (← kind) = .closeParen then pure [] else items item
  let _ ← expectAs .closeParen "`,` or `)`"
  return list

end Read

end Mientras
