import Mientras.Fault.Basic
import Mientras.Source.Line
import Mientras.Text.Infix
import Mientras.Token.Basic
import Mientras.Token.Rule

/-!
# Scanning

A `Scanner` stands at a position of a source text, with the text that is still to be read and
the tokens found so far.  It passes or records a piece of that text at a time.  `tokenize` reads
the whole source and keeps every token but blanks and comments, which only `tokenizeWithTrivia`
keeps.  Both end with a token of the kind `endOfInput`.
-/

namespace Mientras

open Text (splitBytes? hasInfix)

/-- A place in a source text, with what was found before it and what is still to be read. -/
structure Scanner where
  source : String
  /-- The text after the place. -/
  rest : List Char
  position : Position
  /-- The tokens found so far. -/
  tokens : Array Token
  /-- Blanks and comments are found too. -/
  keepTrivia : Bool

namespace Scanner

/-- The scanner before the first character of the source. -/
def start (source : String) (keepTrivia : Bool) : Scanner :=
  ⟨source, source.toList, .start, #[], keepTrivia⟩

/-- Nothing is left to be read. -/
def atEnd (scanner : Scanner) : Bool :=
  scanner.rest.isEmpty

/-- The next character, or the null character at the end. -/
def char (scanner : Scanner) : Char :=
  scanner.rest.headD (Char.ofNat 0)

/-- The scanner after a piece of text, when `rest` follows the piece. -/
def pass (scanner : Scanner) (piece rest : List Char) : Scanner :=
  { scanner with rest, position := scanner.position.past piece }

/-- The scanner after a piece of text that is a token of the given kind. -/
def record (scanner : Scanner) (kind : Kind) (piece rest : List Char) : Scanner :=
  let passed := scanner.pass piece rest
  if scanner.keepTrivia || !kind.isTrivia then
    let token := ⟨kind, String.ofList piece, ⟨scanner.position, passed.position⟩⟩
    { passed with tokens := scanner.tokens.push token }
  else passed

@[simp]
theorem rest_record (scanner : Scanner) (kind : Kind) (piece rest : List Char) :
  (scanner.record kind piece rest).rest = rest
  := by
  unfold record
  split <;> rfl

@[simp]
theorem position_record (scanner : Scanner) (kind : Kind) (piece rest : List Char) :
  (scanner.record kind piece rest).position = scanner.position.past piece
  := by
  unfold record
  split <;> rfl

@[simp]
theorem source_record (scanner : Scanner) (kind : Kind) (piece rest : List Char) :
  (scanner.record kind piece rest).source = scanner.source
  := by
  unfold record
  split <;> rfl

@[simp]
theorem keepTrivia_record (scanner : Scanner) (kind : Kind) (piece rest : List Char) :
  (scanner.record kind piece rest).keepTrivia = scanner.keepTrivia
  := by
  unfold record
  split <;> rfl

/-! ### Pieces measured in bytes -/

/-- What is done with a scanner step by step.  Where a step is refused, the scanner stays as the
steps before have left it. -/
abbrev Action := EStateM Unit Scanner

namespace Action

/-- The next `size` bytes and what follows them. -/
def split (size : Nat) : Action (List Char × List Char) := fun scanner =>
  match splitBytes? size scanner.rest with
  | some parts => .ok parts scanner
  | none => .error () scanner

/-- The next `size` bytes. -/
def peek (size : Nat) : Action String := do
  return String.ofList (← split size).1

/-- Passes over the next `size` bytes. -/
def pass (size : Nat) : Action Unit := do
  let parts ← split size
  modify (·.pass parts.1 parts.2)

/-- Passes over the next `size` bytes, which are a token of the given kind. -/
def record (kind : Kind) (size : Nat) : Action Unit := do
  let start := (← get).position
  let value ← peek size
  pass size
  let passed ← get
  if passed.keepTrivia || !kind.isTrivia then
    set { passed with tokens := passed.tokens.push ⟨kind, value, ⟨start, passed.position⟩⟩ }

/-- What the action finds and the scanner after it, unless a step is refused. -/
def result? {α : Type} (action : Action α) (scanner : Scanner) : Option (α × Scanner) :=
  match action scanner with
  | .ok a next => some (a, next)
  | .error _ _ => none

/-- The scanner after the action, whether a step is refused or not. -/
def after {α : Type} (action : Action α) (scanner : Scanner) : Scanner :=
  match action scanner with
  | .ok _ next => next
  | .error _ next => next

end Action

/-- The next `size` bytes. -/
def peek? (scanner : Scanner) (size : Nat) : Option String :=
  ((Action.peek size).result? scanner).map (·.1)

/-- The scanner after the next `size` bytes. -/
def pass? (scanner : Scanner) (size : Nat) : Option Scanner :=
  ((Action.pass size).result? scanner).map (·.2)

/-- The scanner after the next `size` bytes, which are a token of the given kind. -/
def record? (scanner : Scanner) (kind : Kind) (size : Nat) : Option Scanner :=
  ((Action.record kind size).result? scanner).map (·.2)

/-! ### Whole sources -/

/-- A block comment starts at the front of the text, and no end of it follows. -/
def isUnterminated (rest : List Char) : Bool :=
  ['/', '*'].isPrefixOf rest && !hasInfix ['*', '/'] (rest.drop 2)

/-- The fault with the given cause, which is told the line and the column where the scanner
stands. -/
def fault (scanner : Scanner) (cause : String → Nat → Cause) : Fault :=
  let line := Source.lineAt scanner.source scanner.position.offset
  ⟨cause line.text scanner.position.column, scanner.position⟩

/-- The scanner after the next token, or the reason why there is none. -/
def step (scanner : Scanner) : Except Fault Scanner :=
  if isUnterminated scanner.rest then .error (scanner.fault .unterminated)
  else
    match Rule.firstMatch? scanner.rest with
    | some (kind, length) =>
      .ok (scanner.record kind (scanner.rest.take length) (scanner.rest.drop length))
    | none => .error (scanner.fault (.unrecognised scanner.char))

/-- The scanner after the next tokens, at most `count` of them. -/
def steps : Nat → Scanner → Except Fault Scanner
  | 0, scanner => .ok scanner
  | count + 1, scanner =>
    if scanner.atEnd then .ok scanner
    else
      match scanner.step with
      | .ok scanner => steps count scanner
      | .error fault => .error fault

/-- The scanner at the end of its source.  Every token has a character, so that there are no
more tokens than characters. -/
def run (scanner : Scanner) : Except Fault Scanner :=
  scanner.steps scanner.rest.length

/-- A token is taken from the front of what is left to be read. -/
theorem exists_record_of_step {scanner after : Scanner} (h : scanner.step = .ok after) :
  ∃ kind piece, piece ≠ [] ∧ scanner.rest = piece ++ after.rest
    ∧ after = scanner.record kind piece after.rest
  := by
  unfold step at h
  split at h
  · simp at h
  · split at h
    · rename_i kind length hmatch
      obtain rfl := Except.ok.inj h
      have hbounds := Rule.firstMatch?_bounds hmatch
      refine ⟨kind, scanner.rest.take length, ?_, by simp, by simp⟩
      apply List.ne_nil_of_length_pos
      simp only [List.length_take]
      omega
    · simp at h

theorem length_rest_lt_of_step {scanner after : Scanner} (h : scanner.step = .ok after) :
  after.rest.length < scanner.rest.length
  := by
  obtain ⟨_, piece, hpiece, hrest, _⟩ := exists_record_of_step h
  have := List.length_pos_iff.mpr hpiece
  rw [hrest, List.length_append]
  omega

end Scanner

/-- The tokens of the source, closed by the end of the input. -/
def scan (source : String) (keepTrivia : Bool) : Except Fault (List Token) :=
  (Scanner.start source keepTrivia).run.map fun scanner =>
    scanner.tokens.toList ++ [Token.endAt scanner.position]

/-- The tokens of the source but for blanks and comments. -/
def tokenize (source : String) : Except Fault (List Token) :=
  scan source false

/-- All tokens of the source. -/
def tokenizeWithTrivia (source : String) : Except Fault (List Token) :=
  scan source true

end Mientras
