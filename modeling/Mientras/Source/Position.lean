import Mientras.Text.Bytes

/-!
# Positions in a source text

A `Position` names a place in a text three times over: by the number of bytes before it, by its
line and by its column.  Lines and columns start at one, only a newline ends a line, and a
column counts characters.  `p.past text` is the position after `text` when `p` is the position
before it.  A `Span` is the part of a text between two positions.
-/

namespace Mientras

/-- A place in a source text. -/
structure Position where
  /-- The number of bytes before the place. -/
  offset : Nat
  /-- The number of the line, counted from one. -/
  line : Nat
  /-- The number of the character in its line, counted from one. -/
  column : Nat
  deriving DecidableEq, Repr, Inhabited

namespace Position

/-- The position before the first character. -/
def start : Position :=
  ⟨0, 1, 1⟩

/-- The position after one character. -/
def next (p : Position) (c : Char) : Position :=
  if c = '\n' then ⟨p.offset + c.utf8Size, p.line + 1, 1⟩
  else ⟨p.offset + c.utf8Size, p.line, p.column + 1⟩

/-- The position after a text. -/
def past (p : Position) (text : List Char) : Position :=
  text.foldl next p

@[simp]
theorem past_nil (p : Position) :
  p.past [] = p
  := rfl

@[simp]
theorem past_cons (p : Position) (c : Char) (text : List Char) :
  p.past (c :: text) = (p.next c).past text
  := rfl

@[simp]
theorem past_append (p : Position) (first second : List Char) :
  p.past (first ++ second) = (p.past first).past second
  := by
  simp [past]

theorem offset_next (p : Position) (c : Char) :
  (p.next c).offset = p.offset + c.utf8Size
  := by
  unfold next
  split <;> rfl

/-- Offsets count bytes. -/
theorem offset_past (p : Position) (text : List Char) :
  (p.past text).offset = p.offset + Text.byteSize text
  := by
  induction text generalizing p with
  | nil => simp
  | cons c text ih => simp [ih, offset_next, Nat.add_assoc]

/-- Lines count newlines. -/
theorem line_past (p : Position) (text : List Char) :
  (p.past text).line = p.line + text.count '\n'
  := by
  induction text generalizing p with
  | nil => simp
  | cons c text ih =>
    rw [past_cons, ih, List.count_cons]
    by_cases h : c = '\n'
    · simp only [next, h, if_true, beq_self_eq_true]
      omega
    · simp [next, h]

/-- After a newline the column starts again at one. -/
theorem column_past_newline (p : Position) (text : List Char) :
  (p.past (text ++ ['\n'])).column = 1
  := by
  simp [next]

end Position

/-- The part of a source text between two positions. -/
structure Span where
  /-- The position before the first character of the part. -/
  start : Position
  /-- The position after the last character of the part. -/
  stop : Position
  deriving DecidableEq, Repr, Inhabited

namespace Span

/-- The number of bytes in the part. -/
def size (span : Span) : Nat :=
  span.stop.offset - span.start.offset

/-- The part has no bytes. -/
def isEmpty (span : Span) : Bool :=
  span.size == 0

end Span

end Mientras
