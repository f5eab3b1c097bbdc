import Mientras.Text.Blank
import Mientras.Text.Bytes

/-!
# The lines of a source text

`lines` parts a text into its lines, each with the newline that ends it.  `lineAt` finds the
line that holds a byte offset; an offset at or beyond the end of the text belongs to the last
line, which is empty when the text ends in a newline.
-/

namespace Mientras

open Text (byteSize trimEnd)

namespace Source

/-- The lines of a text, each with the newline that ends it.  Every line has at least one
character. -/
def lines : List Char → List (List Char)
  | [] => []
  | c :: text =>
    if c = '\n' then [c] :: lines text
    else
      match lines text with
      | [] => [[c]]
      | line :: others => (c :: line) :: others

/-- The lines of a text make up the text. -/
theorem flatten_lines (text : List Char) :
  (lines text).flatten = text
  := by
  induction text with
  | nil => rfl
  | cons c text ih =>
    simp only [lines]
    split
    · simp [ih]
    · split
      · rename_i h
        simpa [h] using ih
      · rename_i h
        simpa [h] using ih

theorem ne_nil_of_mem_lines {text line : List Char} (h : line ∈ lines text) :
  line ≠ []
  := by
  induction text generalizing line with
  | nil => simp [lines] at h
  | cons c text ih =>
    simp only [lines] at h
    split at h
    · rcases List.mem_cons.mp h with rfl | h
      · simp
      · exact ih h
    · split at h
      · simp_all
      · rename_i heq
        rcases List.mem_cons.mp h with rfl | h
        · simp
        · exact ih (heq ▸ List.mem_cons_of_mem _ h)

/-- A newline or a carriage return. -/
def isLineEnd (c : Char) : Bool :=
  c == '\n' || c == '\r'

/-- A line of a source text, and a place in it. -/
structure Line where
  /-- The number of the line, counted from one. -/
  number : Nat
  /-- The text of the line. -/
  text : String
  /-- The number of bytes of the line before the place. -/
  offset : Nat
  deriving DecidableEq, Repr, Inhabited

/-- The line that holds byte `offset` of the given lines, the first of which is line `number`.
The text of the line is shown without the characters that end it. -/
def findLine (number offset : Nat) : List (List Char) → Option Line
  | [] => none
  | line :: others =>
    if offset < byteSize line then
      some ⟨number, String.ofList (trimEnd isLineEnd line), offset⟩
    else findLine (number + 1) (offset - byteSize line) others

/-- The end of the last of the given lines.  After a final newline this is an empty line of its
own. -/
def lastLine (lines : List (List Char)) : Line :=
  match lines.getLast? with
  | none => ⟨1, "", 0⟩
  | some line =>
    if line.getLast? = some '\n' then ⟨lines.length + 1, "", 0⟩
    else ⟨lines.length, String.ofList line, byteSize line⟩

/-- The line of the source that holds the byte at `offset`, or the end of the last line when the
source has no such byte. -/
def lineAt (source : String) (offset : Nat) : Line :=
  let lines := lines source.toList
  (findLine 1 offset lines).getD (lastLine lines)

end Source

end Mientras
