import Mathlib.Tactic.Common
import Mientras.Proofs.Lexes

/-!
# Blocks by indentation

How Python reads the nesting of the lines of a text: the spaces and tabs at the front of a line
give its column, a line that ends in a colon owns the lines after it as far as they stand in
deeper columns, and `else:` belongs to the closest line before it in the same column.  `blocksOf`
rebuilds the nesting of a text, from its last line to its first.  It gives nothing where Python
finds the text wrongly indented: where a line owns none although it ends in a colon, or some
although it does not, and where lines side by side stand in different columns.  The width of a tab
is left open; Python takes eight, but refuses a text whose nesting depends on it.
-/

namespace Mientras.Python

/-- A line with the lines that it owns, and those that the `else:` after it owns. -/
inductive Block where
  | mk (text : String) (body otherwise : List Block)

/-- The text of the line that owns the block. -/
def Block.text : Block → String
  | mk text _ _ => text

/-- A line without its margin, which shows only in its column. -/
structure Line where
  column : Nat
  text : String

/-! ### Lines of a text -/

/-- A character of a margin. -/
def isIndent (c : Char) : Bool :=
  c == ' ' || c == '\t'

/-- The column after one character of a margin.  A tab goes on to the next multiple of its
width. -/
def nextColumn (tab column : Nat) (c : Char) : Nat :=
  if c = '\t' then (column / tab + 1) * tab else column + 1

/-- The column after a margin. -/
def columnAfter (tab : Nat) (margin : List Char) : Nat :=
  margin.foldl (nextColumn tab) 0

/-- The line with the given characters. -/
def Line.ofChars (tab : Nat) (chars : List Char) : Line :=
  ⟨columnAfter tab (chars.takeWhile isIndent), String.ofList (chars.dropWhile isIndent)⟩

/-- The lines of a text but for those that are empty. -/
def linesOf (tab : Nat) (text : String) : List Line :=
  ((text.toList.splitOn '\n').map (Line.ofChars tab)).filter (·.text ≠ "")

/-! ### Blocks of lines -/

/-- The text is that of a line that owns others. -/
def isHeader (text : String) : Bool :=
  text.toList.getLast? == some ':'

/-- The block of a line before the blocks that follow it.  When the first of them is an `else:` in
the same column, it belongs to the line. -/
def attach (line : Line) (body : List Block) : List (Nat × Block) → List (Nat × Block)
  | [] => [(line.column, .mk line.text body [])]
  | (column, .mk text inside otherwise) :: after =>
    if column = line.column ∧ text = "else:" ∧ otherwise.isEmpty then
      (line.column, .mk line.text body inside) :: after
    else (line.column, .mk line.text body []) :: (column, .mk text inside otherwise) :: after

/-- The blocks of a line and of the blocks that follow it, each with its column. -/
def place (line : Line) (blocks : List (Nat × Block)) : Option (List (Nat × Block)) :=
  let body := blocks.takeWhile (line.column < ·.1)
  if isHeader line.text = !body.isEmpty ∧ ∀ block ∈ body, ∀ other ∈ body, block.1 = other.1 then
    some (attach line (body.map (·.2)) (blocks.dropWhile (line.column < ·.1)))
  else none

/-- The blocks of lines before blocks that follow them, each with its column. -/
def nest : List Line → List (Nat × Block) → Option (List (Nat × Block))
  | [], blocks => some blocks
  | line :: lines, blocks => (nest lines blocks).bind (place line)

/-- The blocks of a text. -/
def blocksOf (tab : Nat) (text : String) : Option (List Block) :=
  (nest (linesOf tab text) []).bind fun blocks =>
    if ∀ block ∈ blocks, block.1 = 0 then some (blocks.map (·.2)) else none

/-! ### Columns -/

theorem lt_nextColumn {tab : Nat} (htab : 0 < tab) (column : Nat) (c : Char) :
  column < nextColumn tab column c
  := by
  rw [nextColumn]
  split
  · rw [Nat.add_mul, Nat.one_mul, Nat.mul_comm]
    have := Nat.div_add_mod column tab
    have := Nat.mod_lt column htab
    omega
  · omega

/-- A longer margin ends in a deeper column. -/
theorem columnAfter_lt_append {tab : Nat} (htab : 0 < tab) (margin : List Char)
    {more : List Char} (hmore : more ≠ []) :
  columnAfter tab margin < columnAfter tab (margin ++ more)
  := by
  rw [columnAfter, columnAfter, List.foldl_append]
  generalize margin.foldl (nextColumn tab) 0 = column
  induction more generalizing column with
  | nil => contradiction
  | cons c more ih =>
    have hnext := lt_nextColumn htab column c
    cases more with
    | nil => exact hnext
    | cons d more => apply Nat.lt_trans hnext (ih (List.cons_ne_nil d more) _)

/-- A text that does not start with a blank follows its margin. -/
theorem Line.ofChars_append {tab : Nat} {margin text : List Char}
    (hmargin : ∀ c ∈ margin, isIndent c = true) (htext : StartsPlain text) :
  Line.ofChars tab (margin ++ text) = ⟨columnAfter tab margin, String.ofList text⟩
  := by
  have hstop : ∀ c ∈ text.head?, isIndent c = false := by
    obtain ⟨c, hc, hblank⟩ := htext
    intro d hd
    obtain rfl := Option.mem_unique hc hd
    by_contra hindent
    simp only [isIndent, Bool.not_eq_false, Bool.or_eq_true, beq_iff_eq] at hindent
    rcases hindent with rfl | rfl <;> revert hblank <;> decide
  rw [ofChars, Text.takeWhile_append_of_stop hmargin hstop,
    Text.dropWhile_append_of_stop hmargin hstop]

/-! ### Placing lines -/

/-- The blocks may follow those of the column: the first of them is not deeper, and it is not an
`else:` in that column. -/
def Follow (column : Nat) (blocks : List (Nat × Block)) : Prop :=
  ∀ block ∈ blocks.head?, block.1 ≤ column ∧ (block.1 = column → block.2.text ≠ "else:")

theorem follow_of_lt {column : Nat} {blocks : List (Nat × Block)}
    (h : ∀ block ∈ blocks.head?, block.1 < column) :
  Follow column blocks
  := by
  intro block hblock
  have := h block hblock
  exact ⟨by omega, by omega⟩

theorem attach_of_follow {line : Line} {body : List Block} {after : List (Nat × Block)}
    (h : Follow line.column after) :
  attach line body after = (line.column, .mk line.text body []) :: after
  := by
  match after with
  | [] => rfl
  | (column, .mk text inside otherwise) :: after =>
    rw [attach, if_neg]
    rintro ⟨hcolumn, htext, _⟩
    exact (h _ rfl).2 hcolumn htext

theorem attach_else (line : Line) (body inside : List Block) (after : List (Nat × Block)) :
  attach line body ((line.column, .mk "else:" inside []) :: after)
    = (line.column, .mk line.text body inside) :: after
  := by
  simp [attach]

/-- A line takes the blocks after it that are deeper, of which a header has some and any other line
none. -/
theorem place_eq {line : Line} {body : List Block} (hheader : isHeader line.text = !body.isEmpty)
    {column : Nat} (hcolumn : line.column < column) {after : List (Nat × Block)}
    (hafter : ∀ block ∈ after.head?, block.1 ≤ line.column) :
  place line (body.map (column, ·) ++ after) = some (attach line body after)
  := by
  have hinner : ∀ block ∈ body.map (column, ·), decide (line.column < block.1) = true := by
    simpa using fun _ _ => hcolumn
  have hstop : ∀ block ∈ after.head?, decide (line.column < block.1) = false := by
    simpa using hafter
  rw [place, Text.takeWhile_append_of_stop hinner hstop,
    Text.dropWhile_append_of_stop hinner hstop, if_pos]
  · simp [Function.comp_def]
  · constructor
    · simpa using hheader
    · simp

theorem nest_append (lines others : List Line) (blocks : List (Nat × Block)) :
  nest (lines ++ others) blocks = (nest others blocks).bind (nest lines)
  := by
  induction lines with
  | nil =>
    rw [List.nil_append]
    cases nest others blocks <;> rfl
  | cons line lines ih =>
    rw [List.cons_append, nest, ih, Option.bind_assoc]
    rfl

end Mientras.Python
