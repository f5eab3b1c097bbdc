import Mientras.Fault.Report
import Mientras.Proofs.Frame
import Mientras.Proofs.Lexes
import Mientras.Proofs.Refusal
import Mientras.Proofs.Unframed

/-!
# The excerpt of a syntax fault

The report of a fault that reading finds ends in an excerpt of the source: the numbered line of the
token that is refused, and an arrow that ends below the token (`report_points_at_token`).  The line
is shown without its margin and the blanks at its end, and the arrow is as much shorter as the
margin.  Both stay on this side of the token, since a token starts with no blank.
-/

namespace Mientras

open Text Source Fault

/-! ### The shown part of a line -/

theorem isMargin_of_isBlank {c : Char} (h : isBlank c = false) :
  isMargin c = false
  := by
  by_contra hmargin
  simp only [isMargin, Bool.not_eq_false, Bool.or_eq_true, beq_iff_eq] at hmargin
  rcases hmargin with rfl | rfl <;> cases h

theorem isMargin_of_isLineEnd {c : Char} (h : isLineEnd c = true) :
  isMargin c = false
  := by
  simp only [isLineEnd, Bool.or_eq_true, beq_iff_eq] at h
  rcases h with rfl | rfl <;> rfl

/-- A line without its margin and the blanks at its end. -/
def shownPart (line : List Char) : List Char :=
  trimEnd isBlank (line.dropWhile isMargin)

/-- Blanks at the end of a line are not shown. -/
theorem shownPart_append (line : List Char) {ending : List Char}
    (h : ∀ c ∈ ending, isBlank c = true) :
  shownPart (line ++ ending) = shownPart line
  := by
  rw [shownPart, shownPart, List.dropWhile_append]
  split
  · rename_i hempty
    have hrest : ∀ c ∈ ending.dropWhile isMargin, isBlank c = true := by
      intro c hc
      apply h c ((List.dropWhile_sublist isMargin).mem hc)
    have hnil := trimEnd_append hrest []
    rw [List.nil_append] at hnil
    rw [List.isEmpty_iff.mp hempty, hnil]
  · apply trimEnd_append h

theorem shownPart_append_cons {c : Char} (hc : isBlank c = false) (line more : List Char) :
  shownPart (line ++ c :: more) = line.dropWhile isMargin ++ c :: trimEnd isBlank more
  := by
  rw [shownPart, dropWhile_append_cons (isMargin_of_isBlank hc), trimEnd_append_cons hc]

/-! ### The line of a token -/

section

variable {source : String} {before after : List Char} (h : source.toList = before ++ after)

include h

/-- The line that is found at a place is shown as the line around the place. -/
theorem shownPart_lineAt :
  shownPart (lineAt source (byteSize before)).text.toList = shownPart (lineAround before after)
  := by
  obtain ⟨ending, hline, hending⟩ := exists_lineAround_eq h
  rw [hline, shownPart_append]
  intro c hc
  apply isBlank_of_isLineEnd (hending c hc)

/-- The margin of the line of a place stands before the place when no blank follows it. -/
theorem takeWhile_lineAt (hafter : ∀ c ∈ after.head?, isBlank c = false) :
  (lineAt source (byteSize before)).text.toList.takeWhile isMargin
    = (before.rtakeWhile (· ≠ '\n')).takeWhile isMargin
  := by
  obtain ⟨ending, hline, hending⟩ := exists_lineAround_eq h
  -- neither what ends the line nor what follows the place belongs to the margin
  calc (lineAt source (byteSize before)).text.toList.takeWhile isMargin
    _ = ((lineAt source (byteSize before)).text.toList ++ ending).takeWhile isMargin := by
      rw [takeWhile_append_of_head]
      intro c hc
      apply isMargin_of_isLineEnd (hending c (List.mem_of_mem_head? hc))
    _ = (lineAround before after).takeWhile isMargin := by rw [hline]
    _ = (before.rtakeWhile (· ≠ '\n')).takeWhile isMargin := by
      rw [lineAround, takeWhile_append_of_head]
      intro c hc
      rw [List.head?_takeWhile] at hc
      apply isMargin_of_isBlank (hafter c (Option.mem_filter_iff.mp hc).1)

end

/-! ### The rows of an excerpt -/

/-- The row of an excerpt that shows the line with its number. -/
def numberedRow (number : Nat) (line : List Char) : List Char :=
  (toString number).toList ++ [' ', '|', ' '] ++ shownPart line

/-- The part of this row that stands before the place after `before`. -/
def leadingPart (number : Nat) (before : List Char) : List Char :=
  (toString number).toList ++ [' ', '|', ' '] ++ (before.rtakeWhile (· ≠ '\n')).dropWhile isMargin

/-- The row of an excerpt that points at the line, but for the end of the arrow. -/
def arrowRow (indent dashes : Nat) : List Char :=
  List.replicate indent ' ' ++ ['|', ' '] ++ List.replicate dashes '-'

/-- The rows of an excerpt: a bar, the row of the line, and an arrow of some dashes. -/
def excerptRows (indent : Nat) (row : List Char) (dashes : Nat) : List (List Char) :=
  [List.replicate indent ' ' ++ ['|'], row, arrowRow indent dashes ++ ['^']]

theorem toList_excerpt (number column : Nat) (line : List Char) :
  (excerpt number column line).toList
    = (excerptRows ((toString number).length + 1) (numberedRow number line)
        (column - (line.takeWhile isMargin).length - 1)).flatMap (· ++ ['\n'])
  := by
  simp [excerpt, excerptRows, numberedRow, arrowRow, shownPart, repeatChar]

theorem not_mem_numberedRow (number : Nat) {line : List Char} (h : '\n' ∉ line) :
  '\n' ∉ numberedRow number line
  := by
  have hdigits : (toString number).toList = Nat.toDigits 10 number := Nat.toList_repr
  rw [numberedRow, hdigits, List.mem_append, List.mem_append, not_or, not_or]
  and_intros
  · intro hmem
    have hdigit := Nat.isDigit_of_mem_toDigits (by decide) (by decide) hmem
    cases hdigit
  · decide
  · intro hmem
    apply h
    apply (List.dropWhile_sublist isMargin).mem
    apply mem_of_mem_trimEnd hmem

/-- The report of a fault that shows no line ends in an excerpt. -/
theorem suffix_report {fault : Fault} (h : fault.cause.isFramed = false) (source file : String) :
  '\n' :: (excerpt fault.position.line fault.position.column
        (lineAt source fault.position.offset).text.toList).toList
    <:+ (fault.report source file).toList
  := by
  obtain ⟨front, hfront⟩ : ∃ front, fault.report source file = front ++ "\n" ++ excerpt
      fault.position.line fault.position.column
      (lineAt source fault.position.offset).text.toList := by
    unfold report
    simp only [h, Bool.false_eq_true, if_false]
    exact ⟨_, rfl⟩
  use front.toList
  rw [hfront]
  simp

section

variable {source : String} {fault : Fault} {before after : List Char}
  (h : source.toList = before ++ after) (hposition : fault.position = Position.start.past before)
  (hafter : ∀ c ∈ after.head?, isBlank c = false)

include h hposition hafter

/-- The margin of the line is before the column of the fault. -/
theorem length_margin_lt :
  ((lineAt source fault.position.offset).text.toList.takeWhile isMargin).length
    < fault.position.column
  := by
  have htaken := List.takeWhile_prefix isMargin (l := before.rtakeWhile (· ≠ '\n'))
  have hlength := htaken.length_le
  rw [hposition, Position.offset_past_start, takeWhile_lineAt h hafter, Position.column_past_start]
  omega

/-- The arrow has a dash for each character of the line between its margin and the place. -/
theorem endsInRows_report (hframed : fault.cause.isFramed = false) (file : String) :
  EndsInRows (fault.report source file)
    (excerptRows ((toString fault.position.line).length + 1)
      (numberedRow fault.position.line (lineAround before after))
      ((before.rtakeWhile (· ≠ '\n')).dropWhile isMargin).length)
  := by
  -- nothing is lost in the subtractions, since the margin is a part of what stands before the place
  have hdashes : (Position.start.past before).column
        - ((before.rtakeWhile (· ≠ '\n')).takeWhile isMargin).length - 1
      = ((before.rtakeWhile (· ≠ '\n')).dropWhile isMargin).length := by
    have hlength := congrArg List.length
      (List.takeWhile_append_dropWhile (p := isMargin) (l := before.rtakeWhile (· ≠ '\n')))
    rw [List.length_append] at hlength
    rw [Position.column_past_start]
    omega
  have hrow := not_mem_numberedRow fault.position.line (not_mem_lineAround before after)
  apply endsInRows_of_suffix
  · have hsuffix := suffix_report hframed source file
    rw [toList_excerpt, numberedRow, hposition, Position.offset_past_start,
      takeWhile_lineAt h hafter, hdashes, shownPart_lineAt h, ← hposition] at hsuffix
    exact hsuffix
  · simp [excerptRows, arrowRow, hrow]

end

/-- The bar of the row stands after the number and a blank. -/
theorem getElem?_numberedRow (number : Nat) (line : List Char) :
  (numberedRow number line)[(toString number).length + 1]? = some '|'
  := by
  rw [numberedRow, ← String.length_toList, List.append_assoc, List.getElem?_append_right (by omega)]
  simp

/-- A character that is not blank is shown with all that stands between the margin and it. -/
theorem numberedRow_lineAround {c : Char} (hc : isBlank c = false) (number : Nat)
    (before rest : List Char) :
  numberedRow number (lineAround before (c :: rest))
    = leadingPart number before ++ c :: trimEnd isBlank (rest.takeWhile (· ≠ '\n'))
  := by
  have hin : c ≠ '\n' := by
    rintro rfl
    cases hc
  rw [numberedRow, lineAround, List.takeWhile_cons_of_pos (by simpa using hin),
    shownPart_append_cons hc, leadingPart]
  simp only [List.append_assoc]

/-- An arrow with a dash for each character after the margin ends below the place. -/
theorem length_arrowRow (number : Nat) (before : List Char) :
  (arrowRow ((toString number).length + 1)
      ((before.rtakeWhile (· ≠ '\n')).dropWhile isMargin).length).length
    = (leadingPart number before).length
  := by
  rw [arrowRow, leadingPart, ← String.length_toList]
  simp only [List.length_append, List.length_replicate]
  rfl

/-! ### The token that is refused -/

/-- A token of a source stands at its place and starts with no blank, or is the end of the input. -/
theorem exists_place_of_mem {source : String} {tokens : List Token}
    (h : tokenize source = .ok tokens) {token : Token} (htoken : token ∈ tokens) :
  ∃ before after, source.toList = before ++ token.value.toList ++ after
    ∧ token.span.start = Position.start.past before
    ∧ (token.kind ≠ .endOfInput ∧ StartsPlain token.value.toList
      ∨ token.kind = .endOfInput ∧ token.value = "" ∧ after = [])
  := by
  obtain ⟨lexemes, hscans, rfl⟩ := tokenize_eq_ok_iff.mp h
  rcases List.mem_append.mp htoken with hkept | hend
  · have hproper := hscans.proper_of_mem_kept hkept
    have hplaced : token ∈ placed .start lexemes := by
      rw [← hscans.flatMap_text, ← filter_placed] at htoken
      apply List.mem_of_mem_filter htoken
    obtain ⟨before, after, htext, hstart, _⟩ := exists_append_of_mem_placed hplaced
    rw [hscans.flatMap_text] at htext
    exact ⟨before, after, htext, hstart, .inl ⟨hproper.written.kind_ne_end, hproper.startsPlain⟩⟩
  · obtain rfl := List.mem_singleton.mp hend
    use source.toList, []
    exact ⟨by simp [Token.endAt], rfl, .inr ⟨rfl, rfl, rfl⟩⟩

/-- The tokens of a source end with an end of the input. -/
theorem closed_of_tokenize {source : String} {tokens : List Token}
    (h : tokenize source = .ok tokens) :
  closed tokens = tokens
  := by
  obtain ⟨lexemes, _, rfl⟩ := tokenize_eq_ok_iff.mp h
  rw [closed, List.getLast?_concat]
  rfl

/-- The report of the fault points at the token, which stands between `before` and `after` in the
source.  It ends in a bar, the row of the line, and an arrow. -/
structure Fault.PointsAt (source file : String) (token : Token) (before after row arrow : List Char)
    (indent : Nat) (fault : Fault) : Prop where
  text_eq : source.toList = before ++ token.value.toList ++ after
  position : fault.position = Position.start.past before
  report : EndsInRows (fault.report source file)
    [List.replicate indent ' ' ++ ['|'], row, arrow ++ ['^']]
  /-- The row has the number of the line, and the line without its margin and the blanks at its
  end. -/
  row_eq : row = numberedRow fault.position.line (lineAround before (token.value.toList ++ after))
  /-- The bar of the row is below the first bar. -/
  indent_eq : indent = (toString fault.position.line).length + 1 ∧ row[indent]? = some '|'
  arrow_eq : ∃ dashes, arrow = List.replicate indent ' ' ++ ['|', ' '] ++ List.replicate dashes '-'
  /-- The arrow ends below the place that the row has after the characters before the token. -/
  arrow_length : arrow.length = (leadingPart fault.position.line before).length
  /-- There the row has the first character of the token. -/
  at_token : token.kind ≠ .endOfInput → ∃ c ∈ token.value.toList.head?, ∃ more,
    row = leadingPart fault.position.line before ++ c :: more
  /-- The end of the input is after the whole source. -/
  at_end : token.kind = .endOfInput → before = source.toList
  /-- The column is beyond the margin that the arrow is shortened by. -/
  margin_lt : ((lineAt source fault.position.offset).text.toList.takeWhile isMargin).length
    < fault.position.column

/-- A fault that shows no line points at the token where it is found. -/
theorem exists_pointsAt {source : String} {fault : Fault} {token : Token} {before after : List Char}
    (hframed : fault.cause.isFramed = false)
    (htext : source.toList = before ++ token.value.toList ++ after)
    (hposition : fault.position = Position.start.past before)
    (hkind : token.kind ≠ .endOfInput ∧ StartsPlain token.value.toList
      ∨ token.kind = .endOfInput ∧ token.value = "" ∧ after = []) (file : String) :
  ∃ row arrow indent, fault.PointsAt source file token before after row arrow indent
  := by
  have hsource : source.toList = before ++ (token.value.toList ++ after) := by
    rw [htext, List.append_assoc]
  have hplain : ∀ c ∈ (token.value.toList ++ after).head?, isBlank c = false := by
    rcases hkind with ⟨_, hplain⟩ | ⟨_, hvalue, hafter⟩
    · intro c hc
      obtain ⟨d, hd, hblank⟩ := hplain.append after
      obtain rfl := Option.mem_unique hd hc
      exact hblank
    · simp [hvalue, hafter]
  let number := fault.position.line
  let indent := (toString number).length + 1
  let dashes := ((before.rtakeWhile (· ≠ '\n')).dropWhile isMargin).length
  use numberedRow number (lineAround before (token.value.toList ++ after)), arrowRow indent dashes,
    indent
  constructor
  case text_eq => exact htext
  case position => exact hposition
  case report => exact endsInRows_report hsource hposition hplain hframed file
  case row_eq => rfl
  case indent_eq => exact ⟨rfl, getElem?_numberedRow number _⟩
  case arrow_eq => exact ⟨dashes, rfl⟩
  case arrow_length => apply length_arrowRow
  case at_token =>
    intro hend
    rcases hkind with ⟨_, c, hc, hblank⟩ | ⟨hend', _⟩
    · obtain ⟨rest, hvalue⟩ := List.head?_eq_some_iff.mp hc
      rw [hvalue, List.cons_append]
      exact ⟨c, rfl, _, numberedRow_lineAround hblank number before (rest ++ after)⟩
    · exact absurd hend' hend
  case at_end =>
    intro hend
    rcases hkind with ⟨hend', _⟩ | ⟨_, hvalue, hafter⟩
    · exact absurd hend hend'
    · simpa [hvalue, hafter] using htext.symm
  case margin_lt => exact length_margin_lt hsource hposition hplain

/-- The report of a fault that reading finds points at the token that is refused. -/
theorem report_points_at_token {source : String} {tokens : List Token} {fault : Fault}
    (htokens : tokenize source = .ok tokens) (hfault : Program.ofTokens tokens = .error fault)
    (file : String) :
  ∃ index last, FailsAt tokens fault index last ∧ tokens[index]? = some last.current
    ∧ ∃ before after row arrow indent,
      fault.PointsAt source file last.current before after row arrow indent
  := by
  obtain ⟨index, last, hfails⟩ := exists_failsAt hfault
  have htoken := hfails.token
  rw [closed_of_tokenize htokens] at htoken
  obtain ⟨before, after, htext, hstart, hkind⟩ :=
    exists_place_of_mem htokens (List.mem_of_getElem? htoken)
  use index, last, hfails, htoken, before, after
  apply exists_pointsAt (isFramed_of_ofTokens hfault) htext (hfails.position.trans hstart) hkind

/-- A number after a name is refused, in a line that has a margin and ends in blanks. -/
theorem report_points_at_number :
  let source := ";\n\t a 1 \r\n"
  let tokens : List Token :=
    [⟨.semicolon, ";", ⟨⟨0, 1, 1⟩, ⟨1, 1, 2⟩⟩⟩, ⟨.identifier, "a", ⟨⟨4, 2, 3⟩, ⟨5, 2, 4⟩⟩⟩,
      ⟨.integer, "1", ⟨⟨6, 2, 5⟩, ⟨7, 2, 6⟩⟩⟩, ⟨.endOfInput, "", ⟨⟨10, 3, 1⟩, ⟨10, 3, 1⟩⟩⟩]
  let fault : Fault := ⟨.unexpected "`=` or `(`" "Integer `1`", ⟨6, 2, 5⟩⟩
  tokenize source = .ok tokens ∧ Program.ofTokens tokens = .error fault
    ∧ ∃ index last, FailsAt tokens fault index last ∧ tokens[index]? = some last.current
      ∧ ∃ before after row arrow indent,
        fault.PointsAt source "programa" last.current before after row arrow indent
  := by
  intro source tokens fault
  have htokens : tokenize source = .ok tokens := by decide +kernel
  have hfault : Program.ofTokens tokens = .error fault := rfl
  exact ⟨htokens, hfault, report_points_at_token htokens hfault "programa"⟩

end Mientras
