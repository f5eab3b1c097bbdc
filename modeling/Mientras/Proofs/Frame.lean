import Mientras.Fault.Basic
import Mientras.Proofs.SourceLine
import Mientras.Proofs.Truncation

/-!
# The frame of a fault

A fault of scanning shows the line of the source where it is found, with a caret below the character
that is not understood.  The line is found by its byte offset and loses the characters that end it,
the column counts characters, and what stands below the line is made from the line.  The three agree
(`fault_shows_line`), since a character that starts no token ends no line.
-/

namespace Mientras

open Text Source

/-! ### Rows of a text -/

/-- The last rows of the text, each ended by a newline. -/
def EndsInRows (text : String) (rows : List (List Char)) : Prop :=
  ∃ front, text.toList.splitOn '\n' = front ++ rows ++ [[]]

theorem splitOn_rows {rows : List (List Char)} (h : ∀ row ∈ rows, '\n' ∉ row) :
  (rows.flatMap (· ++ ['\n'])).splitOn '\n' = rows ++ [[]]
  := by
  induction rows with
  | nil => rfl
  | cons row rows ih =>
    obtain ⟨hrow, hrows⟩ := List.forall_mem_cons.mp h
    rw [List.flatMap_cons, List.append_assoc, List.singleton_append,
      List.splitOn_append_cons_self_of_not_mem hrow, ih hrows, List.cons_append]

theorem endsInRows_of_suffix {text : String} {rows : List (List Char)}
    (h : '\n' :: rows.flatMap (· ++ ['\n']) <:+ text.toList) (hrows : ∀ row ∈ rows, '\n' ∉ row) :
  EndsInRows text rows
  := by
  obtain ⟨front, hfront⟩ := h
  use front.splitOn '\n'
  rw [← hfront, List.splitOn_append_cons_self, splitOn_rows hrows, List.append_assoc]

theorem toList_suffix_append (front text : String) :
  text.toList <:+ (front ++ text).toList
  := by
  rw [String.toList_append]
  apply List.suffix_append

/-! ### The caret -/

/-- The row has a caret below the column of the row that is shown above it.  Before the caret there
is a tab below every tab and a space below every other character. -/
def PointsBelow (shown : List Char) (column : Nat) (row : List Char) : Prop :=
  ∃ pad, row = pad ++ ['^'] ∧ pad.length + 1 = column
    ∧ ∀ i < pad.length, pad[i]? = some (if shown[i]? = some '\t' then '\t' else ' ')

theorem pointsBelow_underline {shown : List Char} {column : Nat} (hpos : 0 < column)
    (h : column ≤ shown.length) :
  PointsBelow shown column ((Cause.underline (String.ofList shown) column).toList ++ ['^'])
  := by
  rw [Cause.underline, String.toList_ofList, String.toList_ofList]
  refine ⟨_, rfl, ?_, ?_⟩
  · rw [List.length_map, List.length_take]
    omega
  · intro i hi
    rw [List.length_map, List.length_take] at hi
    have hline : i < shown.length := by omega
    rw [List.getElem?_map, List.getElem?_take_of_lt (by omega), List.getElem?_eq_getElem hline]
    simp

/-- The message of a fault that shows its line ends in the line and the row with the caret. -/
theorem endsInRows_message {fault : Fault} {line : String} {column : Nat}
    (h : (∃ c, fault.cause = .unrecognised c line column) ∨ fault.cause = .unterminated line column)
    (hline : '\n' ∉ line.toList) :
  EndsInRows fault.message
    ['\t' :: line.toList, '\t' :: ((Cause.underline line column).toList ++ ['^'])]
  := by
  have hpad : '\n' ∉ (Cause.underline line column).toList := by
    intro hmem
    rw [Cause.underline, String.toList_ofList, List.mem_map] at hmem
    obtain ⟨c, _, hc⟩ := hmem
    split at hc <;> simp at hc
  have hcause : (Cause.frame line column).toList <:+ fault.cause.message.toList := by
    rcases h with ⟨c, h⟩ | h
    · rw [h]
      apply toList_suffix_append
    · rw [h]
      apply toList_suffix_append
  have hmessage : fault.cause.message.toList <:+ fault.message.toList :=
    toList_suffix_append _ fault.cause.message
  apply endsInRows_of_suffix
  · apply List.IsSuffix.trans _ (hcause.trans hmessage)
    use ['\n']
    simp [Cause.frame]
  · simp [hline, hpad]

/-! ### The line of a fault -/

/-- The line of a character that does not end the line. -/
theorem trimEnd_lineAround {c : Char} (hc : isLineEnd c = false) (before rest : List Char) :
  trimEnd isLineEnd (lineAround before (c :: rest))
    = before.rtakeWhile (· ≠ '\n') ++ c :: trimEnd isLineEnd (rest.takeWhile (· ≠ '\n'))
  := by
  have hin : c ≠ '\n' := by
    rintro rfl
    simp [isLineEnd] at hc
  rw [lineAround, List.takeWhile_cons_of_pos (by simpa using hin), trimEnd_append_cons hc]

theorem isBlank_of_isLineEnd {c : Char} (h : isLineEnd c = true) :
  isBlank c = true
  := by
  simp only [isLineEnd, Bool.or_eq_true, beq_iff_eq] at h
  rcases h with rfl | rfl <;> rfl

/-- A character that starts no token ends no line. -/
theorem isLineEnd_of_firstMatch? {c : Char} {rest : List Char}
    (h : Rule.firstMatch? (c :: rest) = none) :
  isLineEnd c = false
  := by
  by_contra hend
  have hblank : isBlank c = true := isBlank_of_isLineEnd (by simpa using hend)
  rw [Rule.firstMatch?_of_blank rfl hblank] at h
  simp [Rule.blankLength?, Rule.runLength?, hblank] at h

/-- The fault is found at the place of the source between `before` and `after`, and `shown` is the
line of this place without the characters that end it. -/
structure Fault.ShowsLine (source : String) (before after shown : List Char) (fault : Fault) :
    Prop where
  text_eq : source.toList = before ++ after
  position : fault.position = Position.start.past before
  shown_eq : shown = trimEnd isLineEnd (lineAround before after)
  /-- The cause tells the line and the column of the place, where the line has the character that
  starts no token or the start of the comment that has no end. -/
  cause : (∃ c, fault.cause = .unrecognised c (String.ofList shown) fault.position.column
        ∧ shown[fault.position.column - 1]? = some c)
      ∨ fault.cause = .unterminated (String.ofList shown) fault.position.column
        ∧ shown[fault.position.column - 1]? = some '/' ∧ shown[fault.position.column]? = some '*'
  /-- The message ends in the line and the row with the caret below the place. -/
  message : ∃ row, EndsInRows fault.message ['\t' :: shown, '\t' :: row]
    ∧ PointsBelow shown fault.position.column row

/-- A scan stops at a character that starts no token, and tells the line of this character. -/
theorem exists_cause_of_scan {source : String} {keepTrivia : Bool} {fault : Fault}
    (h : scan source keepTrivia = .error fault) :
  ∃ before c rest, source.toList = before ++ c :: rest ∧ isLineEnd c = false
    ∧ fault.position = Position.start.past before
    ∧ ∃ shown, shown = trimEnd isLineEnd (lineAround before (c :: rest))
      ∧ (fault.cause = .unrecognised c (String.ofList shown) fault.position.column
        ∨ fault.cause = .unterminated (String.ofList shown) fault.position.column
          ∧ c = '/' ∧ rest.head? = some '*')
  := by
  obtain ⟨stopped, hreaches, hne, hstep⟩ := scan_eq_error_iff.mp h
  obtain ⟨before, hpassed⟩ := (Scanner.passed_start source keepTrivia).reaches hreaches
  obtain ⟨c, rest, hrest⟩ := List.exists_cons_of_ne_nil hne
  have htext := hpassed.text_eq
  rw [hrest] at htext
  use before, c, rest, htext
  rw [Scanner.step_eq_error_iff, hrest] at hstep
  rcases hstep with ⟨hopen, rfl⟩ | ⟨_, hnone, rfl⟩
  · -- an open comment starts with a slash, which ends no line
    obtain ⟨hstart, _⟩ := (Bool.and_eq_true _ _).mp hopen
    obtain ⟨more, hmore⟩ := List.isPrefixOf_iff_prefix.mp hstart
    obtain ⟨rfl, rfl⟩ := List.cons.inj hmore
    refine ⟨rfl, hpassed.position_eq, _, rfl, .inr ⟨?_, rfl, rfl⟩⟩
    rw [Scanner.fault, hpassed.lineAt_eq hrest]
  · refine ⟨isLineEnd_of_firstMatch? hnone, hpassed.position_eq, _, rfl, .inl ?_⟩
    rw [Scanner.fault, hpassed.lineAt_eq hrest, Scanner.char, hrest]
    rfl

/-- A fault of scanning shows the line of its place, with a caret below the character that is not
understood. -/
theorem fault_shows_line {source : String} {fault : Fault} (h : tokenize source = .error fault) :
  ∃ before after shown, fault.ShowsLine source before after shown
  := by
  obtain ⟨before, c, rest, htext, hc, hposition, shown, hshown, hcause⟩ := exists_cause_of_scan h
  use before, c :: rest, shown
  have hcolumn : fault.position.column = (before.rtakeWhile (· ≠ '\n')).length + 1 := by
    rw [hposition, Position.column_past_start, Nat.add_comm]
  have hchars := hshown
  rw [trimEnd_lineAround hc] at hchars
  constructor
  case text_eq => exact htext
  case position => exact hposition
  case shown_eq => exact hshown
  case cause =>
    have hat : shown[fault.position.column - 1]? = some c := by
      rw [hcolumn, hchars]
      simp
    rcases hcause with hcause | ⟨hcause, rfl, hhead⟩
    · exact .inl ⟨c, hcause, hat⟩
    · refine .inr ⟨hcause, hat, ?_⟩
      obtain ⟨more, rfl⟩ := List.head?_eq_some_iff.mp hhead
      rw [hcolumn, hchars, List.takeWhile_cons_of_pos (by decide), trimEnd_cons rfl]
      simp
  case message =>
    have hframed : (∃ c, fault.cause = .unrecognised c (String.ofList shown) fault.position.column)
        ∨ fault.cause = .unterminated (String.ofList shown) fault.position.column := by
      rcases hcause with hcause | ⟨hcause, _⟩
      · exact .inl ⟨c, hcause⟩
      · exact .inr hcause
    have hnot : '\n' ∉ (String.ofList shown).toList := by
      rw [String.toList_ofList, hshown]
      intro hmem
      exact not_mem_lineAround before (c :: rest) (mem_of_mem_trimEnd hmem)
    have hrows := endsInRows_message hframed hnot
    rw [String.toList_ofList] at hrows
    refine ⟨_, hrows, ?_⟩
    apply pointsBelow_underline (by omega)
    rw [hcolumn, hchars, List.length_append, List.length_cons]
    omega

/-- A letter that starts no token, in the second line after a tab and a text with such a letter. -/
theorem shows_line_of_letter :
  tokenize "si\r\n\t\"ñ\" ñ\r\n" = .error ⟨.unrecognised 'ñ' "\t\"ñ\" ñ" 6, ⟨10, 2, 6⟩⟩
    ∧ ∃ before after shown, Fault.ShowsLine "si\r\n\t\"ñ\" ñ\r\n" before after shown
        ⟨.unrecognised 'ñ' "\t\"ñ\" ñ" 6, ⟨10, 2, 6⟩⟩
  := ⟨by decide +kernel, fault_shows_line (by decide +kernel)⟩

end Mientras
