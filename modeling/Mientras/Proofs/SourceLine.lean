import Mathlib.Data.List.DropRight
import Mathlib.Data.List.TakeWhile
import Mathlib.Tactic.Common
import Mientras.Source.Line

/-!
# The line of a place

A place in a text stands between what comes before it and what comes after it.  The line of the
place is what stands around it, up to the newlines on both sides (`Source.lineAround`), and its
number counts the newlines before the place.  This is the line that `Source.lineAt` finds.  At a
byte of the text the line is shown without the characters that end it (`Source.lineAt_of_lt`), and
beyond the text the last line is shown as it is (`Source.lineAt_of_le`).
-/

namespace Mientras

open Text

namespace Source

/-- The line of the place between `before` and `after`, without the newline that ends it. -/
def lineAround (before after : List Char) : List Char :=
  before.rtakeWhile (· ≠ '\n') ++ after.takeWhile (· ≠ '\n')

/-! ### The lines of a text -/

theorem lines_ne_nil {text : List Char} (h : text ≠ []) :
  lines text ≠ []
  := by
  intro hnil
  have htext := flatten_lines text
  rw [hnil, List.flatten_nil] at htext
  exact h htext.symm

theorem lines_newline (text more : List Char) :
  lines (text ++ '\n' :: more) = lines (text ++ ['\n']) ++ lines more
  := by
  induction text with
  | nil => rfl
  | cons c text ih =>
    obtain ⟨line, others, hlines⟩ :=
      List.exists_cons_of_ne_nil (lines_ne_nil (show text ++ ['\n'] ≠ [] by simp))
    rw [List.cons_append, List.cons_append, lines, lines, ih, hlines]
    split <;> rfl

/-- Every newline ends a line. -/
theorem length_lines_newline (text : List Char) :
  (lines (text ++ ['\n'])).length = text.count '\n' + 1
  := by
  induction text with
  | nil => rfl
  | cons c text ih =>
    obtain ⟨line, others, hlines⟩ :=
      List.exists_cons_of_ne_nil (lines_ne_nil (show text ++ ['\n'] ≠ [] by simp))
    rw [hlines, List.length_cons] at ih
    rw [List.cons_append, lines, hlines, List.count_cons]
    split <;> simp_all

/-- The first line goes up to the first newline. -/
theorem lines_eq_cons {text : List Char} (h : text ≠ []) :
  lines text = (text.takeWhile (· ≠ '\n') ++ (text.dropWhile (· ≠ '\n')).take 1)
    :: lines ((text.dropWhile (· ≠ '\n')).drop 1)
  := by
  induction text with
  | nil => contradiction
  | cons c text ih =>
    rw [lines]
    by_cases hc : c = '\n'
    · subst hc
      rfl
    · rw [if_neg hc, List.takeWhile_cons_of_pos (by simpa using hc),
        List.dropWhile_cons_of_pos (by simpa using hc)]
      cases text with
      | nil => rfl
      | cons d text =>
        rw [ih (by simp)]
        rfl

theorem lines_of_not_mem {text : List Char} (hne : text ≠ []) (h : '\n' ∉ text) :
  lines text = [text]
  := by
  have hall : ∀ c ∈ text, decide (c ≠ '\n') = true :=
    fun c hc => decide_eq_true (ne_of_mem_of_not_mem hc h)
  rw [lines_eq_cons hne, List.takeWhile_eq_self_iff.mpr hall, List.dropWhile_eq_nil_iff.mpr hall]
  simp [lines]

/-- The last line ends as the text does. -/
theorem getLast?_of_getLast?_lines {text line : List Char} (h : line ∈ (lines text).getLast?) :
  line.getLast? = text.getLast?
  := by
  obtain ⟨others, hlines⟩ := List.getLast?_eq_some_iff.mp h
  have hne : line ≠ [] := ne_nil_of_mem_lines (List.mem_of_getLast? h)
  have htext := flatten_lines text
  rw [hlines, List.flatten_append, List.flatten_singleton] at htext
  rw [← htext, List.getLast?_append_of_ne_nil _ hne]

/-! ### The lines before a place -/

theorem not_mem_rtakeWhile (text : List Char) :
  '\n' ∉ text.rtakeWhile (· ≠ '\n')
  := by
  intro h
  have hnot := List.mem_rtakeWhile_imp h
  simp at hnot

/-- What stands before the line of a place is empty or ends in a newline, so that its lines are
lines of the whole text. -/
theorem exists_front (before : List Char) :
  ∃ front, before = front ++ before.rtakeWhile (· ≠ '\n')
    ∧ (lines front).length = before.count '\n'
    ∧ (∀ more, lines (front ++ more) = lines front ++ lines more)
    ∧ ∀ line ∈ (lines front).getLast?, line.getLast? = some '\n'
  := by
  have hcount : (before.rtakeWhile (· ≠ '\n')).count '\n' = 0 :=
    List.count_eq_zero.mpr (not_mem_rtakeWhile before)
  have hsplit : before = before.rdropWhile (· ≠ '\n') ++ before.rtakeWhile (· ≠ '\n') :=
    List.rdropWhile_append_rtakeWhile.symm
  have hbefore := congrArg (List.count '\n') hsplit
  rw [List.count_append, hcount, Nat.add_zero] at hbefore
  use before.rdropWhile (· ≠ '\n'), hsplit
  rw [hbefore]
  rcases List.eq_nil_or_concat' (before.rdropWhile (· ≠ '\n')) with hnil | ⟨init, c, hconcat⟩
  · rw [hnil]
    simp [lines]
  · -- the first character from the right that is not dropped is a newline
    have hne : before.rdropWhile (· ≠ '\n') ≠ [] := by
      rw [hconcat]
      simp
    have hlast := List.rdropWhile_last_not (· ≠ '\n') before hne
    simp only [hconcat, List.getLast_append_singleton, decide_eq_true_eq, not_not] at hlast
    subst hlast
    rw [hconcat, length_lines_newline]
    refine ⟨by simp, ?_, ?_⟩
    · intro more
      rw [← lines_newline, List.append_assoc, List.singleton_append]
    · intro line hline
      rw [getLast?_of_getLast?_lines hline, List.getLast?_concat]

/-- Lines before the line that holds a byte are passed over. -/
theorem findLine_append (before others : List (List Char)) (number offset : Nat) :
  findLine number (byteSize before.flatten + offset) (before ++ others)
    = findLine (number + before.length) offset others
  := by
  induction before generalizing number with
  | nil => simp
  | cons line before ih =>
    rw [List.flatten_cons, byteSize_append, List.cons_append, findLine, if_neg (by omega),
      Nat.add_assoc, Nat.add_sub_cancel_left, ih, List.length_cons]
    congr 1
    omega

/-! ### The line that is found -/

/-- A character that follows a part of a line without newlines is in the first line. -/
theorem findLine_of_lt {number inside : Nat} {front : List Char} {c : Char} (h : '\n' ∉ front)
    (rest : List Char) (hinside : inside < c.utf8Size) :
  findLine number (byteSize front + inside) (lines (front ++ c :: rest))
    = some ⟨number,
        String.ofList (trimEnd isLineEnd (front ++ (c :: rest).takeWhile (· ≠ '\n'))),
        byteSize front + inside⟩
  := by
  have hall : ∀ d ∈ front, decide (d ≠ '\n') = true :=
    fun d hd => decide_eq_true (ne_of_mem_of_not_mem hd h)
  have hending : ∀ d ∈ ((c :: rest).dropWhile (· ≠ '\n')).take 1, isLineEnd d = true := by
    have hnot := List.head?_dropWhile_not (· ≠ '\n') (c :: rest)
    cases hdrop : (c :: rest).dropWhile (· ≠ '\n') with
    | nil => simp
    | cons d after =>
      rw [hdrop] at hnot
      simpa [isLineEnd] using Or.inl hnot
  -- the first line has the character, also when it is the newline that ends the line
  have hsize : c.utf8Size ≤ byteSize ((c :: rest).takeWhile (· ≠ '\n')
      ++ ((c :: rest).dropWhile (· ≠ '\n')).take 1) := by
    by_cases hc : c = '\n' <;> simp [hc]
  rw [lines_eq_cons (by simp), List.takeWhile_append_of_pos hall, List.dropWhile_append_of_pos hall,
    findLine, List.append_assoc, byteSize_append, if_pos (by omega), ← List.append_assoc,
    trimEnd_append hending]

/-- The line of a byte of the text, where `inside` bytes of the character `c` are before it. -/
theorem lineAt_of_lt {source : String} {before : List Char} {c : Char} {rest : List Char}
    (h : source.toList = before ++ c :: rest) {inside : Nat} (hinside : inside < c.utf8Size) :
  lineAt source (byteSize before + inside)
    = ⟨1 + before.count '\n', String.ofList (trimEnd isLineEnd (lineAround before (c :: rest))),
        byteSize (before.rtakeWhile (· ≠ '\n')) + inside⟩
  := by
  obtain ⟨front, hbefore, hlength, hlines, _⟩ := exists_front before
  have hfound : findLine 1 (byteSize before + inside) (lines source.toList)
      = findLine (1 + before.count '\n') (byteSize (before.rtakeWhile (· ≠ '\n')) + inside)
          (lines (before.rtakeWhile (· ≠ '\n') ++ c :: rest)) := by
    have hsize : byteSize before + inside = byteSize (lines front).flatten
        + (byteSize (before.rtakeWhile (· ≠ '\n')) + inside) := by
      rw [flatten_lines, ← Nat.add_assoc, ← byteSize_append, ← hbefore]
    have hsource : source.toList = front ++ (before.rtakeWhile (· ≠ '\n') ++ c :: rest) := by
      rw [← List.append_assoc, ← hbefore, h]
    rw [hsize, hsource, hlines, findLine_append, hlength]
  rw [lineAt, hfound, findLine_of_lt (not_mem_rtakeWhile before) rest hinside]
  rfl

theorem lastLine_lines (text : List Char) :
  lastLine (lines text)
    = ⟨1 + text.count '\n', String.ofList (text.rtakeWhile (· ≠ '\n')),
        byteSize (text.rtakeWhile (· ≠ '\n'))⟩
  := by
  obtain ⟨front, htext, hlength, hlines, hlast⟩ := exists_front text
  have hnot := not_mem_rtakeWhile text
  rw [← hlength]
  generalize text.rtakeWhile (· ≠ '\n') = line at htext hnot
  subst htext
  rw [hlines]
  by_cases hline : line = []
  · -- after a final newline there is one more line, which is empty
    subst hline
    rw [lines, List.append_nil, lastLine]
    cases hget : (lines front).getLast? with
    | none => simp [List.getLast?_eq_none_iff.mp hget]
    | some line => simp [hlast line hget, Nat.add_comm]
  · have hend : line.getLast? ≠ some '\n' := by
      intro hend
      exact hnot (List.mem_of_getLast? hend)
    rw [lines_of_not_mem hline hnot, lastLine, List.getLast?_concat]
    simp [hend, Nat.add_comm]

/-- Beyond the text is the end of the last line. -/
theorem lineAt_of_le {source : String} {offset : Nat} (h : source.utf8ByteSize ≤ offset) :
  lineAt source offset
    = ⟨1 + source.toList.count '\n', String.ofList (source.toList.rtakeWhile (· ≠ '\n')),
        byteSize (source.toList.rtakeWhile (· ≠ '\n'))⟩
  := by
  have hnone : findLine 1 offset (lines source.toList) = none := by
    obtain ⟨more, rfl⟩ := Nat.exists_eq_add_of_le h
    have hpassed := findLine_append (lines source.toList) [] 1 more
    rwa [flatten_lines, byteSize_toList, List.append_nil, findLine] at hpassed
  rw [lineAt, hnone]
  exact lastLine_lines source.toList

/-- At the end of a character the line around the place is found, but for characters that end it. -/
theorem exists_lineAround_eq {source : String} {before after : List Char}
    (h : source.toList = before ++ after) :
  ∃ ending, lineAround before after = (lineAt source (byteSize before)).text.toList ++ ending
    ∧ ∀ c ∈ ending, isLineEnd c = true
  := by
  cases after with
  | nil =>
    rw [List.append_nil] at h
    have hsize : source.utf8ByteSize ≤ byteSize before := by rw [← h, byteSize_toList]
    use []
    rw [lineAt_of_le hsize, String.toList_ofList, h]
    exact ⟨rfl, by simp⟩
  | cons c rest =>
    have hfound := lineAt_of_lt h c.utf8Size_pos
    rw [Nat.add_zero] at hfound
    rw [hfound, String.toList_ofList]
    apply exists_trimEnd_append

theorem not_mem_lineAround (before after : List Char) :
  '\n' ∉ lineAround before after
  := by
  intro h
  rcases List.mem_append.mp h with h | h
  · exact not_mem_rtakeWhile before h
  · have hnot := List.mem_takeWhile_imp h
    simp at hnot

end Source

end Mientras
