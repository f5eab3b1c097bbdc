import Mientras.Proofs.Truncation

/-!
# Looking up lines

A line is looked up by a byte offset, which may stand within a character, at a newline, at the end
of the source or beyond it.  The line that is found is the one that counting newlines in the bytes
of the source finds (`Line.IsCounted`), and so it is the line of every token and every fault of the
source (`lineAt_agrees_with_counting`).  Its text is the same wherever in the line one looks, but
for the last line of a source that ends in a carriage return (`text_eq_iff_of_same_line`): at the
end of the source this character is shown, and at the bytes before it is not.
-/

namespace Mientras

open Text

namespace Text

/-! ### The bytes of a text -/

/-- The bytes of a text in UTF-8. -/
def utf8 (text : List Char) : List UInt8 :=
  text.flatMap String.utf8EncodeChar

/-- The bytes of a string. -/
def bytesOf (s : String) : List UInt8 :=
  s.toByteArray.data.toList

theorem bytesOf_eq (s : String) :
  bytesOf s = utf8 s.toList
  := by
  have hbytes : s.toByteArray = (utf8 s.toList).toByteArray := by
    rw [← String.ofList_toList (s := s), String.toByteArray_ofList, String.toList_ofList]
    rfl
  rw [bytesOf, hbytes, List.data_toByteArray, List.toList_toArray]

@[simp]
theorem utf8_append (first second : List Char) :
  utf8 (first ++ second) = utf8 first ++ utf8 second
  := List.flatMap_append

theorem utf8_cons (c : Char) (text : List Char) :
  utf8 (c :: text) = String.utf8EncodeChar c ++ utf8 text
  := List.flatMap_cons

theorem length_utf8 (text : List Char) :
  (utf8 text).length = byteSize text
  := by
  induction text with
  | nil => rfl
  | cons c text ih =>
    rw [utf8_cons, List.length_append, ih, String.length_utf8EncodeChar, byteSize_cons]

/-- A character of the ASCII range is one byte, and the bytes of every other character are beyond
this range. -/
theorem utf8EncodeChar_cases (c : Char) :
  c.toNat < 128 ∧ String.utf8EncodeChar c = [c.toUInt8]
    ∨ 128 ≤ c.toNat ∧ ∀ b ∈ String.utf8EncodeChar c, 128 ≤ b.toNat
  := by
  have hval : c.val.toNat = c.toNat := rfl
  fun_cases String.utf8EncodeChar c with
  | case1 v hv => exact .inl ⟨by omega, rfl⟩
  | _ =>
    refine .inr ⟨by omega, ?_⟩
    simp only [List.forall_mem_cons, List.not_mem_nil, IsEmpty.forall_iff, implies_true,
      and_true, UInt8.toNat_ofNat']
    omega

/-- The byte of an ASCII character stands for this character and is part of no other. -/
theorem eq_toUInt8_iff_of_mem {c d : Char} (hd : d.toNat < 128) {b : UInt8}
    (hb : b ∈ String.utf8EncodeChar c) :
  b = d.toUInt8 ↔ c = d
  := by
  have hbyte : ∀ c : Char, c.toNat < 128 → c.toUInt8.toNat = c.toNat :=
    fun c hc => Nat.mod_eq_of_lt (Nat.lt_trans hc (by decide))
  rcases utf8EncodeChar_cases c with ⟨hc, hbytes⟩ | ⟨hc, hbytes⟩
  · rw [hbytes, List.mem_singleton] at hb
    rw [hb, ← UInt8.toNat_inj, hbyte c hc, hbyte d hd, Char.toNat_inj]
  · have hwide := hbytes b hb
    constructor
    · rintro rfl
      rw [hbyte d hd] at hwide
      omega
    · rintro rfl
      omega

section

variable {α β : Type} {f : α → List β} {p : α → Bool} {q : β → Bool}
  (h : ∀ a, ∀ b ∈ f a, q b = p a) (hne : ∀ a, f a ≠ [])

include h hne

/-- A run of members is the run of the members that they come from, when a member and the one it
comes from have the property alike. -/
theorem takeWhile_flatMap (list : List α) :
  (list.flatMap f).takeWhile q = (list.takeWhile p).flatMap f
  := by
  induction list with
  | nil => rfl
  | cons a list ih =>
    obtain ⟨b, others, hfa⟩ := List.exists_cons_of_ne_nil (hne a)
    have hall := h a
    rw [List.flatMap_cons]
    cases hp : p a with
    | true =>
      rw [List.takeWhile_cons_of_pos hp, List.flatMap_cons, List.takeWhile_append_of_pos, ih]
      intro b hb
      rw [hall b hb, hp]
    | false =>
      have hb : q b = false := by rw [hall b (by simp [hfa]), hp]
      rw [List.takeWhile_cons_of_neg (by simp [hp]), hfa, List.cons_append,
        List.takeWhile_cons_of_neg (by simp [hb]), List.flatMap_nil]

theorem dropWhile_flatMap (list : List α) :
  (list.flatMap f).dropWhile q = (list.dropWhile p).flatMap f
  := by
  have hsplit : (list.flatMap f).takeWhile q ++ (list.flatMap f).dropWhile q
      = (list.takeWhile p).flatMap f ++ (list.dropWhile p).flatMap f := by
    rw [List.takeWhile_append_dropWhile, ← List.flatMap_append, List.takeWhile_append_dropWhile]
  rw [takeWhile_flatMap h hne] at hsplit
  exact List.append_cancel_left hsplit

theorem rdropWhile_flatMap (list : List α) :
  (list.flatMap f).rdropWhile q = (list.rdropWhile p).flatMap f
  := by
  have hdrop := dropWhile_flatMap (f := List.reverse ∘ f) (p := p) (q := q)
    (by simpa using h) (by simpa using hne) list.reverse
  have htwice : List.reverse ∘ List.reverse ∘ f = f := by
    funext a
    apply List.reverse_reverse
  rw [List.rdropWhile, List.reverse_flatMap, hdrop, List.reverse_flatMap, htwice, List.rdropWhile]

end

theorem trimEnd_idempotent (p : Char → Bool) (text : List Char) :
  trimEnd p (trimEnd p text) = trimEnd p text
  := List.rdropWhile_idempotent p text

end Text

namespace Source

/-! ### Places in bytes -/

/-- The offset of the first byte of the line that a place is in: the offset after the last newline
before the place, or zero. -/
def lineStart (bytes : List UInt8) (place : Nat) : Nat :=
  ((bytes.take place).rdropWhile (· ≠ '\n'.toUInt8)).length

/-- The byte ends a line. -/
def isLineEndByte (b : UInt8) : Bool :=
  b == '\n'.toUInt8 || b == '\r'.toUInt8

/-- A byte is a newline when the character that it belongs to is one. -/
theorem newline_byte (c : Char) :
  ∀ b ∈ String.utf8EncodeChar c, decide (b ≠ '\n'.toUInt8) = decide (c ≠ '\n')
  := by
  intro b hb
  rw [decide_eq_decide, Ne, eq_toUInt8_iff_of_mem (by decide) hb]

theorem isLineEnd_byte (c : Char) :
  ∀ b ∈ String.utf8EncodeChar c, isLineEndByte b = isLineEnd c
  := by
  intro b hb
  have hnewline := eq_toUInt8_iff_of_mem (d := '\n') (by decide) hb
  have hreturn := eq_toUInt8_iff_of_mem (d := '\r') (by decide) hb
  rw [Bool.eq_iff_iff]
  simp [isLineEndByte, isLineEnd, hnewline, hreturn]

theorem takeWhile_utf8 (text : List Char) :
  (utf8 text).takeWhile (· ≠ '\n'.toUInt8) = utf8 (text.takeWhile (· ≠ '\n'))
  := takeWhile_flatMap newline_byte (fun _ => String.utf8EncodeChar_ne_nil) text

theorem rdropWhile_utf8 (text : List Char) :
  (utf8 text).rdropWhile (· ≠ '\n'.toUInt8) = utf8 (text.rdropWhile (· ≠ '\n'))
  := rdropWhile_flatMap newline_byte (fun _ => String.utf8EncodeChar_ne_nil) text

theorem trimEnd_utf8 (text : List Char) :
  (utf8 text).rdropWhile isLineEndByte = utf8 (trimEnd isLineEnd text)
  := rdropWhile_flatMap isLineEnd_byte (fun _ => String.utf8EncodeChar_ne_nil) text

/-- Newlines are counted alike in bytes and in characters. -/
theorem count_utf8 (text : List Char) :
  (utf8 text).count '\n'.toUInt8 = text.count '\n'
  := by
  induction text with
  | nil => rfl
  | cons c text ih =>
    rw [utf8_cons, List.count_append, ih, List.count_cons, Nat.add_comm]
    congr 1
    by_cases hc : c = '\n'
    · subst hc
      rfl
    · have hnot : '\n'.toUInt8 ∉ String.utf8EncodeChar c := by
        intro hb
        exact hc ((eq_toUInt8_iff_of_mem (by decide) hb).mp rfl)
      rw [List.count_eq_zero.mpr hnot, if_neg (by simpa using hc)]

/-! ### The place of an offset -/

/-- The offset, or the end of the source where the offset is beyond it, stands `inside` bytes after
`before` and not after the next character. -/
structure IsPlace (source : String) (offset : Nat) (before after : List Char) (inside : Nat) :
    Prop where
  text_eq : source.toList = before ++ after
  offset_eq : min offset source.utf8ByteSize = byteSize before + inside
  inside_lt : ∀ c ∈ after.head?, inside < c.utf8Size

theorem exists_char_of_lt {text : List Char} {offset : Nat} (h : offset < byteSize text) :
  ∃ before c rest inside, text = before ++ c :: rest ∧ offset = byteSize before + inside
    ∧ inside < c.utf8Size
  := by
  induction text generalizing offset with
  | nil => simp at h
  | cons c text ih =>
    rw [byteSize_cons] at h
    by_cases hc : offset < c.utf8Size
    · exact ⟨[], c, text, offset, rfl, by simp, hc⟩
    · obtain ⟨before, d, rest, inside, rfl, hoffset, hinside⟩ :=
        ih (show offset - c.utf8Size < byteSize text by omega)
      refine ⟨c :: before, d, rest, inside, rfl, ?_, hinside⟩
      rw [byteSize_cons]
      omega

theorem exists_isPlace (source : String) (offset : Nat) :
  ∃ before after inside, IsPlace source offset before after inside
  := by
  by_cases h : offset < source.utf8ByteSize
  · have hlt : offset < byteSize source.toList := by rwa [byteSize_toList]
    obtain ⟨before, c, rest, inside, htext, hoffset, hinside⟩ := exists_char_of_lt hlt
    refine ⟨before, c :: rest, inside, htext, by omega, ?_⟩
    simpa using hinside
  · refine ⟨source.toList, [], 0, by simp, ?_, by simp⟩
    rw [byteSize_toList]
    omega

/-- The place between two parts of the source. -/
theorem isPlace_before {source : String} {before after : List Char}
    (h : source.toList = before ++ after) :
  IsPlace source (byteSize before) before after 0
  := by
  have hsize : source.utf8ByteSize = byteSize before + byteSize after := by
    rw [← byteSize_toList, h, byteSize_append]
  exact ⟨h, by omega, fun c _ => c.utf8Size_pos⟩

namespace IsPlace

variable {source : String} {offset : Nat} {before after : List Char} {inside : Nat}
  (h : IsPlace source offset before after inside)

include h

theorem size_eq :
  source.utf8ByteSize = byteSize before + byteSize after
  := by
  rw [← byteSize_toList, h.text_eq, byteSize_append]

theorem after_eq_nil_iff :
  after = [] ↔ source.utf8ByteSize ≤ offset
  := by
  have hsize := h.size_eq
  have hoffset := h.offset_eq
  cases after with
  | nil =>
    rw [byteSize_nil] at hsize
    simp only [true_iff]
    omega
  | cons c rest =>
    have hinside := h.inside_lt c rfl
    rw [byteSize_cons] at hsize
    simp only [reduceCtorEq, false_iff]
    omega

/-- The line that is found at an offset.  It keeps the characters that end it when the offset is
beyond the source. -/
theorem lineAt_eq :
  lineAt source offset
    = ⟨1 + before.count '\n',
        String.ofList (if after = [] then lineAround before after
          else trimEnd isLineEnd (lineAround before after)),
        byteSize (before.rtakeWhile (· ≠ '\n')) + inside⟩
  := by
  have hoffset := h.offset_eq
  have hnil := h.after_eq_nil_iff
  cases after with
  | nil =>
    have htext : source.toList = before := by rw [h.text_eq, List.append_nil]
    have hsize := h.size_eq
    rw [byteSize_nil] at hsize
    have hle := hnil.mp rfl
    obtain rfl : inside = 0 := by omega
    rw [lineAt_of_le hle, htext, if_pos rfl, lineAround, List.takeWhile_nil, List.append_nil,
      Nat.add_zero]
  | cons c rest =>
    have hlt : ¬ source.utf8ByteSize ≤ offset := mt hnil.mpr (by simp)
    obtain rfl : offset = byteSize before + inside := by omega
    rw [lineAt_of_lt h.text_eq (h.inside_lt c rfl), if_neg (by simp)]

/-- In bytes there is no newline between `before` and the place. -/
theorem exists_take_eq :
  ∃ part, (utf8 source.toList).take (byteSize before + inside) = utf8 before ++ part
    ∧ ∀ b ∈ part, b ≠ '\n'.toUInt8
  := by
  use (utf8 after).take inside
  constructor
  · rw [h.text_eq, utf8_append, ← length_utf8, List.take_length_add_append]
  · cases after with
    | nil => simp [utf8]
    | cons c rest =>
      have hinside := h.inside_lt c rfl
      rw [utf8_cons, List.take_append_of_le_length (by simpa using hinside.le)]
      rintro b hb rfl
      have hc := (eq_toUInt8_iff_of_mem (by decide) (List.mem_of_mem_take hb)).mp rfl
      -- a newline is one byte, so that the place is before it
      subst hc
      obtain rfl : inside = 0 := Nat.lt_one_iff.mp hinside
      simp at hb

theorem lineStart_eq :
  lineStart (utf8 source.toList) (byteSize before + inside)
    = byteSize (before.rdropWhile (· ≠ '\n'))
  := by
  obtain ⟨part, htake, hpart⟩ := h.exists_take_eq
  have hdrop : (utf8 before ++ part).rdropWhile (· ≠ '\n'.toUInt8)
      = (utf8 before).rdropWhile (· ≠ '\n'.toUInt8) := by
    rw [List.rdropWhile, List.reverse_append, List.dropWhile_append_of_pos (by simpa using hpart),
      List.rdropWhile]
  rw [lineStart, htake, hdrop, rdropWhile_utf8, length_utf8]

end IsPlace

/-! ### Counting newlines -/

/-- The line is the one that counting newlines finds for a place between the bytes.  Its text goes
up to the next newline or the end, without the characters that end it. -/
structure Line.IsCounted (bytes : List UInt8) (place : Nat) (line : Line) : Prop where
  number_eq : line.number = 1 + (bytes.take place).count '\n'.toUInt8
  offset_eq : line.offset = place - lineStart bytes place
  text_eq : place < bytes.length → bytesOf line.text
    = ((bytes.drop (lineStart bytes place)).takeWhile (· ≠ '\n'.toUInt8)).rdropWhile isLineEndByte

theorem isCounted_lineAt (source : String) (offset : Nat) :
  (lineAt source offset).IsCounted (bytesOf source) (min offset source.utf8ByteSize)
  := by
  obtain ⟨before, after, inside, h⟩ := exists_isPlace source offset
  have hparts : before.rdropWhile (· ≠ '\n') ++ before.rtakeWhile (· ≠ '\n') = before :=
    List.rdropWhile_append_rtakeWhile
  rw [h.lineAt_eq, h.offset_eq, bytesOf_eq]
  constructor
  case number_eq =>
    obtain ⟨part, htake, hpart⟩ := h.exists_take_eq
    have hcount : part.count '\n'.toUInt8 = 0 := by
      rw [List.count_eq_zero]
      intro hb
      exact hpart _ hb rfl
    rw [htake, List.count_append, hcount, count_utf8, Nat.add_zero]
  case offset_eq =>
    have hsize := congrArg byteSize hparts
    rw [byteSize_append] at hsize
    rw [h.lineStart_eq]
    dsimp only
    omega
  case text_eq =>
    intro hlt
    have hafter : after ≠ [] := by
      rintro rfl
      have hsize := h.size_eq
      rw [byteSize_nil, ← byteSize_toList, ← length_utf8] at hsize
      omega
    have hrest : (utf8 source.toList).drop (byteSize (before.rdropWhile (· ≠ '\n')))
        = utf8 (before.rtakeWhile (· ≠ '\n') ++ after) := by
      have htext : source.toList
          = before.rdropWhile (· ≠ '\n') ++ (before.rtakeWhile (· ≠ '\n') ++ after) := by
        rw [← List.append_assoc, hparts, h.text_eq]
      rw [htext, utf8_append, ← length_utf8, List.drop_left]
    have hline : (before.rtakeWhile (· ≠ '\n') ++ after).takeWhile (· ≠ '\n')
        = lineAround before after := by
      rw [lineAround, List.takeWhile_append_of_pos]
      intro c hc
      exact decide_eq_true (ne_of_mem_of_not_mem hc (not_mem_rtakeWhile before))
    rw [if_neg hafter, h.lineStart_eq, hrest, takeWhile_utf8, hline, trimEnd_utf8, bytesOf_eq,
      String.toList_ofList]

/-- The line of the position is the one that is found at its offset, and its column counts the
characters of this line before it. -/
structure Agrees (source : String) (position : Position) : Prop where
  line_eq : (lineAt source position.offset).number = position.line
  column_eq : ∃ text,
    Slices source (lineStart (bytesOf source) position.offset) position.offset text
      ∧ position.column = 1 + text.length

theorem agrees_of_isIn {source : String} {position : Position} (h : position.IsIn source) :
  Agrees source position
  := by
  obtain ⟨before, hslices, hline, hcolumn⟩ := h
  obtain ⟨after, htext, hoffset⟩ := hslices.exists_append
  have hplace := isPlace_before htext
  have hstart := hplace.lineStart_eq
  rw [Nat.add_zero, hoffset] at hstart
  rw [hoffset] at hplace
  constructor
  case line_eq => rw [hplace.lineAt_eq, hline]
  case column_eq =>
    have hparts : before.toList.rdropWhile (· ≠ '\n') ++ before.toList.rtakeWhile (· ≠ '\n')
        = before.toList := List.rdropWhile_append_rtakeWhile
    let text := String.ofList (before.toList.rtakeWhile (· ≠ '\n'))
    have hsplit : source.toList = before.toList.rdropWhile (· ≠ '\n') ++ text.toList ++ after := by
      rw [String.toList_ofList, hparts, htext]
    have hslice := slices_of_toList hsplit
    use text
    rw [String.toList_ofList, ← byteSize_append, hparts, hoffset] at hslice
    rw [bytesOf_eq, hstart, String.length_ofList]
    exact ⟨hslice, hcolumn⟩

/-- At every offset the line is found that counting newlines finds, and the tokens and the faults of
scanning the source are in the lines that are found at their offsets. -/
theorem lineAt_agrees_with_counting (source : String) :
  (∀ offset,
      (lineAt source offset).IsCounted (bytesOf source) (min offset source.utf8ByteSize))
    ∧ ∀ keepTrivia,
      (∀ tokens, scan source keepTrivia = .ok tokens →
        ∀ token ∈ tokens, Agrees source token.span.start ∧ Agrees source token.span.stop)
      ∧ ∀ fault, scan source keepTrivia = .error fault → Agrees source fault.position
  := by
  refine ⟨isCounted_lineAt source, fun keepTrivia => ?_⟩
  have hlocated := located_scan source keepTrivia
  constructor
  · intro tokens hscan token htoken
    rw [hscan] at hlocated
    have hfrom := hlocated token htoken
    exact ⟨agrees_of_isIn hfrom.start, agrees_of_isIn hfrom.stop⟩
  · intro fault hscan
    rw [hscan] at hlocated
    exact agrees_of_isIn hlocated.position

/-- A name in the second line after a text with a character of two bytes, and such a character that
starts no token. -/
theorem lineAt_agrees_at_name_and_letter :
  scan "\"ñ\"\r\nx" false = .ok
      [⟨.text, "\"ñ\"", ⟨⟨0, 1, 1⟩, ⟨4, 1, 4⟩⟩⟩, ⟨.identifier, "x", ⟨⟨6, 2, 1⟩, ⟨7, 2, 2⟩⟩⟩,
        Token.endAt ⟨7, 2, 2⟩]
    ∧ Agrees "\"ñ\"\r\nx" ⟨6, 2, 1⟩
    ∧ scan "\n ñ" true = .error ⟨.unrecognised 'ñ' " ñ" 2, ⟨2, 2, 2⟩⟩
    ∧ Agrees "\n ñ" ⟨2, 2, 2⟩
  := by
  have htokens : scan "\"ñ\"\r\nx" false = .ok
      [⟨.text, "\"ñ\"", ⟨⟨0, 1, 1⟩, ⟨4, 1, 4⟩⟩⟩, ⟨.identifier, "x", ⟨⟨6, 2, 1⟩, ⟨7, 2, 2⟩⟩⟩,
        Token.endAt ⟨7, 2, 2⟩] := by decide +kernel
  have hfault : scan "\n ñ" true = .error ⟨.unrecognised 'ñ' " ñ" 2, ⟨2, 2, 2⟩⟩ := by
    decide +kernel
  have hname := ((lineAt_agrees_with_counting _).2 false).1 _ htokens
    ⟨.identifier, "x", ⟨⟨6, 2, 1⟩, ⟨7, 2, 2⟩⟩⟩ (by decide)
  exact ⟨htokens, hname.1, hfault, ((lineAt_agrees_with_counting _).2 true).2 _ hfault⟩

/-! ### Places in one line -/

/-- Places with as many newlines before them are in the same line. -/
theorem lineAround_eq_of_count {before after before' after' : List Char}
    (h : before ++ after = before' ++ after') (hcount : before.count '\n' = before'.count '\n') :
  lineAround before after = lineAround before' after'
  := by
  have hmiddle : ∀ before middle after : List Char, middle.count '\n' = 0 →
      lineAround before (middle ++ after) = lineAround (before ++ middle) after := by
    intro before middle after hzero
    have hall : ∀ c ∈ middle, decide (c ≠ '\n') = true :=
      fun c hc => decide_eq_true (ne_of_mem_of_not_mem hc (List.count_eq_zero.mp hzero))
    rw [lineAround, lineAround, List.takeWhile_append_of_pos hall, List.rtakeWhile, List.rtakeWhile,
      List.reverse_append, List.takeWhile_append_of_pos (by simpa using hall), List.reverse_append,
      List.reverse_reverse, List.append_assoc]
  rcases List.append_eq_append_iff.mp h with ⟨middle, rfl, rfl⟩ | ⟨middle, rfl, rfl⟩
  · rw [List.count_append] at hcount
    exact hmiddle before middle after' (by omega)
  · rw [List.count_append] at hcount
    exact (hmiddle before' middle after (by omega)).symm

/-- The last line of a text ends in characters that end a line only when the text ends in a carriage
return. -/
theorem trimEnd_rtakeWhile_eq_self_iff (text : List Char) :
  trimEnd isLineEnd (text.rtakeWhile (· ≠ '\n')) = text.rtakeWhile (· ≠ '\n')
    ↔ text.getLast? ≠ some '\r'
  := by
  rcases List.eq_nil_or_concat' text with rfl | ⟨text, c, rfl⟩
  · simp
  · rw [List.getLast?_concat]
    by_cases hc : c = '\n'
    · subst hc
      rw [List.rtakeWhile_concat_neg _ _ _ (by simp)]
      simp
    · rw [List.rtakeWhile_concat_pos _ _ _ (by simpa using hc)]
      show List.rdropWhile isLineEnd _ = _ ↔ _
      rw [List.rdropWhile_eq_self_iff]
      simp [isLineEnd, hc]

/-- Two offsets for which the same line is found get the same text, unless the source ends in a
carriage return and one of the offsets is in the source and the other is not.  Even then the texts
differ only in the characters that end the line. -/
theorem text_eq_iff_of_same_line {source : String} {i j : Nat}
    (h : (lineAt source i).number = (lineAt source j).number) :
  ((lineAt source i).text = (lineAt source j).text
      ↔ (source.utf8ByteSize ≤ i ↔ source.utf8ByteSize ≤ j)
        ∨ source.toList.getLast? ≠ some '\r')
    ∧ trimEnd isLineEnd (lineAt source i).text.toList
      = trimEnd isLineEnd (lineAt source j).text.toList
  := by
  obtain ⟨before, after, inside, hi⟩ := exists_isPlace source i
  obtain ⟨before', after', inside', hj⟩ := exists_isPlace source j
  rw [hi.lineAt_eq, hj.lineAt_eq] at h ⊢
  have hline := lineAround_eq_of_count (hi.text_eq.symm.trans hj.text_eq) (Nat.add_left_cancel h)
  have hlast : after = [] ∨ after' = [] →
      lineAround before after = source.toList.rtakeWhile (· ≠ '\n') := by
    rintro (rfl | rfl)
    · rw [hi.text_eq, lineAround, List.takeWhile_nil, List.append_nil, List.append_nil]
    · rw [hline, hj.text_eq, lineAround, List.takeWhile_nil, List.append_nil, List.append_nil]
  rw [← hi.after_eq_nil_iff, ← hj.after_eq_nil_iff, ← hline,
    ← trimEnd_rtakeWhile_eq_self_iff, String.ofList_inj, String.toList_ofList, String.toList_ofList]
  by_cases hnil : after = [] <;> by_cases hnil' : after' = []
  · simp [hnil, hnil']
  · rw [if_pos hnil, if_neg hnil', hlast (.inl hnil), trimEnd_idempotent]
    simp [hnil, hnil', eq_comm]
  · rw [if_neg hnil, if_pos hnil', hlast (.inr hnil'), trimEnd_idempotent]
    simp [hnil, hnil']
  · simp [hnil, hnil']

/-- The text of a line that ends in a carriage return is the same at its start and at its newline.
-/
theorem text_eq_at_newline :
  (lineAt "x\na\r\n" 2).number = (lineAt "x\na\r\n" 4).number
    ∧ (lineAt "x\na\r\n" 2).text = (lineAt "x\na\r\n" 4).text
  := by
  have hnumber : (lineAt "x\na\r\n" 2).number = (lineAt "x\na\r\n" 4).number := by decide
  exact ⟨hnumber, (text_eq_iff_of_same_line hnumber).1.mpr (.inl (by decide))⟩

/-- The text of a line that ends the source in a carriage return is not the same at its start and
at the end of the source. -/
theorem text_ne_at_carriage_return :
  (lineAt "a\r" 0).number = (lineAt "a\r" 2).number
    ∧ (lineAt "a\r" 0).text ≠ (lineAt "a\r" 2).text
  := ⟨by decide, by decide⟩

end Source

end Mientras
