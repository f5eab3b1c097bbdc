import Mathlib.Tactic.Common
import Mientras.Proofs.Lexeme
import Mientras.Proofs.SourceLine

/-!
# Scanning past a newline

A newline ends every lexeme before it, so that the lexemes of a text are found again when a newline
and anything else follows (`Lexeme.Fronts.newline`).  Only blanks at the end of the text are taken
together with the newline, which makes no difference to the tokens that are kept
(`Scanner.finish_pass`).  From there on a scanner does what it would do at the start of the rest
alone, but that all places are moved (`Scanner.finish_after`).  The tokens of two texts with a
newline between them are therefore those of the first and the moved ones of the second
(`tokenize_newline`), and where the second is refused, so are both together.
-/

namespace Mientras

open Text Rule

/-! ### Rules before a newline -/

section

variable {p : Char → Bool} {c : Char} (hc : p c = false)

include hc

theorem takeWhile_append_cons (text more : List Char) :
  (text ++ c :: more).takeWhile p = text.takeWhile p
  := by
  rw [List.takeWhile_append]
  split
  · rename_i hlength
    rw [List.takeWhile_cons_of_neg (by simp [hc]), List.append_nil]
    exact ((List.takeWhile_prefix p).eq_of_length hlength).symm
  · rfl

theorem dropWhile_append_cons (text more : List Char) :
  (text ++ c :: more).dropWhile p = text.dropWhile p ++ c :: more
  := by
  rw [List.dropWhile_append]
  split
  · rename_i hempty
    rw [List.isEmpty_iff.mp hempty, List.dropWhile_cons_of_neg (by simp [hc]), List.nil_append]
  · rfl

theorem runLength?_append_cons (text more : List Char) :
  runLength? p (text ++ c :: more) = runLength? p text
  := by
  rw [runLength?, runLength?, takeWhile_append_cons hc]

end

/-- Nothing is taken after a text when what follows it starts with another character. -/
theorem takeWhile_append_of_head {p : Char → Bool} {more : List Char}
    (h : ∀ c ∈ more.head?, p c = false) (text : List Char) :
  (text ++ more).takeWhile p = text.takeWhile p
  := by
  cases more with
  | nil => rw [List.append_nil]
  | cons c more => apply takeWhile_append_cons (h c rfl)

/-- A comment that ends ends where it did, whatever follows. -/
theorem commentClose?_append {text : List Char} {n : Nat} (h : commentClose? text = some n)
    (more : List Char) :
  commentClose? (text ++ more) = some n
  := by
  induction text using commentClose?.induct generalizing n with
  | case1 => simp [commentClose?] at h
  | case2 => exact h
  | case3 c rest hc ih =>
    rw [commentClose?] at h
    · obtain ⟨m, hm, rfl⟩ := Option.map_eq_some_iff.mp h
      rw [List.cons_append, commentClose?, ih hm]
      · rfl
      · rintro after rfl hafter
        cases rest with
        | nil => simp [commentClose?] at hm
        | cons d rest =>
          obtain ⟨rfl, _⟩ := List.cons.inj hafter
          exact hc rest rfl rfl
    · exact hc

/-- A comment ends exactly when a star and a slash stand somewhere. -/
theorem isSome_commentClose? (text : List Char) :
  (commentClose? text).isSome = hasInfix ['*', '/'] text
  := by
  induction text using commentClose?.induct with
  | case1 => rfl
  | case2 => rfl
  | case3 c rest hc ih =>
    have hprefix : ['*', '/'].isPrefixOf (c :: rest) = false := by
      rw [Bool.eq_false_iff, ne_eq, List.isPrefixOf_iff_prefix]
      rintro ⟨after, hafter⟩
      obtain ⟨rfl, rfl⟩ := List.cons.inj hafter
      exact hc after rfl rfl
    rw [commentClose?, Option.isSome_map, ih, hasInfix, hprefix, Bool.false_or]
    exact hc

theorem wordAt?_newline {words : List (String × Kind)} (h : ∀ word ∈ words, word ∈ Kind.words)
    (text more : List Char) :
  wordAt? words (text ++ '\n' :: more) = wordAt? words text
  := by
  rw [wordAt?_eq_find? h, wordAt?_eq_find? h, takeWhile_append_cons (by decide)]

theorem floatLength?_newline (text more : List Char) :
  floatLength? (text ++ '\n' :: more) = floatLength? text
  := by
  have hdigits (text : List Char) : integerLength? (text ++ '\n' :: more) = integerLength? text :=
    runLength?_append_cons (by decide) text more
  rw [floatLength?, floatLength?, hdigits, dropWhile_append_cons (by decide)]
  cases integerLength? text with
  | none => rfl
  | some whole =>
    cases text.dropWhile Char.isDigit with
    | nil => rfl
    | cons c after =>
      by_cases hc : c = '.'
      · subst hc
        simp only [List.cons_append, hdigits]
      · simp [hc]

section

variable {text : List Char} (hne : text ≠ []) (more : List Char)

include hne

theorem isPrefixOf_newline {pattern : List Char} (h : '\n' ∉ pattern.drop 1) :
  pattern.isPrefixOf (text ++ '\n' :: more) = pattern.isPrefixOf text
  := by
  apply isPrefixOf_append hne
  intro c hc
  obtain rfl := Option.some.inj hc
  exact h

theorem lineCommentLength?_newline :
  lineCommentLength? (text ++ '\n' :: more) = lineCommentLength? text
  := by
  have hprefix : ['/', '/'].isPrefixOf (text ++ '\n' :: more) = ['/', '/'].isPrefixOf text :=
    isPrefixOf_newline hne more (by decide)
  cases hcase : ['/', '/'].isPrefixOf text with
  | false =>
    rw [hcase] at hprefix
    rw [lineCommentLength?_of_not hprefix, lineCommentLength?_of_not hcase]
  | true =>
    obtain ⟨rest, rfl⟩ := List.isPrefixOf_iff_prefix.mp hcase
    change some (((rest ++ '\n' :: more).takeWhile (· != '\n')).length + 2)
      = some ((rest.takeWhile (· != '\n')).length + 2)
    rw [takeWhile_append_cons (by decide)]

/-- A block comment that ends before the newline ends where it did. -/
theorem blockCommentLength?_newline (h : Scanner.isUnterminated text = false) :
  blockCommentLength? (text ++ '\n' :: more) = blockCommentLength? text
  := by
  have hprefix : ['/', '*'].isPrefixOf (text ++ '\n' :: more) = ['/', '*'].isPrefixOf text :=
    isPrefixOf_newline hne more (by decide)
  cases hcase : ['/', '*'].isPrefixOf text with
  | false =>
    rw [hcase] at hprefix
    rw [blockCommentLength?_of_not hprefix, blockCommentLength?_of_not hcase]
  | true =>
    obtain ⟨rest, rfl⟩ := List.isPrefixOf_iff_prefix.mp hcase
    have hclosed : hasInfix ['*', '/'] rest = true := by
      simpa [Scanner.isUnterminated] using h
    rw [← isSome_commentClose?] at hclosed
    obtain ⟨n, hn⟩ := Option.isSome_iff_exists.mp hclosed
    change (commentClose? (rest ++ '\n' :: more)).map (· + 2) = (commentClose? rest).map (· + 2)
    rw [commentClose?_append hn, hn]

theorem textLength?_newline :
  textLength? (text ++ '\n' :: more) = textLength? text
  := by
  obtain ⟨c, text, rfl⟩ := List.exists_cons_of_ne_nil hne
  have hinside : insideText '\n' = false := by decide
  by_cases hc : c = '"'
  · subst hc
    rw [List.cons_append, textLength?, textLength?, takeWhile_append_cons hinside,
      dropWhile_append_cons hinside]
    cases text.dropWhile insideText <;> rfl
  · simp [textLength?, hc]

theorem identifierLength?_newline :
  identifierLength? (text ++ '\n' :: more) = identifierLength? text
  := by
  obtain ⟨c, text, rfl⟩ := List.exists_cons_of_ne_nil hne
  rw [List.cons_append, identifierLength?, identifierLength?, takeWhile_append_cons (by decide)]

end

/-! ### Lexemes before a newline -/

theorem isUnterminated_newline {text : List Char} (hne : text ≠ [])
    (h : Scanner.isUnterminated text = false) (more : List Char) :
  Scanner.isUnterminated (text ++ '\n' :: more) = false
  := by
  rw [Scanner.isUnterminated, isPrefixOf_newline hne more (by decide)]
  cases hcase : ['/', '*'].isPrefixOf text with
  | false => rfl
  | true =>
    obtain ⟨rest, rfl⟩ := List.isPrefixOf_iff_prefix.mp hcase
    have hclosed : hasInfix ['*', '/'] rest = true := by
      simpa [Scanner.isUnterminated] using h
    have hinfix : hasInfix ['*', '/'] (rest ++ '\n' :: more) = true := by
      rw [hasInfix_iff] at hclosed ⊢
      apply hclosed.trans (List.prefix_append rest _).isInfix
    simpa using hinfix

/-- Every rule finds the same before a newline, unless the text is an open comment or blank. -/
theorem match?_newline {rule : Rule} (hrule : rule ∈ all) {text : List Char} (hne : text ≠ [])
    (hterminated : Scanner.isUnterminated text = false)
    (hblank : ∃ c ∈ text, isBlank c = false) (more : List Char) :
  rule.match? (text ++ '\n' :: more) = rule.match? text
  := by
  cases rule with
  | lineComment => rw [match?, match?, lineCommentLength?_newline hne]
  | blockComment => rw [match?, match?, blockCommentLength?_newline hne more hterminated]
  | word words => rw [match?, match?, wordAt?_newline (mem_words_of_mem_all hrule)]
  | float => rw [match?, match?, floatLength?_newline]
  | integer =>
    rw [match?, match?, integerLength?, integerLength?, runLength?_append_cons (by decide)]
  | text => rw [match?, match?, textLength?_newline hne]
  | sign s kind =>
    have hsigns : ∀ sign ∈ Kind.signs, '\n' ∉ sign.1.toList.drop 1 := by decide
    rw [match?, match?, isPrefixOf_newline hne more (hsigns _ (mem_signs_of_mem_all hrule))]
  | blank =>
    obtain ⟨c, hc, hplain⟩ := hblank
    have hrun : (text ++ '\n' :: more).takeWhile isBlank = text.takeWhile isBlank := by
      rw [List.takeWhile_append, if_neg]
      intro hlength
      have heq := (List.takeWhile_prefix isBlank).eq_of_length hlength
      rw [← heq] at hc
      have := List.all_eq_true.mp List.all_takeWhile c hc
      simp [hplain] at this
    rw [match?, match?, blankLength?, blankLength?, runLength?, runLength?, hrun]
  | identifier => rw [match?, match?, identifierLength?_newline hne]

theorem findSome?_congr {α β : Type} {f g : α → Option β} {list : List α}
    (h : ∀ a ∈ list, f a = g a) :
  list.findSome? f = list.findSome? g
  := by
  induction list with
  | nil => rfl
  | cons a list ih =>
    obtain ⟨ha, hlist⟩ := List.forall_mem_cons.mp h
    rw [List.findSome?_cons, List.findSome?_cons, ha, ih hlist]

/-- A lexeme is found before a newline as before the end, unless it is blank and stands at the
end. -/
theorem Lexeme.Fronts.newline {lexeme : Lexeme} {rest : List Char} (h : lexeme.Fronts rest)
    (hblank : lexeme.kind = .blank → rest ≠ []) (more : List Char) :
  lexeme.Fronts (rest ++ '\n' :: more)
  := by
  obtain ⟨hterminated, hmatch⟩ := h
  have hne : lexeme.text ++ rest ≠ [] := by
    simp [Lexeme.Fronts.text_ne_nil ⟨hterminated, hmatch⟩]
  have hplain : ∃ c ∈ lexeme.text ++ rest, isBlank c = false := by
    by_contra hall
    have hall : ∀ c ∈ lexeme.text ++ rest, isBlank c = true := by simpa using hall
    obtain ⟨c, text, htext⟩ := List.exists_cons_of_ne_nil hne
    have hlength : blankLength? (lexeme.text ++ rest) = some (lexeme.text ++ rest).length := by
      have := runLength?_append hne hall (show ∀ c ∈ ([] : List Char).head?, _ by simp)
      rwa [List.append_nil] at this
    rw [firstMatch?_of_blank (by rw [htext]; rfl) (hall c (by simp [htext])), hlength] at hmatch
    obtain ⟨hkind, hsize⟩ := Prod.mk.inj (Option.some.inj hmatch)
    apply hblank hkind.symm
    apply List.length_eq_zero_iff.mp
    rw [List.length_append] at hsize
    omega
  rw [Lexeme.Fronts, ← List.append_assoc]
  use isUnterminated_newline hne hterminated more
  rw [← hmatch, firstMatch?, firstMatch?]
  apply findSome?_congr
  intro rule hrule
  apply match?_newline hrule hne hterminated hplain

theorem Written.of_blank {text : List Char} (h : Written .blank text) :
  ∀ c ∈ text, isBlank c = true
  := by
  have hwords : ∀ word ∈ Kind.words ++ Kind.signs, word.2 ≠ .blank := by decide
  generalize hkind : Kind.blank = kind at h
  cases h with
  | word h => exact absurd hkind.symm (hwords _ (List.mem_append_left _ h))
  | sign h => exact absurd hkind.symm (hwords _ (List.mem_append_right _ h))
  | blank hne h => exact h
  | _ => simp at hkind

theorem Scans.eq_nil {lexemes : List Lexeme} (h : Scans [] lexemes) :
  lexemes = []
  := by
  generalize htext : [] = text at h
  cases h with
  | nil => rfl
  | cons h _ => simp [h.text_ne_nil] at htext

/-! ### Scanning to the end -/

namespace Scanner

/-- The tokens of the source, those that were found with those that are still to be found, closed by
the end of the input. -/
def finish (scanner : Scanner) : Except Fault (List Token) :=
  scanner.run.map fun scanner => scanner.tokens.toList ++ [Token.endAt scanner.position]

theorem steps_of_nil {scanner : Scanner} (h : scanner.rest = []) (count : Nat) :
  scanner.steps count = .ok scanner
  := by
  cases count with
  | zero => rfl
  | succ count => rw [steps, if_pos (by simp [atEnd, h])]

/-- A scanner that may take as many steps as there are characters stops for no other reason than the
end or a fault. -/
theorem steps_eq_steps {scanner : Scanner} {count other : Nat}
    (hcount : scanner.rest.length ≤ count) (hother : scanner.rest.length ≤ other) :
  scanner.steps count = scanner.steps other
  := by
  induction count generalizing scanner other with
  | zero =>
    have hrest := List.length_eq_zero_iff.mp (Nat.le_zero.mp hcount)
    rw [steps_of_nil hrest, steps_of_nil hrest]
  | succ count ih =>
    by_cases hrest : scanner.rest = []
    · rw [steps_of_nil hrest, steps_of_nil hrest]
    · have hpos := List.length_pos_iff.mpr hrest
      obtain ⟨other, rfl⟩ : ∃ n, other = n + 1 := ⟨other - 1, by omega⟩
      rw [steps, steps]
      cases hstep : scanner.step with
      | error fault => rfl
      | ok next =>
        have hlength := length_rest_lt_of_step hstep
        simp only [ih (show next.rest.length ≤ count by omega)
          (show next.rest.length ≤ other by omega)]

theorem finish_of_nil {scanner : Scanner} (h : scanner.rest = []) :
  scanner.finish = .ok (scanner.tokens.toList ++ [Token.endAt scanner.position])
  := by
  rw [finish, run, h]
  rfl

theorem finish_of_ne_nil {scanner : Scanner} (h : scanner.rest ≠ []) :
  scanner.finish = scanner.step >>= finish
  := by
  obtain ⟨count, hcount⟩ : ∃ count, scanner.rest.length = count + 1 :=
    ⟨scanner.rest.length - 1, by have := List.length_pos_iff.mpr h; omega⟩
  rw [finish, run, hcount, steps, if_neg (by simpa [atEnd] using h)]
  cases hstep : scanner.step with
  | error fault => rfl
  | ok next =>
    have hlength := length_rest_lt_of_step hstep
    change (next.steps count).map _ = next.finish
    rw [finish, run, steps_eq_steps (show next.rest.length ≤ count by omega) (Nat.le_refl _)]

theorem finish_of_fronts {scanner : Scanner} {lexeme : Lexeme} {rest : List Char}
    (hrest : scanner.rest = lexeme.text ++ rest) (h : lexeme.Fronts rest) :
  scanner.finish = (scanner.record lexeme.kind lexeme.text rest).finish
  := by
  rw [finish_of_ne_nil (by simp [hrest, h.text_ne_nil]), step_of_fronts hrest h]
  rfl

/-! ### Blanks before a newline -/

section

variable {scanner : Scanner} (hkeep : scanner.keepTrivia = false)

include hkeep

theorem record_of_trivia {kind : Kind} (h : kind.isTrivia = true) (piece rest : List Char) :
  scanner.record kind piece rest = scanner.pass piece rest
  := by
  rw [record, if_neg (by simp [hkeep, h])]

/-- The blanks up to the next other character are passed. -/
theorem finish_pass_of_stop {blanks rest : List Char} (hblanks : ∀ c ∈ blanks, isBlank c = true)
    (hstop : ∀ c ∈ rest.head?, isBlank c = false) (hrest : scanner.rest = blanks ++ rest) :
  scanner.finish = (scanner.pass blanks rest).finish
  := by
  cases blanks with
  | nil =>
    have hpass : scanner.pass [] rest = scanner := by
      rw [pass, ← hrest.trans (List.nil_append rest)]
      rfl
    rw [hpass]
  | cons c blanks =>
    have hfronts : Lexeme.Fronts ⟨.blank, String.ofList (c :: blanks)⟩ rest := by
      apply fronts_blank _ _ hstop
      · simp
      · simpa using hblanks
    have htext : Lexeme.text ⟨.blank, String.ofList (c :: blanks)⟩ = c :: blanks :=
      String.toList_ofList
    rw [finish_of_fronts (by rw [htext, hrest]) hfronts, htext, record_of_trivia hkeep rfl]

/-- Blanks may be passed in parts. -/
theorem finish_pass {blanks rest : List Char} (hblanks : ∀ c ∈ blanks, isBlank c = true)
    (hrest : scanner.rest = blanks ++ rest) :
  scanner.finish = (scanner.pass blanks rest).finish
  := by
  have hmore : ∀ c ∈ rest.takeWhile isBlank, isBlank c = true :=
    List.all_eq_true.mp List.all_takeWhile
  have hstop : ∀ c ∈ (rest.dropWhile isBlank).head?, isBlank c = false := by
    intro c hc
    have hnot := List.head?_dropWhile_not isBlank rest
    rwa [show (rest.dropWhile isBlank).head? = some c from hc] at hnot
  have hsplit : rest = rest.takeWhile isBlank ++ rest.dropWhile isBlank :=
    List.takeWhile_append_dropWhile.symm
  have hall : ∀ c ∈ blanks ++ rest.takeWhile isBlank, isBlank c = true := by
    intro c hc
    rcases List.mem_append.mp hc with hc | hc
    · apply hblanks c hc
    · apply hmore c hc
  calc scanner.finish
    _ = (scanner.pass (blanks ++ rest.takeWhile isBlank) (rest.dropWhile isBlank)).finish := by
      apply finish_pass_of_stop hkeep hall hstop
      rw [hrest, List.append_assoc, ← hsplit]
    _ = ((scanner.pass blanks rest).pass (rest.takeWhile isBlank) (rest.dropWhile isBlank)).finish
        := by
      rw [pass, pass, pass, Position.past_append]
    _ = (scanner.pass blanks rest).finish := by
      symm
      apply finish_pass_of_stop _ hmore hstop hsplit
      exact hkeep

end

/-! ### Lexemes and a newline -/

/-- The scanner after the lexemes, when `rest` follows them. -/
def taking (scanner : Scanner) (lexemes : List Lexeme) (rest : List Char) : Scanner :=
  { scanner with
    rest
    position := scanner.position.past (lexemes.flatMap Lexeme.text)
    tokens := scanner.tokens ++ kept scanner.position lexemes }

theorem taking_record {scanner : Scanner} (hkeep : scanner.keepTrivia = false) (lexeme : Lexeme)
    (lexemes : List Lexeme) (rest rest' : List Char) :
  (scanner.record lexeme.kind lexeme.text rest').taking lexemes rest
    = scanner.taking (lexeme :: lexemes) rest
  := by
  rw [taking, taking, position_record, kept, List.flatMap_cons, Position.past_append]
  cases htrivia : lexeme.kind.isTrivia with
  | true =>
    rw [record_of_trivia hkeep htrivia]
    rfl
  | false =>
    rw [record, if_pos (by simp [htrivia])]
    simp [pass, Lexeme.place, Lexeme.text]

/-- The lexemes of a text are passed before a newline. -/
theorem finish_of_scans {text : List Char} {lexemes : List Lexeme} (h : Scans text lexemes)
    (more : List Char) :
  ∀ {scanner : Scanner}, scanner.keepTrivia = false → scanner.rest = text ++ '\n' :: more →
    scanner.finish = (scanner.taking lexemes ('\n' :: more)).finish
  := by
  induction h with
  | nil =>
    intro scanner _ hrest
    rw [List.nil_append] at hrest
    rw [taking, ← hrest]
    simp [kept]
  | @cons lexeme rest lexemes h hs ih =>
    intro scanner hkeep hrest
    rw [List.append_assoc] at hrest
    by_cases hblank : lexeme.kind = .blank ∧ rest = []
    · obtain ⟨hkind, rfl⟩ := hblank
      obtain rfl := hs.eq_nil
      have hwritten := h.written
      rw [hkind] at hwritten
      have htrivia : lexeme.kind.isTrivia = true := by rw [hkind]; rfl
      have htaking :
          scanner.taking [lexeme] ('\n' :: more) = scanner.pass lexeme.text ('\n' :: more) := by
        simp [taking, pass, kept, htrivia]
      rw [finish_pass hkeep hwritten.of_blank hrest, htaking]
      rfl
    · rw [finish_of_fronts hrest (h.newline (fun hkind hnil => hblank ⟨hkind, hnil⟩) more),
        ih (by rw [keepTrivia_record, hkeep]) (rest_record _ _ _ _), taking_record hkeep]

end Scanner

/-! ### Places after a newline -/

/-- The place, in the text that has `first` and a newline before, of a place in the text. -/
def Position.after (first : String) (position : Position) : Position :=
  ⟨first.utf8ByteSize + 1 + position.offset, first.toList.count '\n' + 1 + position.line,
    position.column⟩

/-- The token at its place after `first` and a newline. -/
def Token.after (first : String) (token : Token) : Token :=
  { token with span := ⟨token.span.start.after first, token.span.stop.after first⟩ }

/-- The fault at its place after `first` and a newline. -/
def Fault.after (first : String) (fault : Fault) : Fault :=
  { fault with position := fault.position.after first }

theorem Position.next_after (first : String) (position : Position) (c : Char) :
  (position.after first).next c = (position.next c).after first
  := by
  unfold Position.next
  split <;> simp [Position.after, Nat.add_assoc]

theorem Position.past_after (first : String) (position : Position) (text : List Char) :
  (position.after first).past text = (position.past text).after first
  := by
  induction text generalizing position with
  | nil => rfl
  | cons c text ih => rw [past_cons, past_cons, next_after, ih]

theorem Position.past_newline (first : String) :
  Position.start.past (first.toList ++ ['\n']) = Position.start.after first
  := by
  have hoffset := Position.offset_past .start (first.toList ++ ['\n'])
  have hline := Position.line_past .start (first.toList ++ ['\n'])
  have hcolumn := Position.column_past_newline .start first.toList
  rw [byteSize_append, byteSize_toList] at hoffset
  rw [List.count_append] at hline
  generalize Position.start.past (first.toList ++ ['\n']) = position at hoffset hline hcolumn
  obtain ⟨offset, line, column⟩ := position
  simp only [Position.after, Position.start, Position.mk.injEq] at hoffset hline hcolumn ⊢
  and_intros
  · rw [hoffset]
    exact Nat.zero_add _
  · rw [hline, Nat.add_comm]
    rfl
  · exact hcolumn

namespace Source

/-- A byte of the lines lies in a line, the text of which does not depend on how lines are
counted. -/
theorem exists_findLine {lines : List (List Char)} {offset : Nat}
    (h : offset < byteSize lines.flatten) :
  ∃ text, ∀ number, ∃ line, findLine number offset lines = some line ∧ line.text = text
  := by
  induction lines generalizing offset with
  | nil => simp at h
  | cons line lines ih =>
    by_cases hline : offset < byteSize line
    · use String.ofList (trimEnd isLineEnd line)
      intro number
      rw [findLine, if_pos hline]
      exact ⟨_, rfl, rfl⟩
    · rw [List.flatten_cons, byteSize_append] at h
      obtain ⟨text, htext⟩ := ih (show offset - byteSize line < byteSize lines.flatten by omega)
      use text
      intro number
      rw [findLine, if_neg hline]
      apply htext

/-- A line keeps its text when lines are put before it. -/
theorem text_lineAt_newline (first : String) {second : String} {offset : Nat}
    (h : offset < second.utf8ByteSize) :
  (lineAt (first ++ "\n" ++ second) (first.utf8ByteSize + 1 + offset)).text
    = (lineAt second offset).text
  := by
  have hsize : byteSize (lines (first.toList ++ ['\n'])).flatten = first.utf8ByteSize + 1 := by
    rw [flatten_lines, byteSize_append, byteSize_toList]
    rfl
  have hlines : lines (first ++ "\n" ++ second).toList
      = lines (first.toList ++ ['\n']) ++ lines second.toList := by
    rw [← lines_newline]
    simp
  rw [← byteSize_toList, ← flatten_lines second.toList] at h
  obtain ⟨text, htext⟩ := exists_findLine h
  obtain ⟨line, hline, hfirst⟩ := htext 1
  obtain ⟨line', hline', hsecond⟩ := htext (1 + (lines (first.toList ++ ['\n'])).length)
  rw [lineAt, lineAt, hlines, ← hsize]
  simp only [findLine_append, hline, hline', Option.getD_some, hfirst, hsecond]

end Source

namespace Scanner

/-- The scanner in the text that has `first` and a newline before, where `front` was found. -/
def after (first : String) (front : List Token) (scanner : Scanner) : Scanner where
  source := first ++ "\n" ++ scanner.source
  rest := scanner.rest
  position := scanner.position.after first
  tokens := (front ++ scanner.tokens.toList.map (·.after first)).toArray
  keepTrivia := scanner.keepTrivia

variable {first : String} {front : List Token} {scanner : Scanner}

theorem record_after (kind : Kind) (piece rest : List Char) :
  (scanner.after first front).record kind piece rest
    = (scanner.record kind piece rest).after first front
  := by
  have hkeep : (scanner.after first front).keepTrivia = scanner.keepTrivia := rfl
  rw [record, record, hkeep]
  by_cases h : (scanner.keepTrivia || !kind.isTrivia) = true
  · rw [if_pos h, if_pos h]
    simp [after, pass, Position.past_after, Token.after]
  · rw [if_neg h, if_neg h]
    simp [after, pass, Position.past_after]

theorem fault_after (h : scanner.position.offset < scanner.source.utf8ByteSize)
    (cause : String → Nat → Cause) :
  (scanner.after first front).fault cause = (scanner.fault cause).after first
  := by
  have htext : (Source.lineAt (scanner.after first front).source
        (scanner.after first front).position.offset).text
      = (Source.lineAt scanner.source scanner.position.offset).text :=
    Source.text_lineAt_newline first h
  simp only [fault, Fault.after, htext]
  rfl

/-- One step is the same, but for places. -/
theorem step_after (h : scanner.position.offset < scanner.source.utf8ByteSize) :
  (scanner.after first front).step
    = match scanner.step with
      | .ok next => .ok (next.after first front)
      | .error fault => .error (fault.after first)
  := by
  have hrest : (scanner.after first front).rest = scanner.rest := rfl
  have hchar : (scanner.after first front).char = scanner.char := rfl
  rw [step, step, hrest, hchar, fault_after h, fault_after h]
  cases isUnterminated scanner.rest with
  | true => rfl
  | false =>
    cases firstMatch? scanner.rest with
    | none => rfl
    | some found => simp only [record_after, Bool.false_eq_true, if_false]

/-- The scanner is as far in its source as its position says. -/
def Placed (scanner : Scanner) : Prop :=
  scanner.position.offset + byteSize scanner.rest = scanner.source.utf8ByteSize

theorem Placed.offset_lt (h : scanner.Placed) (hrest : scanner.rest ≠ []) :
  scanner.position.offset < scanner.source.utf8ByteSize
  := by
  have hsize := mt byteSize_eq_zero.mp hrest
  rw [Placed] at h
  omega

theorem Placed.step (h : scanner.Placed) {next : Scanner} (hstep : scanner.step = .ok next) :
  next.Placed
  := by
  obtain ⟨kind, piece, _, hrest, hnext⟩ := exists_record_of_step hstep
  rw [Placed, hrest, byteSize_append] at h
  rw [Placed, hnext, position_record, rest_record, source_record, Position.offset_past]
  omega

/-- The tokens of a source after those in `front` and a newline, and the fault where there is
one. -/
def moved (first : String) (front : List Token) :
    Except Fault (List Token) → Except Fault (List Token)
  | .ok tokens => .ok (front ++ tokens.map (·.after first))
  | .error fault => .error (fault.after first)

/-- The whole scan is the same, but for places. -/
theorem finish_after (h : scanner.Placed) :
  (scanner.after first front).finish = moved first front scanner.finish
  := by
  generalize hlength : scanner.rest.length = length
  induction length using Nat.strongRecOn generalizing scanner with
  | ind length ih =>
    by_cases hrest : scanner.rest = []
    · have hrest' : (scanner.after first front).rest = [] := hrest
      rw [finish_of_nil hrest, finish_of_nil hrest']
      simp [after, moved, Token.after, Token.endAt]
    · have hrest' : (scanner.after first front).rest ≠ [] := hrest
      rw [finish_of_ne_nil hrest, finish_of_ne_nil hrest', step_after (h.offset_lt hrest)]
      cases hstep : scanner.step with
      | error fault => rfl
      | ok next =>
        have hless := length_rest_lt_of_step hstep
        apply ih next.rest.length (by omega) (h.step hstep) rfl

end Scanner

/-- The tokens of two texts with a newline between them are those of the first and those of the
second at their places after it.  The second text alone decides whether there is a fault. -/
theorem tokenize_newline {first second : String} {lexemes : List Lexeme}
    (h : Scans first.toList lexemes) :
  tokenize (first ++ "\n" ++ second)
    = Scanner.moved first (kept .start lexemes) (tokenize second)
  := by
  have hplaced : (Scanner.start second false).Placed := by
    rw [Scanner.Placed, ← byteSize_toList]
    exact Nat.zero_add _
  have hnewline : ∀ c ∈ ['\n'], isBlank c = true := List.forall_mem_singleton.mpr (by decide)
  let scanner := Scanner.start (first ++ "\n" ++ second) false
  have hrest : scanner.rest = first.toList ++ '\n' :: second.toList := by
    simp [scanner, Scanner.start]
  calc tokenize (first ++ "\n" ++ second)
    _ = scanner.finish := rfl
    _ = (scanner.taking lexemes ('\n' :: second.toList)).finish := by
      apply Scanner.finish_of_scans h _ rfl hrest
    _ = ((scanner.taking lexemes ('\n' :: second.toList)).pass ['\n'] second.toList).finish := by
      apply Scanner.finish_pass rfl hnewline rfl
    _ = ((Scanner.start second false).after first (kept .start lexemes)).finish := by
      have hposition : (Position.start.past (lexemes.flatMap Lexeme.text)).past ['\n']
          = Position.start.after first := by
        rw [h.flatMap_text, ← Position.past_append, Position.past_newline]
      have hstart : scanner.position = .start ∧ scanner.tokens = #[] := ⟨rfl, rfl⟩
      rw [Scanner.pass, Scanner.taking, Scanner.after, hstart.1, hstart.2, hposition]
      simp [Scanner.start, scanner]
    _ = Scanner.moved first (kept .start lexemes) (tokenize second) := by
      apply Scanner.finish_after hplaced

end Mientras
