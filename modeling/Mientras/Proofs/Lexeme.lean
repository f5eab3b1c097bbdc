import Mathlib.Tactic.Common
import Mientras.Proofs.Rules

/-!
# Lexemes

`Written kind text` says how the lexemes of a kind are written.  Whatever the scanner finds is
written so (`Lexeme.Fronts.written`), and an identifier that it finds in a text that it reads to
the end is not a word of the language (`Scans.proper`).  Conversely, a `Proper` lexeme that is
written so is found wherever a blank, a parenthesis, a comma or nothing follows it
(`Lexeme.Proper.fronts`), so that lexemes can be set in another text.
-/

namespace Mientras

open Text Rule

/-! ### How lexemes are written -/

/-- How the lexemes of each kind are written. -/
inductive Written : Kind → List Char → Prop where
  | lineComment {text : List Char} (h : '\n' ∉ text) :
      Written .lineComment ('/' :: '/' :: text)
  | blockComment {text : List Char} (h : commentClose? text = some text.length) :
      Written .blockComment ('/' :: '*' :: text)
  | word {word : String × Kind} (h : word ∈ Kind.words) :
      Written word.2 word.1.toList
  | float {whole fraction : List Char} (hwhole : whole ≠ []) (hfraction : fraction ≠ [])
      (h : ∀ c ∈ whole ++ fraction, c.isDigit = true) :
      Written .float (whole ++ '.' :: fraction)
  | integer {text : List Char} (hne : text ≠ []) (h : ∀ c ∈ text, c.isDigit = true) :
      Written .integer text
  | text {inside : List Char} (h : ∀ c ∈ inside, insideText c = true) :
      Written .text ('"' :: (inside ++ ['"']))
  | sign {sign : String × Kind} (h : sign ∈ Kind.signs) :
      Written sign.2 sign.1.toList
  | blank {text : List Char} (hne : text ≠ []) (h : ∀ c ∈ text, isBlank c = true) :
      Written .blank text
  | identifier {c : Char} {text : List Char} (hc : c.isAlpha = true)
      (h : ∀ d ∈ text, continuesIdentifier d = true) :
      Written .identifier (c :: text)

theorem commentClose?_take {rest : List Char} {n : Nat} (h : commentClose? rest = some n) :
  commentClose? (rest.take n) = some (rest.take n).length
  := by
  induction rest using commentClose?.induct generalizing n with
  | case1 => simp [commentClose?] at h
  | case2 =>
    obtain rfl := Option.some.inj h
    rfl
  | case3 c rest hc ih =>
    rw [commentClose?] at h
    · obtain ⟨m, hm, rfl⟩ := Option.map_eq_some_iff.mp h
      rw [List.take_succ_cons, commentClose?, ih hm]
      · rfl
      · rintro after rfl hafter
        cases rest with
        | nil => simp at hafter
        | cons d rest =>
          cases m with
          | zero => simp at hafter
          | succ m =>
            obtain ⟨rfl, _⟩ := List.cons.inj hafter
            exact hc rest rfl rfl
    · exact hc

theorem take_length_takeWhile (p : Char → Bool) (rest : List Char) :
  rest.take (rest.takeWhile p).length = rest.takeWhile p
  := (List.prefix_iff_eq_take.mp (List.takeWhile_prefix p)).symm

theorem written_run {p : Char → Bool} {rest : List Char} {n : Nat}
    (h : runLength? p rest = some n) :
  rest.take n = rest.takeWhile p ∧ rest.take n ≠ [] ∧ ∀ c ∈ rest.take n, p c = true
  := by
  obtain ⟨hpos, rfl⟩ := runLength?_eq_some h
  rw [take_length_takeWhile]
  and_intros
  · rfl
  · apply List.ne_nil_of_length_pos hpos
  · intro c hc
    apply List.all_eq_true.mp List.all_takeWhile c hc

theorem written_float {rest : List Char} {n : Nat} (h : floatLength? rest = some n) :
  Written .float (rest.take n)
  := by
  rw [floatLength?] at h
  split at h
  · rename_i whole after hwhole hrest
    obtain ⟨fraction, hfraction, rfl⟩ := Option.map_eq_some_iff.mp h
    obtain ⟨htake, hne, hdigits⟩ := written_run hwhole
    obtain ⟨_, hne', hdigits'⟩ := written_run hfraction
    have hsplit : rest = rest.take whole ++ '.' :: after := by
      rw [htake, ← hrest, List.takeWhile_append_dropWhile]
    have hlength : (rest.take whole).length = whole := by
      rw [htake, ← (runLength?_eq_some hwhole).2]
    have htext : rest.take (whole + 1 + fraction) = rest.take whole ++ '.' :: after.take fraction
        := by
      nth_rewrite 1 [hsplit]
      rw [List.take_append, hlength, Nat.add_assoc, Nat.add_sub_cancel_left, Nat.add_comm 1,
        List.take_succ_cons, List.take_of_length_le (by omega)]
    rw [htext]
    apply Written.float hne hne'
    intro c hc
    rcases List.mem_append.mp hc with hc | hc
    · apply hdigits c hc
    · apply hdigits' c hc
  · simp at h

theorem written_text {rest : List Char} {n : Nat} (h : textLength? rest = some n) :
  Written .text (rest.take n)
  := by
  rw [textLength?.eq_def] at h
  split at h
  · rename_i rest
    split at h
    · rename_i hclose
      obtain rfl := Option.some.inj h
      obtain ⟨after, hafter⟩ := List.head?_eq_some_iff.mp hclose
      have hsplit : rest = rest.takeWhile insideText ++ '"' :: after := by
        rw [← hafter, List.takeWhile_append_dropWhile]
      have htext : ('"' :: rest).take ((rest.takeWhile insideText).length + 2)
          = '"' :: (rest.takeWhile insideText ++ ['"']) := by
        rw [List.take_succ_cons]
        nth_rewrite 2 [hsplit]
        rw [List.take_append, List.take_of_length_le (by omega), Nat.add_sub_cancel_left]
        rfl
      rw [htext]
      apply Written.text
      intro c hc
      apply List.all_eq_true.mp List.all_takeWhile c hc
    · simp at h
  · simp at h

theorem written_lineComment {rest : List Char} {n : Nat} (h : lineCommentLength? rest = some n) :
  Written .lineComment (rest.take n)
  := by
  rw [lineCommentLength?.eq_def] at h
  split at h
  · obtain rfl := Option.some.inj h
    rw [List.take_succ_cons, List.take_succ_cons, take_length_takeWhile]
    apply Written.lineComment
    intro hmem
    have := List.all_eq_true.mp List.all_takeWhile _ hmem
    simp at this
  · simp at h

theorem written_blockComment {rest : List Char} {n : Nat}
    (h : blockCommentLength? rest = some n) :
  Written .blockComment (rest.take n)
  := by
  rw [blockCommentLength?.eq_def] at h
  split at h
  · obtain ⟨m, hm, rfl⟩ := Option.map_eq_some_iff.mp h
    rw [List.take_succ_cons, List.take_succ_cons]
    apply Written.blockComment (commentClose?_take hm)
  · simp at h

theorem written_identifier {rest : List Char} {n : Nat} (h : identifierLength? rest = some n) :
  Written .identifier (rest.take n)
  := by
  cases rest with
  | nil => simp [identifierLength?] at h
  | cons c rest =>
    rw [identifierLength?] at h
    split at h
    · rename_i halpha
      obtain rfl := Option.some.inj h
      rw [List.take_succ_cons, take_length_takeWhile]
      apply Written.identifier halpha
      intro d hd
      apply List.all_eq_true.mp List.all_takeWhile d hd
    · simp at h

theorem map_kind_eq_some {kind kind' : Kind} {length : Option Nat} {n : Nat}
    (h : length.map (kind, ·) = some (kind', n)) :
  kind = kind' ∧ length = some n
  := by
  obtain ⟨m, hm, heq⟩ := Option.map_eq_some_iff.mp h
  obtain ⟨rfl, rfl⟩ := Prod.mk.inj heq
  exact ⟨rfl, hm⟩

/-- What a rule finds is written as lexemes of its kind are. -/
theorem written_of_match? {rule : Rule} (h : rule ∈ all) {rest : List Char} {kind : Kind} {n : Nat}
    (hmatch : rule.match? rest = some (kind, n)) :
  Written kind (rest.take n)
  := by
  cases rule with
  | lineComment =>
    obtain ⟨rfl, hlength⟩ := map_kind_eq_some hmatch
    apply written_lineComment hlength
  | blockComment =>
    obtain ⟨rfl, hlength⟩ := map_kind_eq_some hmatch
    apply written_blockComment hlength
  | word words =>
    obtain ⟨word, hword, heq⟩ := Option.map_eq_some_iff.mp hmatch
    obtain ⟨rfl, rfl⟩ := Prod.mk.inj heq
    have hfound := List.find?_some hword
    simp only [Bool.and_eq_true, List.isPrefixOf_iff_prefix] at hfound
    rw [← List.prefix_iff_eq_take.mp hfound.1]
    apply Written.word
    apply mem_words_of_mem_all h word (List.mem_of_find?_eq_some hword)
  | float =>
    obtain ⟨rfl, hlength⟩ := map_kind_eq_some hmatch
    apply written_float hlength
  | integer =>
    obtain ⟨rfl, hlength⟩ := map_kind_eq_some hmatch
    obtain ⟨_, hne, hdigits⟩ := written_run hlength
    apply Written.integer hne hdigits
  | text =>
    obtain ⟨rfl, hlength⟩ := map_kind_eq_some hmatch
    apply written_text hlength
  | sign s k =>
    rw [match?] at hmatch
    split at hmatch
    · rename_i hfront
      obtain ⟨rfl, rfl⟩ := Prod.mk.inj (Option.some.inj hmatch)
      rw [← List.prefix_iff_eq_take.mp (List.isPrefixOf_iff_prefix.mp hfront)]
      apply Written.sign (mem_signs_of_mem_all h)
    · simp at hmatch
  | blank =>
    obtain ⟨rfl, hlength⟩ := map_kind_eq_some hmatch
    obtain ⟨_, hne, hblanks⟩ := written_run hlength
    apply Written.blank hne hblanks
  | identifier =>
    obtain ⟨rfl, hlength⟩ := map_kind_eq_some hmatch
    apply written_identifier hlength

/-- What the scanner finds is written as lexemes of its kind are. -/
theorem Lexeme.Fronts.written {lexeme : Lexeme} {rest : List Char} (h : lexeme.Fronts rest) :
  Written lexeme.kind lexeme.text
  := by
  obtain ⟨_, rule, _, happly, hmatch, _⟩ := List.findSome?_eq_some_iff.mp h.2
  have hwritten := written_of_match? (by simp [happly]) hmatch
  rwa [List.take_left] at hwritten

/-- No lexeme is the end of the input. -/
theorem Written.kind_ne_end {kind : Kind} {text : List Char} (h : Written kind text) :
  kind ≠ .endOfInput
  := by
  have hwords : ∀ word ∈ Kind.words ++ Kind.signs, word.2 ≠ .endOfInput := by decide
  cases h with
  | word h => apply hwords _ (List.mem_append_left _ h)
  | sign h => apply hwords _ (List.mem_append_right _ h)
  | _ => simp

/-! ### Proper lexemes -/

/-- The lexeme is neither a blank nor a comment, it is written as lexemes of its kind are, and no
identifier is a word of the language. -/
structure Lexeme.Proper (lexeme : Lexeme) : Prop where
  written : Written lexeme.kind lexeme.text
  not_trivia : lexeme.kind.isTrivia = false
  not_word : lexeme.kind = .identifier → ∀ word ∈ Kind.words, word.1.toList ≠ lexeme.text

/-- A character that ends every lexeme before it. -/
def delimits (c : Char) : Bool :=
  isBlank c || c == '(' || c == ')' || c == ','

/-- A delimiter or nothing stands at the front of the text. -/
def Delimited (rest : List Char) : Prop :=
  ∀ c ∈ rest.head?, delimits c = true

theorem isWord_of_delimits {c : Char} (h : delimits c = true) :
  isWord c = false
  := by
  simp only [delimits, Bool.or_eq_true, beq_iff_eq] at h
  rcases h with ((h | rfl) | rfl) | rfl
  · apply isWord_of_isBlank h
  · decide
  · decide
  · decide

theorem isDigit_of_delimits {c : Char} (h : delimits c = true) :
  c.isDigit = false
  := by
  by_contra hdigit
  have hword := isWord_of_delimits h
  rw [isWord_of_isAlphanum (by simp [Char.isAlphanum, hdigit])] at hword
  simp at hword

theorem continuesIdentifier_of_delimits {c : Char} (h : delimits c = true) :
  continuesIdentifier c = false
  := by
  by_contra hcontinues
  have hword := isWord_of_delimits h
  simp only [continuesIdentifier, Bool.not_eq_false, Bool.or_eq_true, beq_iff_eq] at hcontinues
  rcases hcontinues with halphanum | rfl
  · simp [isWord_of_isAlphanum halphanum] at hword
  · revert hword
    decide

/-- No delimiter is a point, an equals sign, a slash or a star. -/
theorem ne_of_delimits {c : Char} (h : delimits c = true) :
  c ≠ '.' ∧ c ≠ '=' ∧ c ≠ '/' ∧ c ≠ '*'
  := by
  and_intros <;>
  · rintro rfl
    revert h
    decide

theorem isWord_of_continuesIdentifier {c : Char} (h : continuesIdentifier c = true) :
  isWord c = true
  := by
  simp only [continuesIdentifier, Bool.or_eq_true, beq_iff_eq] at h
  rcases h with h | rfl
  · apply isWord_of_isAlphanum h
  · decide

theorem Written.of_identifier {text : List Char} (h : Written .identifier text) :
  ∃ c rest, text = c :: rest ∧ c.isAlpha = true ∧ ∀ d ∈ rest, continuesIdentifier d = true
  := by
  have hwords : ∀ word ∈ Kind.words ++ Kind.signs, word.2 ≠ .identifier := by decide
  generalize hkind : Kind.identifier = kind at h
  cases h with
  | word h => exact absurd hkind.symm (hwords _ (List.mem_append_left _ h))
  | sign h => exact absurd hkind.symm (hwords _ (List.mem_append_right _ h))
  | identifier hc h => exact ⟨_, _, rfl, hc, h⟩
  | _ => simp at hkind

theorem isWord_of_written_identifier {text : List Char} (h : Written .identifier text) :
  ∀ c ∈ text, isWord c = true
  := by
  obtain ⟨c, rest, rfl, hc, hrest⟩ := h.of_identifier
  intro d hd
  rcases List.mem_cons.mp hd with rfl | hd
  · apply isWord_of_isAlpha hc
  · apply isWord_of_continuesIdentifier (hrest d hd)

/-! ### Lexemes in another text -/

theorem isUnterminated_of_head {c : Char} {rest : List Char} (hc : c ∈ rest.head?)
    (hne : c ≠ '/') :
  Scanner.isUnterminated rest = false
  := by
  obtain ⟨rest, rfl⟩ := List.head?_eq_some_iff.mp hc
  simp [Scanner.isUnterminated, Ne.symm hne]

theorem runLength?_append {p : Char → Bool} {text rest : List Char} (hne : text ≠ [])
    (htext : ∀ c ∈ text, p c = true) (hrest : ∀ c ∈ rest.head?, p c = false) :
  runLength? p (text ++ rest) = some text.length
  := by
  rw [runLength?, takeWhile_append_of_stop htext hrest, if_neg (by simpa using hne)]

/-- A word of the language is found by its text, and so is no other. -/
theorem find?_of_mem_words :
  ∀ word ∈ Kind.words, Kind.words.find? (·.1.toList == word.1.toList) = some word
  := by
  decide

theorem fronts_word {word : String × Kind} (h : word ∈ Kind.words) {rest : List Char}
    (hrest : Delimited rest) :
  Lexeme.Fronts ⟨word.2, word.1⟩ rest
  := by
  obtain ⟨⟨c, hc, halpha⟩, _⟩ := isAlpha_of_mem_words word h
  have hc : c ∈ (word.1.toList ++ rest).head? := List.mem_head?_append_of_mem_head? hc
  constructor
  · apply isUnterminated_of_head hc
    rintro rfl
    simp at halpha
  · have hrun : (word.1.toList ++ rest).takeWhile isWord = word.1.toList := by
      apply takeWhile_append_of_stop (isWord_of_mem_words h)
      intro d hd
      apply isWord_of_delimits (hrest d hd)
    rw [Lexeme.text, firstMatch?_of_letter hc halpha, hrun, find?_of_mem_words word h]
    rfl

theorem fronts_identifier {value : String} (hwritten : Written .identifier value.toList)
    (hword : ∀ word ∈ Kind.words, word.1.toList ≠ value.toList) {rest : List Char}
    (hrest : Delimited rest) :
  Lexeme.Fronts ⟨.identifier, value⟩ rest
  := by
  have hrun : (value.toList ++ rest).takeWhile isWord = value.toList := by
    apply takeWhile_append_of_stop (isWord_of_written_identifier hwritten)
    intro d hd
    apply isWord_of_delimits (hrest d hd)
  have hnone : Kind.words.find? (·.1.toList == value.toList) = none := by
    rw [List.find?_eq_none]
    intro word hmem
    simpa using hword word hmem
  obtain ⟨c, text, htext, halpha, hcontinues⟩ := hwritten.of_identifier
  have hc : c ∈ (value.toList ++ rest).head? := by
    rw [htext]
    rfl
  have hlength : identifierLength? (value.toList ++ rest) = some value.toList.length := by
    rw [htext, List.cons_append, identifierLength?, if_pos halpha,
      takeWhile_append_of_stop hcontinues]
    · rfl
    · intro d hd
      apply continuesIdentifier_of_delimits (hrest d hd)
  constructor
  · apply isUnterminated_of_head hc
    rintro rfl
    simp at halpha
  · rw [Lexeme.text, firstMatch?_of_letter hc halpha, hrun, hnone, hlength]
    rfl

theorem floatLength?_append {whole fraction rest : List Char} (hwhole : whole ≠ [])
    (hfraction : fraction ≠ []) (h : ∀ c ∈ whole ++ fraction, c.isDigit = true)
    (hrest : Delimited rest) :
  floatLength? (whole ++ '.' :: fraction ++ rest) = some (whole ++ '.' :: fraction).length
  := by
  have hpoint : ∀ c ∈ ('.' :: (fraction ++ rest)).head?, c.isDigit = false := by simp
  have hdigits : ∀ c ∈ whole, c.isDigit = true :=
    fun c hc => h c (List.mem_append_left _ hc)
  have hdigits' : ∀ c ∈ fraction, c.isDigit = true :=
    fun c hc => h c (List.mem_append_right _ hc)
  rw [List.append_assoc, List.cons_append, floatLength?, integerLength?,
    runLength?_append hwhole hdigits hpoint, dropWhile_append_of_stop hdigits hpoint]
  simp only [integerLength?]
  rw [runLength?_append hfraction hdigits' fun c hc => isDigit_of_delimits (hrest c hc)]
  simp only [Option.map_some, List.length_append, List.length_cons, Option.some.injEq]
  omega

theorem floatLength?_of_integer {text rest : List Char} (h : ∀ c ∈ text, c.isDigit = true)
    (hrest : Delimited rest) :
  floatLength? (text ++ rest) = none
  := by
  rw [floatLength?, dropWhile_append_of_stop h fun c hc => isDigit_of_delimits (hrest c hc)]
  split
  · exact absurd rfl (ne_of_delimits (hrest '.' rfl)).1
  · rfl

theorem textLength?_append {inside : List Char} (h : ∀ c ∈ inside, insideText c = true)
    (rest : List Char) :
  textLength? ('"' :: (inside ++ ['"']) ++ rest) = some ('"' :: (inside ++ ['"'])).length
  := by
  have hquote : ∀ c ∈ ('"' :: rest).head?, insideText c = false := by
    rintro c hc
    obtain rfl := Option.some.inj hc
    decide
  rw [List.cons_append, List.append_assoc, List.singleton_append, textLength?,
    dropWhile_append_of_stop h hquote, takeWhile_append_of_stop h hquote]
  simp

theorem fronts_sign {sign : String × Kind} (h : sign ∈ Kind.signs) {rest : List Char}
    (hrest : Delimited rest) :
  Lexeme.Fronts ⟨sign.2, sign.1⟩ rest
  := by
  obtain ⟨_, hblock, _⟩ := first_of_mem_signs sign h
  obtain ⟨c, hc, _⟩ := classOf_of_mem_signs sign h
  constructor
  · rw [Scanner.isUnterminated, Lexeme.text,
      isPrefixOf_append (List.ne_nil_of_mem (List.mem_of_mem_head? hc)), hblock, Bool.false_and]
    intro d hd hmem
    simp [(ne_of_delimits (hrest d hd)).2.2.2] at hmem
  · apply firstMatch?_of_sign h
    intro d hd
    apply (ne_of_delimits (hrest d hd)).2

/-- A proper lexeme is found wherever a delimiter or nothing follows it. -/
theorem Lexeme.Proper.fronts {lexeme : Lexeme} (h : lexeme.Proper) {rest : List Char}
    (hrest : Delimited rest) :
  lexeme.Fronts rest
  := by
  obtain ⟨kind, value⟩ := lexeme
  obtain ⟨hwritten, htrivia, hword⟩ := h
  simp only [Lexeme.text] at hwritten htrivia hword
  generalize htext : value.toList = text at hwritten
  cases hwritten with
  | lineComment => simp [Kind.isTrivia] at htrivia
  | blockComment => simp [Kind.isTrivia] at htrivia
  | blank => simp [Kind.isTrivia] at htrivia
  | word h =>
    obtain rfl := String.toList_injective htext
    apply fronts_word h hrest
  | identifier hc h =>
    apply fronts_identifier _ (hword rfl) hrest
    rw [htext]
    apply Written.identifier hc h
  | @float whole fraction hwhole hfraction h =>
    obtain ⟨c, whole, rfl⟩ := List.exists_cons_of_ne_nil hwhole
    have hc : c.isDigit = true := h c List.mem_cons_self
    rw [Lexeme.Fronts, Lexeme.text, htext]
    constructor
    · apply isUnterminated_of_head rfl
      rintro rfl
      simp at hc
    · rw [firstMatch?_of_digit rfl hc, floatLength?_append hwhole hfraction h hrest]
      rfl
  | integer hne h =>
    obtain ⟨c, text, rfl⟩ := List.exists_cons_of_ne_nil hne
    have hc : c.isDigit = true := h c List.mem_cons_self
    rw [Lexeme.Fronts, Lexeme.text, htext]
    constructor
    · apply isUnterminated_of_head rfl
      rintro rfl
      simp at hc
    · rw [firstMatch?_of_digit rfl hc, floatLength?_of_integer h hrest, integerLength?,
        runLength?_append hne h fun c hc => isDigit_of_delimits (hrest c hc)]
      rfl
  | text h =>
    rw [Lexeme.Fronts, Lexeme.text, htext]
    constructor
    · apply isUnterminated_of_head rfl
      decide
    · rw [firstMatch?_of_quote rfl, textLength?_append h]
      rfl
  | sign h =>
    obtain rfl := String.toList_injective htext
    apply fronts_sign h hrest

/-- Blanks are found together where no blank follows them. -/
theorem fronts_blank {value : String} (hne : value.toList ≠ [])
    (h : ∀ c ∈ value.toList, isBlank c = true) {rest : List Char}
    (hrest : ∀ c ∈ rest.head?, isBlank c = false) :
  Lexeme.Fronts ⟨.blank, value⟩ rest
  := by
  obtain ⟨c, text, htext⟩ := List.exists_cons_of_ne_nil hne
  have hc : c ∈ (value.toList ++ rest).head? := by
    rw [htext]
    rfl
  have hblank : isBlank c = true := h c (by rw [htext]; apply List.mem_cons_self)
  constructor
  · apply isUnterminated_of_head hc
    rintro rfl
    revert hblank
    decide
  · rw [Lexeme.text, firstMatch?_of_blank hc hblank, blankLength?, runLength?_append hne h hrest]
    rfl

/-- An opening parenthesis is found whatever follows it. -/
theorem fronts_openParen (rest : List Char) :
  Lexeme.Fronts ⟨.openParen, "("⟩ rest
  := by
  constructor
  · apply isUnterminated_of_head rfl
    decide
  · have hclass : classOf '(' = .sign := by decide
    have hline : lineCommentLength? ('(' :: rest) = none := rfl
    have hblock : blockCommentLength? ('(' :: rest) = none := rfl
    have hfind : Kind.signs.find? (·.1.toList.isPrefixOf ('(' :: rest))
        = some ("(", .openParen) := rfl
    have htext : Lexeme.text ⟨.openParen, "("⟩ ++ rest = '(' :: rest := rfl
    rw [htext, firstMatch?_of_signClass rfl hclass, hline, hblock, hfind]
    rfl

/-! ### The lexemes of a text -/

/-- Where an identifier is found, the run of word characters is not a word of the language, and
the identifier does not go on. -/
theorem stop_of_fronts_identifier {value : String} {rest : List Char}
    (h : Lexeme.Fronts ⟨.identifier, value⟩ rest) :
  (∀ word ∈ Kind.words, word.1.toList ≠ (value.toList ++ rest).takeWhile isWord)
    ∧ ∀ d ∈ rest.head?, continuesIdentifier d = false
  := by
  obtain ⟨c, text, htext, halpha, hcontinues⟩ := h.written.of_identifier
  have htext : value.toList = c :: text := htext
  have hc : c ∈ (value.toList ++ rest).head? := by
    rw [htext]
    rfl
  have hfound := h.2
  rw [Lexeme.text, firstMatch?_of_letter hc halpha] at hfound
  cases hfind : Kind.words.find? (·.1.toList == (value.toList ++ rest).takeWhile isWord) with
  | some word =>
    have hkind : ∀ word ∈ Kind.words, word.2 ≠ .identifier := by decide
    rw [hfind] at hfound
    have hfound := congrArg (Option.map Prod.fst) hfound
    exact absurd (Option.some.inj hfound) (hkind word (List.mem_of_find?_eq_some hfind))
  | none =>
    constructor
    · intro word hword
      simpa using List.find?_eq_none.mp hfind word hword
    · intro d hd
      obtain ⟨after, rfl⟩ := List.head?_eq_some_iff.mp hd
      rw [hfind, htext, List.cons_append, identifierLength?, if_pos halpha,
        List.takeWhile_append_of_pos hcontinues] at hfound
      by_contra hgoes
      rw [List.takeWhile_cons_of_pos (by simpa using hgoes)] at hfound
      simp at hfound

/-- An identifier that is found in a text that is read to its end is not a word of the language.
A word of the language is found as an identifier only before a word character beyond the ASCII
range, and no lexeme starts with such a character. -/
theorem not_word_of_fronts {value : String} {rest : List Char} {lexemes : List Lexeme}
    (h : Lexeme.Fronts ⟨.identifier, value⟩ rest) (hscans : Scans rest lexemes) :
  ∀ word ∈ Kind.words, word.1.toList ≠ value.toList
  := by
  obtain ⟨hword, hstop⟩ := stop_of_fronts_identifier h
  have hrun : (value.toList ++ rest).takeWhile isWord = value.toList := by
    apply takeWhile_append_of_stop (isWord_of_written_identifier h.written)
    intro d hd
    by_contra hwide
    cases hscans with
    | nil => simp at hd
    | @cons lexeme rest lexemes h' hs =>
      obtain ⟨after, hafter⟩ := List.head?_eq_some_iff.mp hd
      have hnone := firstMatch?_of_wide (by simpa using hwide) (hstop d hd) after
      rw [← hafter, h'.2] at hnone
      simp at hnone
  rwa [hrun] at hword

/-- Every lexeme of a text but blanks and comments is proper. -/
theorem Scans.proper {text : List Char} {lexemes : List Lexeme} (h : Scans text lexemes) :
  ∀ lexeme ∈ lexemes, lexeme.kind.isTrivia = false → lexeme.Proper
  := by
  induction h with
  | nil => simp
  | @cons lexeme rest lexemes h hs ih =>
    intro other hother htrivia
    rcases List.mem_cons.mp hother with rfl | hother
    · use h.written, htrivia
      intro hkind
      obtain ⟨kind, value⟩ := other
      obtain rfl := hkind
      apply not_word_of_fronts h hs
    · apply ih other hother htrivia

theorem Scans.kind_ne_end {text : List Char} {lexemes : List Lexeme} (h : Scans text lexemes) :
  ∀ lexeme ∈ lexemes, lexeme.kind ≠ .endOfInput ∧ lexeme.text ≠ []
  := by
  induction h with
  | nil => simp
  | @cons lexeme rest lexemes h hs ih =>
    intro other hother
    rcases List.mem_cons.mp hother with rfl | hother
    · exact ⟨h.written.kind_ne_end, h.text_ne_nil⟩
    · apply ih other hother

theorem map_lexeme_placed (position : Position) (lexemes : List Lexeme) :
  (placed position lexemes).map Token.lexeme = lexemes ++ [⟨.endOfInput, ""⟩]
  := by
  induction lexemes generalizing position with
  | nil => rfl
  | cons lexeme lexemes ih =>
    rw [placed, List.map_cons, ih]
    rfl

/-- The tokens that are kept before the end are the lexemes but blanks and comments. -/
theorem lexemes_of_placed {lexemes : List Lexeme} (position : Position)
    (h : ∀ lexeme ∈ lexemes, lexeme.kind ≠ .endOfInput) :
  (((placed position lexemes).filter (false || !·.kind.isTrivia)).takeWhile (!·.isEnd)).map
      Token.lexeme
    = lexemes.filter (!·.kind.isTrivia)
  := by
  let kept (lexeme : Lexeme) : Bool := !lexeme.kind.isTrivia
  let before (lexeme : Lexeme) : Bool := !(lexeme.kind == .endOfInput)
  have hend : kept ⟨.endOfInput, ""⟩ = true ∧ before ⟨.endOfInput, ""⟩ = false := ⟨rfl, rfl⟩
  calc (((placed position lexemes).filter (kept ∘ Token.lexeme)).takeWhile
        (before ∘ Token.lexeme)).map Token.lexeme
    _ = (((placed position lexemes).map Token.lexeme).filter kept).takeWhile before := by
      rw [List.filter_map, List.takeWhile_map]
    _ = (lexemes.filter kept ++ [(⟨.endOfInput, ""⟩ : Lexeme)]).takeWhile before := by
      rw [map_lexeme_placed, List.filter_append, List.filter_singleton, hend.1]
      rfl
    _ = lexemes.filter kept := by
      rw [List.takeWhile_append_of_pos, List.takeWhile_cons_of_neg (by simp [hend.2]),
        List.append_nil]
      intro lexeme hlexeme
      simpa [before] using h lexeme (List.mem_filter.mp hlexeme).1

/-- The tokens of a source before the end are the lexemes of its text but blanks and comments. -/
theorem scans_of_tokenize {source : String} {tokens : List Token}
    (h : tokenize source = .ok tokens) :
  ∃ lexemes, Scans source.toList lexemes
    ∧ (tokens.takeWhile (!·.isEnd)).map Token.lexeme = lexemes.filter (!·.kind.isTrivia)
  := by
  obtain ⟨lexemes, hscans, rfl⟩ := scan_eq_ok_iff.mp h
  use lexemes, hscans
  apply lexemes_of_placed
  intro lexeme hlexeme
  apply (hscans.kind_ne_end lexeme hlexeme).1

theorem tokenize_of_scans {source : String} {lexemes : List Lexeme}
    (h : Scans source.toList lexemes) :
  ∃ tokens, tokenize source = .ok tokens
    ∧ (tokens.takeWhile (!·.isEnd)).map Token.lexeme = lexemes.filter (!·.kind.isTrivia)
  := by
  use (placed .start lexemes).filter (false || !·.kind.isTrivia)
  constructor
  · apply scan_eq_ok_iff.mpr
    exact ⟨lexemes, h, rfl⟩
  · apply lexemes_of_placed
    intro lexeme hlexeme
    apply (h.kind_ne_end lexeme hlexeme).1

/-! ### The tokens of a source -/

/-- The tokens of lexemes that stand one after the other from the position on, but for blanks and
comments. -/
def kept : Position → List Lexeme → List Token
  | _, [] => []
  | position, lexeme :: lexemes =>
    let others := kept (position.past lexeme.text) lexemes
    if lexeme.kind.isTrivia then others else lexeme.place position :: others

theorem filter_placed (position : Position) (lexemes : List Lexeme) :
  (placed position lexemes).filter (false || !·.kind.isTrivia)
    = kept position lexemes ++ [Token.endAt (position.past (lexemes.flatMap Lexeme.text))]
  := by
  induction lexemes generalizing position with
  | nil => rfl
  | cons lexeme lexemes ih =>
    have hkind : (lexeme.place position).kind = lexeme.kind := rfl
    rw [placed, List.filter_cons, ih, kept, List.flatMap_cons, Position.past_append, hkind]
    cases lexeme.kind.isTrivia <;> rfl

theorem map_lexeme_kept (position : Position) (lexemes : List Lexeme) :
  (kept position lexemes).map Token.lexeme = lexemes.filter (!·.kind.isTrivia)
  := by
  induction lexemes generalizing position with
  | nil => rfl
  | cons lexeme lexemes ih =>
    rw [kept, List.filter_cons, ← ih (position.past lexeme.text)]
    cases lexeme.kind.isTrivia <;> rfl

/-- A source is scanned exactly when its text is read as some lexemes, and then its tokens are
those of the lexemes and the end. -/
theorem tokenize_eq_ok_iff {source : String} {tokens : List Token} :
  tokenize source = .ok tokens
    ↔ ∃ lexemes, Scans source.toList lexemes
        ∧ tokens = kept .start lexemes ++ [Token.endAt (Position.start.past source.toList)]
  := by
  rw [tokenize, scan_eq_ok_iff]
  apply exists_congr
  intro lexemes
  apply and_congr_right
  intro hscans
  rw [filter_placed, hscans.flatMap_text]

theorem Scans.proper_of_mem_kept {text : List Char} {lexemes : List Lexeme}
    (h : Scans text lexemes) {position : Position} {token : Token}
    (htoken : token ∈ kept position lexemes) :
  token.lexeme.Proper
  := by
  have hlexeme : token.lexeme ∈ (kept position lexemes).map Token.lexeme :=
    List.mem_map_of_mem htoken
  rw [map_lexeme_kept] at hlexeme
  obtain ⟨hmem, htrivia⟩ := List.mem_filter.mp hlexeme
  apply h.proper _ hmem (by simpa using htrivia)

/-- No token of a source but the last is an end of the input. -/
theorem Scans.isEnd_kept {text : List Char} {lexemes : List Lexeme} (h : Scans text lexemes)
    (position : Position) :
  ∀ token ∈ kept position lexemes, token.isEnd = false
  := by
  intro token htoken
  have hkind : token.kind ≠ .endOfInput := (h.proper_of_mem_kept htoken).written.kind_ne_end
  simpa [Token.isEnd] using hkind

end Mientras
