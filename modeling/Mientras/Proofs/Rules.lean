import Mathlib.Data.List.Basic
import Mathlib.Data.List.Find
import Mathlib.Tactic.Common
import Mientras.Proofs.Scan

/-!
# Which rule finds a token

Every rule of the language is for texts that start with a character of one class: a letter, a
digit, a double quote, a blank, or the start of a sign.  `firstMatch?_of_head` says that only the
rules for the class of the first character have to be tried.  Among them, a word of the language
is found exactly where it is the whole run of word characters at the front of the text
(`wordAt?_eq_find?`).
-/

namespace Mientras

/-- The words of the language, each with its kind. -/
def Kind.words : List (String × Kind) :=
  reserved ++ typeNames ++ truthValues

namespace Text

/-! ### Classes of characters -/

theorem isAlpha_iff_toNat {c : Char} :
  c.isAlpha = true ↔ (65 ≤ c.toNat ∧ c.toNat ≤ 90) ∨ (97 ≤ c.toNat ∧ c.toNat ≤ 122)
  := by
  have halpha : c.isAlpha
      = (decide (c.val ≥ 'A'.val ∧ c.val ≤ 'Z'.val)
        || (decide (c.val ≥ 'a'.val) && decide (c.val ≤ 'z'.val))) := rfl
  simp [halpha, UInt32.le_iff_toNat_le]

theorem isAlphanum_iff_toNat {c : Char} :
  c.isAlphanum = true
    ↔ (65 ≤ c.toNat ∧ c.toNat ≤ 90) ∨ (97 ≤ c.toNat ∧ c.toNat ≤ 122)
      ∨ (48 ≤ c.toNat ∧ c.toNat ≤ 57)
  := by
  rw [Char.isAlphanum, Bool.or_eq_true, isAlpha_iff_toNat, Char.isDigit_iff_toNat, or_assoc]
  rfl

/-- Letters and digits of the ASCII range are word characters. -/
theorem isWord_of_isAlphanum {c : Char} (h : c.isAlphanum = true) :
  isWord c = true
  := by
  have hrange := isAlphanum_iff_toNat.mp h
  rw [isWord, if_pos (by omega), h, Bool.true_or]

theorem isWord_of_isAlpha {c : Char} (h : c.isAlpha = true) :
  isWord c = true
  := by
  apply isWord_of_isAlphanum
  rw [Char.isAlphanum, h, Bool.true_or]

/-- A word character beyond the ASCII range is not a blank. -/
theorem disjoint_blanks_wideWord :
  ∀ r ∈ blanks, r.2 < 0x80 ∨ ∀ w ∈ wideWord, w.2 < r.1 ∨ r.2 < w.1
  := by
  decide +kernel

/-- No blank is a word character. -/
theorem isWord_of_isBlank {c : Char} (h : isBlank c = true) :
  isWord c = false
  := by
  obtain ⟨r, hr, hlow, hhigh⟩ := (Ranges.covers_iff _ _).mp h
  rw [isWord]
  split
  · rename_i hascii
    have hcode : (0x9 ≤ c.toNat ∧ c.toNat ≤ 0xD) ∨ c.toNat = 0x20 := by
      simp only [blanks, List.mem_cons, List.not_mem_nil, or_false] at hr
      rcases hr with rfl | rfl | rfl | rfl | rfl | rfl | rfl | rfl | rfl | rfl <;>
        simp only at hlow hhigh <;> omega
    rw [Bool.or_eq_false_iff]
    constructor
    · rw [Bool.eq_false_iff, ne_eq, isAlphanum_iff_toNat]
      omega
    · rw [beq_eq_false_iff_ne]
      rintro rfl
      simp at hcode
  · rename_i hascii
    rw [Bool.eq_false_iff, ne_eq, Ranges.covers_iff]
    rintro ⟨w, hw, hlow', hhigh'⟩
    rcases disjoint_blanks_wideWord r hr with hr | hr
    · omega
    · have := hr w hw
      omega

/-- What a text can be, as far as its first character shows. -/
inductive CharClass where
  | letter
  | digit
  | quote
  | blank
  | sign
  | other
  deriving DecidableEq

/-- The class of a character. -/
def classOf (c : Char) : CharClass :=
  if c.isAlpha then .letter
  else if c.isDigit then .digit
  else if c = '"' then .quote
  else if isBlank c then .blank
  else if Kind.signs.any (·.1.toList.head? == some c) then .sign
  else .other

theorem classOf_of_isAlpha {c : Char} (h : c.isAlpha = true) :
  classOf c = .letter
  := if_pos h

theorem classOf_of_isDigit {c : Char} (h : c.isDigit = true) :
  classOf c = .digit
  := by
  have hdigit := Char.isDigit_iff_toNat.mp h
  have halpha : ¬ c.isAlpha = true := by
    rw [isAlpha_iff_toNat]
    simp at hdigit
    omega
  rw [classOf, if_neg halpha, if_pos h]

theorem classOf_of_isBlank {c : Char} (h : isBlank c = true) :
  classOf c = .blank
  := by
  have hword := isWord_of_isBlank h
  have halphanum : ¬ c.isAlphanum = true := by
    intro halphanum
    rw [isWord_of_isAlphanum halphanum] at hword
    simp at hword
  rw [Char.isAlphanum, Bool.or_eq_true, not_or] at halphanum
  have hquote : c ≠ '"' := by
    rintro rfl
    revert h
    decide
  rw [classOf, if_neg halphanum.1, if_neg halphanum.2, if_neg hquote, if_pos h]

/-- A run of members with the property `p` ends where a member without it follows. -/
theorem takeWhile_append_of_stop {α : Type} {p : α → Bool} {text rest : List α}
    (htext : ∀ c ∈ text, p c = true) (hrest : ∀ c ∈ rest.head?, p c = false) :
  (text ++ rest).takeWhile p = text
  := by
  rw [List.takeWhile_append_of_pos htext]
  cases rest with
  | nil => simp
  | cons c rest =>
    rw [List.takeWhile_cons_of_neg (by simp [hrest c rfl]), List.append_nil]

theorem dropWhile_append_of_stop {α : Type} {p : α → Bool} {text rest : List α}
    (htext : ∀ c ∈ text, p c = true) (hrest : ∀ c ∈ rest.head?, p c = false) :
  (text ++ rest).dropWhile p = rest
  := by
  rw [List.dropWhile_append_of_pos htext]
  cases rest with
  | nil => rfl
  | cons c rest => rw [List.dropWhile_cons_of_neg (by simp [hrest c rfl])]

end Text

namespace Rule

open Text

/-! ### The class of a rule -/

/-- The class of the first characters of the texts that a rule of the language is for. -/
def firstClass : Rule → CharClass
  | word _ | identifier => .letter
  | float | integer => .digit
  | text => .quote
  | blank => .blank
  | lineComment | blockComment | sign _ _ => .sign

/-- A word of the language starts with a letter, and has no other characters than letters and
underscores. -/
theorem isAlpha_of_mem_words :
  ∀ word ∈ Kind.words,
    (∃ c ∈ word.1.toList.head?, c.isAlpha = true) ∧ ∀ c ∈ word.1.toList, c.isAlpha ∨ c = '_'
  := by
  have hwords : ∀ word ∈ Kind.words, word.1.toList.head?.any Char.isAlpha = true
      ∧ word.1.toList.all (fun c => c.isAlpha || c == '_') = true := by decide
  simpa [Option.any_eq_true] using hwords

/-- A sign of the language starts with a character that is neither a letter, nor a digit, nor a
double quote, nor a blank. -/
theorem classOf_of_mem_signs :
  ∀ sign ∈ Kind.signs, ∃ c ∈ sign.1.toList.head?, classOf c = .sign
  := by
  have hsigns : ∀ sign ∈ Kind.signs, sign.1.toList.head?.map classOf = some .sign := by decide
  simpa using hsigns

theorem isWord_head_of_mem_signs :
  ∀ sign ∈ Kind.signs, ∀ c ∈ sign.1.toList.head?, isWord c = false
  := by
  have hsigns : ∀ sign ∈ Kind.signs, sign.1.toList.head?.all (!isWord ·) = true := by decide
  simpa [Option.all_eq_true] using hsigns

theorem mem_words_of_mem_all {words : List (String × Kind)} (h : word words ∈ all) :
  ∀ word ∈ words, word ∈ Kind.words
  := by
  simp only [all, List.mem_append, List.mem_cons, List.mem_map, List.not_mem_nil, or_false,
    reduceCtorEq, false_or, and_false, exists_false, Rule.word.injEq] at h
  intro word hword
  rcases h with rfl | rfl | rfl <;> simp [Kind.words, hword]

theorem mem_signs_of_mem_all {s : String} {kind : Kind} (h : sign s kind ∈ all) :
  (s, kind) ∈ Kind.signs
  := by
  simp only [all, List.mem_append, List.mem_cons, List.mem_map, List.not_mem_nil, or_false,
    reduceCtorEq, false_or, sign.injEq] at h
  obtain ⟨sign, hsign, rfl, rfl⟩ := h
  exact hsign

theorem exists_of_runLength? {p : Char → Bool} {c : Char} {rest : List Char} {n : Nat}
    (h : runLength? p (c :: rest) = some n) :
  p c = true
  := by
  obtain ⟨hpos, rfl⟩ := runLength?_eq_some h
  by_contra hc
  rw [List.takeWhile_cons_of_neg hc] at hpos
  simp at hpos

theorem head_eq_of_isPrefixOf {text rest : List Char} {c d : Char} (hd : d ∈ text.head?)
    (h : text.isPrefixOf (c :: rest) = true) :
  d = c
  := by
  cases text with
  | nil => simp at hd
  | cons e text =>
    obtain rfl := Option.some.inj hd
    simpa using (Bool.and_eq_true_iff.mp h).1

/-- A rule of the language finds a token only at the front of a text that starts with a character
of the rule's class. -/
theorem classOf_of_match? {rule : Rule} (h : rule ∈ all) {c : Char} {rest : List Char}
    {found : Kind × Nat} (hmatch : rule.match? (c :: rest) = some found) :
  rule.firstClass = classOf c
  := by
  cases rule with
  | lineComment =>
    obtain ⟨n, hn, _⟩ := Option.map_eq_some_iff.mp hmatch
    rw [lineCommentLength?.eq_def] at hn
    split at hn
    · rename_i heq
      obtain ⟨rfl, _⟩ := List.cons.inj heq
      decide
    · simp at hn
  | blockComment =>
    obtain ⟨n, hn, _⟩ := Option.map_eq_some_iff.mp hmatch
    rw [blockCommentLength?.eq_def] at hn
    split at hn
    · rename_i heq
      obtain ⟨rfl, _⟩ := List.cons.inj heq
      decide
    · simp at hn
  | word words =>
    obtain ⟨word, hword, _⟩ := Option.map_eq_some_iff.mp hmatch
    have hmem := mem_words_of_mem_all h word (List.mem_of_find?_eq_some hword)
    obtain ⟨⟨d, hd, halpha⟩, _⟩ := isAlpha_of_mem_words word hmem
    have hfound := List.find?_some hword
    simp only [Bool.and_eq_true] at hfound
    obtain rfl := head_eq_of_isPrefixOf hd hfound.1
    rw [classOf_of_isAlpha halpha]
    rfl
  | float =>
    obtain ⟨n, hn, _⟩ := Option.map_eq_some_iff.mp hmatch
    rw [floatLength?] at hn
    split at hn
    · rename_i hwhole _
      rw [classOf_of_isDigit (exists_of_runLength? hwhole)]
      rfl
    · simp at hn
  | integer =>
    obtain ⟨n, hn, _⟩ := Option.map_eq_some_iff.mp hmatch
    rw [classOf_of_isDigit (exists_of_runLength? hn)]
    rfl
  | text =>
    obtain ⟨n, hn, _⟩ := Option.map_eq_some_iff.mp hmatch
    rw [textLength?.eq_def] at hn
    split at hn
    · rename_i heq
      obtain ⟨rfl, _⟩ := List.cons.inj heq
      decide
    · simp at hn
  | sign s kind =>
    rw [match?] at hmatch
    split at hmatch
    · rename_i hfront
      obtain ⟨d, hd, hclass⟩ := classOf_of_mem_signs _ (mem_signs_of_mem_all h)
      obtain rfl := head_eq_of_isPrefixOf hd hfront
      rw [hclass]
      rfl
    · simp at hmatch
  | blank =>
    obtain ⟨n, hn, _⟩ := Option.map_eq_some_iff.mp hmatch
    rw [classOf_of_isBlank (exists_of_runLength? hn)]
    rfl
  | identifier =>
    obtain ⟨n, hn, _⟩ := Option.map_eq_some_iff.mp hmatch
    rw [identifierLength?] at hn
    split at hn
    · rename_i halpha
      rw [classOf_of_isAlpha halpha]
      rfl
    · simp at hn

/-- Only the rules for the class of the first character have to be tried. -/
theorem firstMatch?_of_head {c : Char} {rest : List Char} (hc : c ∈ rest.head?) :
  firstMatch? rest = (all.filter (·.firstClass = classOf c)).findSome? (·.match? rest)
  := by
  obtain ⟨rest, rfl⟩ := List.head?_eq_some_iff.mp hc
  have hnone : ∀ rule ∈ all, ¬ rule.firstClass = classOf c → rule.match? (c :: rest) = none := by
    intro rule hrule hclass
    rw [Option.eq_none_iff_forall_ne_some]
    intro found hmatch
    exact hclass (classOf_of_match? hrule hmatch)
  rw [firstMatch?]
  revert hnone
  generalize all = rules
  intro hnone
  induction rules with
  | nil => rfl
  | cons rule rules ih =>
    have ih := ih fun other hother => hnone other (List.mem_cons_of_mem _ hother)
    by_cases hclass : rule.firstClass = classOf c
    · rw [List.filter_cons_of_pos (by simpa using hclass), List.findSome?_cons, ih,
        List.findSome?_cons]
    · rw [List.filter_cons_of_neg (by simpa using hclass), List.findSome?_cons,
        hnone rule List.mem_cons_self hclass, ih]

/-! ### Words and identifiers -/

/-- A text of word characters stands at the front of a text and ends there as a word exactly when
it is the whole run of word characters there. -/
theorem isPrefixOf_and_atWordEnd {text : List Char} (h : ∀ c ∈ text, isWord c = true)
    (rest : List Char) :
  (text.isPrefixOf rest && atWordEnd (rest.drop text.length)) = (text == rest.takeWhile isWord)
  := by
  rw [Bool.eq_iff_iff, Bool.and_eq_true, List.isPrefixOf_iff_prefix, beq_iff_eq]
  constructor
  · rintro ⟨⟨after, rfl⟩, hend⟩
    rw [List.drop_left] at hend
    rw [takeWhile_append_of_stop h]
    intro c hc
    cases after with
    | nil => simp at hc
    | cons d after =>
      obtain rfl := Option.some.inj hc
      simpa using hend
  · intro heq
    have happend := List.takeWhile_append_dropWhile (p := isWord) (l := rest)
    rw [← heq] at happend
    constructor
    · exact ⟨_, happend⟩
    · rw [← happend, List.drop_left]
      cases hdrop : rest.dropWhile isWord with
      | nil => rfl
      | cons c after =>
        have hc := List.head_dropWhile_not isWord (show rest.dropWhile isWord ≠ [] by simp [hdrop])
        simpa [hdrop] using hc

theorem isWord_of_mem_words {word : String × Kind} (h : word ∈ Kind.words) :
  ∀ c ∈ word.1.toList, isWord c = true
  := by
  intro c hc
  rcases (isAlpha_of_mem_words word h).2 c hc with halpha | rfl
  · apply isWord_of_isAlpha halpha
  · decide

/-- The word that is found is the run of word characters at the front of the text. -/
theorem wordAt?_eq_find? {words : List (String × Kind)} (h : ∀ word ∈ words, word ∈ Kind.words)
    (rest : List Char) :
  wordAt? words rest = words.find? (·.1.toList == rest.takeWhile isWord)
  := by
  apply List.find?_congr
  intro word hword
  apply isPrefixOf_and_atWordEnd
  apply isWord_of_mem_words (h word hword)

/-- Where a text starts with a letter, a word of the language is found when it is the run of word
characters there, and else an identifier. -/
theorem firstMatch?_of_letter {c : Char} {rest : List Char} (hc : c ∈ rest.head?)
    (h : c.isAlpha = true) :
  firstMatch? rest
    = ((Kind.words.find? (·.1.toList == rest.takeWhile isWord)).map
        fun word => (word.2, word.1.toList.length)).or
      ((identifierLength? rest).map (Kind.identifier, ·))
  := by
  have hrules : all.filter (·.firstClass = .letter)
      = [word Kind.reserved, word Kind.typeNames, word Kind.truthValues, identifier] := rfl
  rw [firstMatch?_of_head hc, classOf_of_isAlpha h, hrules]
  simp only [List.findSome?_cons, List.findSome?_nil, match?]
  rw [wordAt?_eq_find? (by simp +contextual [Kind.words]),
    wordAt?_eq_find? (by simp +contextual [Kind.words]),
    wordAt?_eq_find? (by simp +contextual [Kind.words]), Kind.words, List.find?_append,
    List.find?_append]
  generalize Kind.reserved.find? _ = first
  generalize Kind.typeNames.find? _ = second
  generalize Kind.truthValues.find? _ = third
  cases first <;> cases second <;> cases third <;> cases identifierLength? rest <;> rfl

/-! ### The other classes -/

theorem firstMatch?_of_digit {c : Char} {rest : List Char} (hc : c ∈ rest.head?)
    (h : c.isDigit = true) :
  firstMatch? rest
    = ((floatLength? rest).map (Kind.float, ·)).or ((integerLength? rest).map (Kind.integer, ·))
  := by
  have hrules : all.filter (·.firstClass = .digit) = [float, integer] := rfl
  rw [firstMatch?_of_head hc, classOf_of_isDigit h, hrules]
  simp only [List.findSome?_cons, List.findSome?_nil, match?]
  cases floatLength? rest <;> cases integerLength? rest <;> rfl

theorem firstMatch?_of_quote {rest : List Char} (hc : '"' ∈ rest.head?) :
  firstMatch? rest = (textLength? rest).map (Kind.text, ·)
  := by
  have hrules : all.filter (·.firstClass = classOf '"') = [text] := by rfl
  rw [firstMatch?_of_head hc, hrules]
  simp only [List.findSome?_cons, List.findSome?_nil, match?]
  cases textLength? rest <;> rfl

theorem firstMatch?_of_blank {c : Char} {rest : List Char} (hc : c ∈ rest.head?)
    (h : isBlank c = true) :
  firstMatch? rest = (blankLength? rest).map (Kind.blank, ·)
  := by
  have hrules : all.filter (·.firstClass = .blank) = [blank] := rfl
  rw [firstMatch?_of_head hc, classOf_of_isBlank h, hrules]
  simp only [List.findSome?_cons, List.findSome?_nil, match?]
  cases blankLength? rest <;> rfl

/-- Where a text starts as a sign does, a comment or the first sign that fits is found. -/
theorem firstMatch?_of_signClass {c : Char} {rest : List Char} (hc : c ∈ rest.head?)
    (h : classOf c = .sign) :
  firstMatch? rest
    = ((lineCommentLength? rest).map (Kind.lineComment, ·)).or
      (((blockCommentLength? rest).map (Kind.blockComment, ·)).or
        ((Kind.signs.find? (·.1.toList.isPrefixOf rest)).map
          fun sign => (sign.2, sign.1.toList.length)))
  := by
  have hrules : all.filter (·.firstClass = .sign)
      = lineComment :: blockComment :: Kind.signs.map (fun s => sign s.1 s.2) := rfl
  have hsigns : ∀ signs : List (String × Kind),
      (signs.map (fun s => sign s.1 s.2)).findSome? (·.match? rest)
        = (signs.find? (·.1.toList.isPrefixOf rest)).map
            fun sign => (sign.2, sign.1.toList.length) := by
    intro signs
    induction signs with
    | nil => rfl
    | cons sign signs ih =>
      rw [List.map_cons, List.findSome?_cons, ih, List.find?_cons, match?]
      cases sign.1.toList.isPrefixOf rest <;> rfl
  rw [firstMatch?_of_head hc, h, hrules, List.findSome?_cons, List.findSome?_cons, hsigns]
  simp only [match?]
  cases lineCommentLength? rest <;> cases blockCommentLength? rest <;> rfl

/-- What stands at the front of a text and more stands at the front of the text, unless the text
after it goes on with one of its characters. -/
theorem isPrefixOf_append {pattern text rest : List Char} (htext : text ≠ [])
    (hstop : ∀ c ∈ rest.head?, c ∉ pattern.drop 1) :
  pattern.isPrefixOf (text ++ rest) = pattern.isPrefixOf text
  := by
  rw [Bool.eq_iff_iff, List.isPrefixOf_iff_prefix, List.isPrefixOf_iff_prefix]
  constructor
  · intro h
    rcases List.prefix_or_prefix_of_prefix h (List.prefix_append text rest) with h' | ⟨more, rfl⟩
    · exact h'
    · rw [List.prefix_append_right_inj] at h
      obtain ⟨after, rfl⟩ := h
      cases more with
      | nil => simp
      | cons c more =>
        obtain ⟨d, text, rfl⟩ := List.exists_cons_of_ne_nil htext
        have hc := hstop c rfl
        simp at hc
  · intro h
    apply h.trans (List.prefix_append text rest)

theorem lineCommentLength?_of_not {rest : List Char} (h : ['/', '/'].isPrefixOf rest = false) :
  lineCommentLength? rest = none
  := by
  rw [lineCommentLength?.eq_def]
  split
  · simp at h
  · rfl

theorem blockCommentLength?_of_not {rest : List Char} (h : ['/', '*'].isPrefixOf rest = false) :
  blockCommentLength? rest = none
  := by
  rw [blockCommentLength?.eq_def]
  split
  · simp at h
  · rfl

/-- A sign of the language does not start as a comment does, is the first sign that stands at its
own front, and goes on with an equals sign if at all. -/
theorem first_of_mem_signs :
  ∀ sign ∈ Kind.signs,
    ['/', '/'].isPrefixOf sign.1.toList = false ∧ ['/', '*'].isPrefixOf sign.1.toList = false
      ∧ Kind.signs.find? (·.1.toList.isPrefixOf sign.1.toList) = some sign
      ∧ ∀ c ∈ sign.1.toList.drop 1, c = '='
  := by
  have hsigns : ∀ sign ∈ Kind.signs,
      ['/', '/'].isPrefixOf sign.1.toList = false ∧ ['/', '*'].isPrefixOf sign.1.toList = false
        ∧ Kind.signs.find? (·.1.toList.isPrefixOf sign.1.toList) = some sign
        ∧ (sign.1.toList.drop 1).all (· == '=') = true := by decide
  simpa only [List.all_eq_true, beq_iff_eq] using hsigns

/-- A sign is found whatever follows it but an equals sign, a slash or a star. -/
theorem firstMatch?_of_sign {sign : String × Kind} (h : sign ∈ Kind.signs) {rest : List Char}
    (hrest : ∀ c ∈ rest.head?, c ≠ '=' ∧ c ≠ '/' ∧ c ≠ '*') :
  firstMatch? (sign.1.toList ++ rest) = some (sign.2, sign.1.toList.length)
  := by
  obtain ⟨hline, hblock, hfirst, _⟩ := first_of_mem_signs sign h
  obtain ⟨c, hc, hclass⟩ := classOf_of_mem_signs sign h
  have hne : sign.1.toList ≠ [] := List.ne_nil_of_mem (List.mem_of_mem_head? hc)
  have hfind : Kind.signs.find? (·.1.toList.isPrefixOf (sign.1.toList ++ rest))
      = Kind.signs.find? (·.1.toList.isPrefixOf sign.1.toList) := by
    apply List.find?_congr
    intro other hother
    apply isPrefixOf_append hne
    intro d hd hmem
    apply (hrest d hd).1
    apply (first_of_mem_signs other hother).2.2.2 d hmem
  have hline : ['/', '/'].isPrefixOf (sign.1.toList ++ rest) = false := by
    rw [isPrefixOf_append hne, hline]
    intro d hd hmem
    simp [(hrest d hd).2.1] at hmem
  have hblock : ['/', '*'].isPrefixOf (sign.1.toList ++ rest) = false := by
    rw [isPrefixOf_append hne, hblock]
    intro d hd hmem
    simp [(hrest d hd).2.2] at hmem
  have hhead : c ∈ (sign.1.toList ++ rest).head? := List.mem_head?_append_of_mem_head? hc
  rw [firstMatch?_of_signClass hhead hclass, lineCommentLength?_of_not hline,
    blockCommentLength?_of_not hblock, hfind, hfirst]
  rfl

/-- No rule finds a token where a text starts with a word character that is beyond the ASCII
range. -/
theorem firstMatch?_of_wide {c : Char} (hword : isWord c = true)
    (hascii : continuesIdentifier c = false) (rest : List Char) :
  firstMatch? (c :: rest) = none
  := by
  rw [continuesIdentifier, Bool.or_eq_false_iff, Char.isAlphanum, Bool.or_eq_false_iff] at hascii
  have hclass : classOf c = .other := by
    rw [classOf, if_neg (by simp [hascii.1.1]), if_neg (by simp [hascii.1.2]), if_neg, if_neg,
      if_neg]
    · intro hsign
      obtain ⟨sign, hmem, hhead⟩ := List.any_eq_true.mp hsign
      have hword' := isWord_head_of_mem_signs sign hmem c (beq_iff_eq.mp hhead)
      simp [hword] at hword'
    · intro hblank
      simp [isWord_of_isBlank hblank] at hword
    · rintro rfl
      simp [isWord] at hword
  rw [firstMatch?_of_head (show c ∈ (c :: rest).head? from rfl), hclass]
  rfl

end Rule

end Mientras
