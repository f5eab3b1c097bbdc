import Mathlib.Tactic.Common
import Mientras.Proofs.Longest
import Mientras.Proofs.Newline

/-!
# Cutting a text short

What a rule finds at the front of a text it finds too when the text is cut short after it, and where
it finds nothing it finds nothing in a part of the text.  Every rule is `Steady` in this way but
those for words: a word of the language is found where no word character follows, and that may be
because the text was cut.  Where something is left of what follows a lexeme, the lexeme is found as
before (`Lexeme.Fronts.cut`); where nothing is left, an identifier may turn out to be a word of the
language (`Lexeme.Fronts.cut_nil`), and nothing else can change.
-/

namespace Mientras

open Text Rule

/-! ### Runs -/

section

variable {p : Char → Bool} {text more : List Char} {n : Nat}

/-- A run that ends within the text does not depend on what follows the text. -/
theorem takeWhile_of_append (h : ((text ++ more).takeWhile p).length ≤ text.length) :
  (text ++ more).takeWhile p = text.takeWhile p
  := by
  rw [List.takeWhile_append] at h ⊢
  split at h
  · rename_i hall
    have hmore : more.takeWhile p = [] := by
      rw [List.length_append] at h
      apply List.length_eq_zero_iff.mp
      omega
    rw [if_pos hall, hmore, List.append_nil]
    exact ((List.takeWhile_prefix p).eq_of_length hall).symm
  · rename_i hall
    rw [if_neg hall]

theorem dropWhile_of_append (h : ((text ++ more).takeWhile p).length ≤ text.length) :
  (text ++ more).dropWhile p = text.dropWhile p ++ more
  := by
  have hsplit : text.takeWhile p ++ (text ++ more).dropWhile p
      = text.takeWhile p ++ (text.dropWhile p ++ more) := by
    rw [← takeWhile_of_append h, List.takeWhile_append_dropWhile, takeWhile_of_append h,
      ← List.append_assoc, List.takeWhile_append_dropWhile]
  apply List.append_cancel_left hsplit

theorem takeWhile_eq_self_of_lt (h : text.length < ((text ++ more).takeWhile p).length) :
  text.takeWhile p = text
  := by
  by_contra hne
  have hshort : (text.takeWhile p).length ≠ text.length :=
    fun hlength => hne ((List.takeWhile_prefix p).eq_of_length hlength)
  have hle := (List.takeWhile_prefix p (l := text)).length_le
  rw [List.takeWhile_append, if_neg hshort] at h
  omega

end

/-- The number of characters that are found at the front of a text depends only on these characters,
but for how far they go on. -/
structure Steady (length? : List Char → Option Nat) : Prop where
  /-- What lies within a text is found in the text alone. -/
  within : ∀ {text more : List Char} {n : Nat}, length? (text ++ more) = some n → n ≤ text.length →
    length? text = some n
  /-- Where something is found, something is found when more follows. -/
  further : ∀ {text : List Char} {n : Nat}, length? text = some n →
    ∀ more, ∃ m, length? (text ++ more) = some m

theorem steady_run (p : Char → Bool) :
  Steady (runLength? p)
  where
  within := by
    intro text more n h hn
    rw [← h, runLength?, runLength?]
    obtain ⟨_, rfl⟩ := runLength?_eq_some h
    rw [takeWhile_of_append hn]
  further := by
    intro text n h more
    cases text with
    | nil => simp [runLength?] at h
    | cons c text =>
      have hc := exists_of_runLength? h
      rw [List.cons_append, runLength?, List.takeWhile_cons_of_pos hc, if_neg (by simp)]
      exact ⟨_, rfl⟩

/-! ### Comments and signs -/

theorem prefix_of_append {pattern text : List Char} (more : List Char)
    (h : pattern <+: text ++ more) (hlength : pattern.length ≤ text.length) :
  pattern <+: text
  := List.prefix_of_prefix_length_le h (List.prefix_append text more) hlength

theorem steady_sign (s : List Char) :
  Steady fun rest => if s.isPrefixOf rest then some s.length else none
  where
  within := by
    intro text more n h hn
    simp only [Option.ite_none_right_eq_some, List.isPrefixOf_iff_prefix] at h ⊢
    obtain ⟨hfront, hlength⟩ := h
    obtain rfl := Option.some.inj hlength
    exact ⟨prefix_of_append more hfront hn, rfl⟩
  further := by
    intro text n h more
    simp only [Option.ite_none_right_eq_some, List.isPrefixOf_iff_prefix] at h ⊢
    exact ⟨_, h.1.trans (List.prefix_append text more), rfl⟩

theorem steady_lineComment :
  Steady lineCommentLength?
  where
  within := by
    intro text more n h hn
    obtain ⟨after, htext, rfl⟩ := lineCommentLength?_eq_some h
    obtain ⟨inside, rfl⟩ : ['/', '/'] <+: text := by
      apply prefix_of_append more
      · exact ⟨after, htext.symm⟩
      · exact (Nat.le_add_left _ _).trans hn
    obtain rfl : inside ++ more = after := by simpa using htext
    have hinside : ((inside ++ more).takeWhile (· != '\n')).length ≤ inside.length := by
      simpa using hn
    change some ((inside.takeWhile (· != '\n')).length + 2) = _
    rw [takeWhile_of_append hinside]
  further := by
    intro text n h more
    obtain ⟨after, rfl, _⟩ := lineCommentLength?_eq_some h
    exact ⟨_, rfl⟩

theorem commentClose?_of_append {text more : List Char} {n : Nat}
    (h : commentClose? (text ++ more) = some n) (hn : n ≤ text.length) :
  commentClose? text = some n
  := by
  have htake := commentClose?_take h
  rw [List.take_append_of_le_length hn, List.length_take_of_le hn] at htake
  rw [← List.take_append_drop n text]
  apply commentClose?_append htake

theorem steady_blockComment :
  Steady blockCommentLength?
  where
  within := by
    intro text more n h hn
    obtain ⟨after, m, htext, hclose, rfl⟩ := blockCommentLength?_eq_some h
    obtain ⟨inside, rfl⟩ : ['/', '*'] <+: text := by
      apply prefix_of_append more
      · exact ⟨after, htext.symm⟩
      · exact (Nat.le_add_left _ _).trans hn
    obtain rfl : inside ++ more = after := by simpa using htext
    have hinside : m ≤ inside.length := by simpa using hn
    change (commentClose? inside).map (· + 2) = some _
    rw [commentClose?_of_append hclose hinside]
    rfl
  further := by
    intro text n h more
    obtain ⟨after, m, rfl, hclose, _⟩ := blockCommentLength?_eq_some h
    use m + 2
    change (commentClose? (after ++ more)).map (· + 2) = some _
    rw [commentClose?_append hclose]
    rfl

/-! ### Numbers, texts and identifiers -/

theorem steady_float :
  Steady floatLength?
  where
  within := by
    intro text more n h hn
    rw [floatLength?] at h
    split at h
    · rename_i whole after hwhole hafter
      obtain ⟨fraction, hfraction, rfl⟩ := Option.map_eq_some_iff.mp h
      have hrun := (runLength?_eq_some hwhole).2
      have hdrop : '.' :: after = text.dropWhile Char.isDigit ++ more := by
        rw [← hafter, dropWhile_of_append (by omega)]
      have hlength : (text.takeWhile Char.isDigit).length + (text.dropWhile Char.isDigit).length
          = text.length := by
        rw [← List.length_append, List.takeWhile_append_dropWhile]
      rw [takeWhile_of_append (by omega)] at hrun
      rw [floatLength?, integerLength?, (steady_run _).within hwhole (by omega)]
      -- the point lies within the text, as there is room for digits after it
      cases hrest : text.dropWhile Char.isDigit with
      | nil =>
        rw [hrest, List.length_nil] at hlength
        omega
      | cons c rest =>
        rw [hrest, List.cons_append] at hdrop
        obtain ⟨rfl, rfl⟩ := List.cons.inj hdrop
        rw [hrest, List.length_cons] at hlength
        simp only [integerLength?]
        rw [(steady_run _).within hfraction (by omega)]
        rfl
    · simp at h
  further := by
    intro text n h more
    rw [floatLength?] at h
    split at h
    · rename_i whole after hwhole hafter
      obtain ⟨fraction, hfraction, _⟩ := Option.map_eq_some_iff.mp h
      obtain ⟨whole', hwhole'⟩ := (steady_run _).further hwhole more
      obtain ⟨fraction', hfraction'⟩ := (steady_run _).further hfraction more
      use whole' + 1 + fraction'
      have hdrop : (text ++ more).dropWhile Char.isDigit = '.' :: (after ++ more) := by
        rw [List.dropWhile_append, hafter]
        rfl
      rw [floatLength?, integerLength?, hwhole', hdrop]
      simp only [integerLength?, hfraction']
      rfl
    · simp at h

/-- A quoted text goes up to the next quotation mark. -/
theorem textLength?_eq_some {rest : List Char} {n : Nat} (h : textLength? rest = some n) :
  ∃ inside after, rest = '"' :: (inside ++ '"' :: after) ∧ (∀ c ∈ inside, insideText c = true)
    ∧ inside.length + 2 = n
  := by
  rw [textLength?.eq_def] at h
  split at h
  · rename_i rest
    split at h
    · rename_i hclose
      obtain ⟨after, hafter⟩ := List.head?_eq_some_iff.mp hclose
      refine ⟨rest.takeWhile insideText, after, ?_, ?_, Option.some.inj h⟩
      · rw [← hafter, List.takeWhile_append_dropWhile]
      · exact List.all_eq_true.mp List.all_takeWhile
    · simp at h
  · simp at h

theorem steady_text :
  Steady textLength?
  where
  within := by
    intro text more n h hn
    obtain ⟨inside, after, htext, hinside, rfl⟩ := textLength?_eq_some h
    obtain ⟨rest, rfl⟩ : '"' :: (inside ++ ['"']) <+: text := by
      apply prefix_of_append more
      · exact ⟨after, by simp [htext]⟩
      · rw [List.length_cons, List.length_append]
        exact hn
    rw [textLength?_append hinside]
    simp
  further := by
    intro text n h more
    obtain ⟨inside, after, rfl, hinside, _⟩ := textLength?_eq_some h
    have happend := textLength?_append hinside (after ++ more)
    exact ⟨_, by simpa using happend⟩

theorem steady_identifier :
  Steady identifierLength?
  where
  within := by
    intro text more n h hn
    cases text with
    | nil =>
      have hbounds := identifierLength?_bounds h
      rw [List.length_nil] at hn
      omega
    | cons c text =>
      rw [List.cons_append, identifierLength?, Option.ite_none_right_eq_some] at h
      obtain ⟨halpha, hlength⟩ := h
      obtain rfl := Option.some.inj hlength
      rw [identifierLength?, if_pos halpha, takeWhile_of_append (Nat.le_of_succ_le_succ hn)]
  further := by
    intro text n h more
    cases text with
    | nil => simp [identifierLength?] at h
    | cons c text =>
      rw [identifierLength?, Option.ite_none_right_eq_some] at h
      rw [List.cons_append, identifierLength?, if_pos h.1]
      exact ⟨_, rfl⟩

/-! ### Rules -/

/-- Every rule but those for words is steady. -/
theorem steady_or_word (rule : Rule) :
  (∃ words, rule = word words)
    ∨ ∃ kind length?, Steady length? ∧ ∀ rest, rule.match? rest = (length? rest).map (kind, ·)
  := by
  cases rule with
  | lineComment => exact .inr ⟨_, _, steady_lineComment, fun _ => rfl⟩
  | blockComment => exact .inr ⟨_, _, steady_blockComment, fun _ => rfl⟩
  | word words => exact .inl ⟨words, rfl⟩
  | float => exact .inr ⟨_, _, steady_float, fun _ => rfl⟩
  | integer => exact .inr ⟨_, _, steady_run _, fun _ => rfl⟩
  | text => exact .inr ⟨_, _, steady_text, fun _ => rfl⟩
  | sign s kind =>
    refine .inr ⟨kind, _, steady_sign s.toList, ?_⟩
    intro rest
    rw [match?]
    split <;> rfl
  | blank => exact .inr ⟨_, _, steady_run _, fun _ => rfl⟩
  | identifier => exact .inr ⟨_, _, steady_identifier, fun _ => rfl⟩

section

variable {rule : Rule} {text more : List Char} {kind : Kind} {n : Nat}

theorem match?_within (hrule : rule ∈ all) (h : rule.match? (text ++ more) = some (kind, n))
    (hn : n ≤ text.length) :
  rule.match? text = some (kind, n)
  := by
  rcases steady_or_word rule with ⟨words, rfl⟩ | ⟨kind', length?, hsteady, hmatch⟩
  · -- the word is the run of word characters, which ends within the text
    obtain ⟨found, hfound, heq⟩ := Option.map_eq_some_iff.mp h
    obtain ⟨rfl, rfl⟩ := Prod.mk.inj heq
    have hmem := mem_words_of_mem_all hrule
    rw [wordAt?_eq_find? hmem] at hfound
    have hrun : found.1.toList = (text ++ more).takeWhile isWord := by
      simpa using List.find?_some hfound
    rw [hrun] at hn
    rw [takeWhile_of_append hn] at hfound
    rw [match?, wordAt?_eq_find? hmem, hfound]
    rfl
  · rw [hmatch] at h
    obtain ⟨rfl, hlength⟩ := map_kind_eq_some h
    rw [hmatch, hsteady.within hlength hn]
    rfl

/-- A rule that finds something in a text but nothing when more follows is for words.  The text is
such a word, and a word character follows. -/
theorem eq_word_of_match? (hrule : rule ∈ all) {found : Kind × Nat}
    (h : rule.match? text = some found) (hnone : rule.match? (text ++ more) = none) :
  ∃ word ∈ Kind.words, word.1.toList = text
    ∧ text.length < ((text ++ more).takeWhile isWord).length
  := by
  rcases steady_or_word rule with ⟨words, rfl⟩ | ⟨kind', length?, hsteady, hmatch⟩
  · have hmem := mem_words_of_mem_all hrule
    obtain ⟨word, hword, _⟩ := Option.map_eq_some_iff.mp h
    rw [match?, Option.map_eq_none_iff, wordAt?_eq_find? hmem] at hnone
    rw [wordAt?_eq_find? hmem] at hword
    have hlong : text.length < ((text ++ more).takeWhile isWord).length := by
      by_contra hshort
      rw [takeWhile_of_append (by omega), hword] at hnone
      simp at hnone
    refine ⟨word, hmem word (List.mem_of_find?_eq_some hword), ?_, hlong⟩
    have hrun := List.find?_some hword
    rwa [takeWhile_eq_self_of_lt hlong, beq_iff_eq] at hrun
  · rw [hmatch] at h hnone
    obtain ⟨n, hlength, _⟩ := Option.map_eq_some_iff.mp h
    obtain ⟨m, hm⟩ := hsteady.further hlength more
    simp [hm] at hnone

end

/-- A word of the language is found as an identifier, which may go on. -/
theorem le_identifierLength? {word : String × Kind} (h : word ∈ Kind.words) (more : List Char) :
  ∃ n, identifierLength? (word.1.toList ++ more) = some n ∧ word.1.toList.length ≤ n
  := by
  obtain ⟨⟨c, hc, halpha⟩, hall⟩ := isAlpha_of_mem_words word h
  obtain ⟨text, htext⟩ := List.head?_eq_some_iff.mp hc
  have hcontinues : ∀ d ∈ text, continuesIdentifier d = true := by
    intro d hd
    rcases hall d (by simp [htext, hd]) with hd | rfl
    · simp [continuesIdentifier, Char.isAlphanum, hd]
    · decide
  rw [htext, List.cons_append, identifierLength?, if_pos halpha,
    List.takeWhile_append_of_pos hcontinues]
  use (text ++ more.takeWhile continuesIdentifier).length + 1, rfl
  simp

/-- What is found at the front of a text and lies within its first part is found in this part alone,
unless the part is an identifier that is a word of the language when nothing follows. -/
theorem firstMatch?_of_append {text more : List Char} {kind : Kind} {n : Nat}
    (h : firstMatch? (text ++ more) = some (kind, n)) (hn : n ≤ text.length) :
  firstMatch? text = some (kind, n)
    ∨ n = text.length ∧ kind = .identifier
      ∧ ∃ word ∈ Kind.words, word.1.toList = text ∧ firstMatch? text = some (word.2, n)
  := by
  obtain ⟨before, rule, after, hall, hmatch, hbefore⟩ := List.findSome?_eq_some_iff.mp h
  by_cases hnone : ∀ other ∈ before, other.match? text = none
  · left
    have hrule : rule ∈ all := by simp [hall]
    rw [firstMatch?, hall, List.findSome?_append, List.findSome?_eq_none_iff.mpr hnone,
      Option.none_or, List.findSome?_cons, match?_within hrule hmatch hn]
  · right
    push Not at hnone
    obtain ⟨other, hother, hsome⟩ := hnone
    obtain ⟨found, hfound⟩ := Option.ne_none_iff_exists'.mp hsome
    obtain ⟨word, hword, rfl, hlong⟩ :=
      eq_word_of_match? (by simp [hall, hother]) hfound (hbefore other hother)
    obtain ⟨⟨c, hc, halpha⟩, _⟩ := isAlpha_of_mem_words word hword
    -- the run of word characters goes on, so that the word is found as an identifier
    rcases length_of_letter (List.mem_head?_append_of_mem_head? hc) halpha h with hrun | hidentifier
    · omega
    · obtain ⟨rfl, hlength, _⟩ := hidentifier
      obtain ⟨m, hm, hle⟩ := le_identifierLength? hword more
      obtain rfl : m = n := Option.some.inj (hm.symm.trans hlength)
      obtain rfl : m = word.1.toList.length := Nat.le_antisymm hn hle
      have hfronts : Lexeme.Fronts ⟨word.2, word.1⟩ [] := fronts_word hword (by simp [Delimited])
      refine ⟨rfl, rfl, word, hword, rfl, ?_⟩
      simpa [Lexeme.text] using hfronts.2

theorem firstMatch?_of_append_none {text more : List Char} (h : firstMatch? (text ++ more) = none) :
  firstMatch? text = none
  := by
  rw [firstMatch?, List.findSome?_eq_none_iff] at h ⊢
  intro rule hrule
  by_contra hsome
  obtain ⟨found, hfound⟩ := Option.ne_none_iff_exists'.mp hsome
  obtain ⟨word, hword, rfl, _⟩ := eq_word_of_match? hrule hfound (h rule hrule)
  obtain ⟨n, hn, _⟩ := le_identifierLength? hword more
  have hnone := h .identifier (by simp [all])
  rw [match?, hn] at hnone
  simp at hnone

/-! ### Lexemes -/

/-- A block comment that is found in a part of a text is closed there. -/
theorem isUnterminated_of_append {text more : List Char} {kind : Kind} {n : Nat}
    (hterminated : Scanner.isUnterminated (text ++ more) = false)
    (h : firstMatch? (text ++ more) = some (kind, n)) (hn : n ≤ text.length) :
  Scanner.isUnterminated text = false
  := by
  cases hfront : ['/', '*'].isPrefixOf text with
  | false => rw [Scanner.isUnterminated, hfront, Bool.false_and]
  | true =>
    obtain ⟨inside, rfl⟩ := List.isPrefixOf_iff_prefix.mp hfront
    have hclosed : (commentClose? (inside ++ more)).isSome = true := by
      rw [isSome_commentClose?]
      simpa [Scanner.isUnterminated] using hterminated
    obtain ⟨m, hm⟩ := Option.isSome_iff_exists.mp hclosed
    have hmatch : blockComment.match? (['/', '*'] ++ inside ++ more)
        = some (.blockComment, m + 2) := by
      change ((commentClose? (inside ++ more)).map (· + 2)).map _ = _
      rw [hm]
      rfl
    have hlength := length_le_of_firstMatch? (by simp [all]) hmatch h
    have hinside : m ≤ inside.length := by
      simp at hn hlength
      omega
    have hinfix : hasInfix ['*', '/'] inside = true := by
      rw [← isSome_commentClose?, commentClose?_of_append hm hinside]
      rfl
    simpa [Scanner.isUnterminated] using hinfix

variable {lexeme : Lexeme} {rest more : List Char}

/-- A lexeme is found when only some of what follows it is there. -/
theorem Lexeme.Fronts.cut (h : lexeme.Fronts (rest ++ more)) (hne : rest ≠ []) :
  lexeme.Fronts rest
  := by
  have hpos := List.length_pos_iff.mpr hne
  obtain ⟨hterminated, hmatch⟩ := h
  rw [← List.append_assoc] at hterminated hmatch
  constructor
  · apply isUnterminated_of_append hterminated hmatch
    simp
  · rcases firstMatch?_of_append hmatch (by simp) with hsame | ⟨hlength, _⟩
    · exact hsame
    · rw [List.length_append] at hlength
      omega

/-- A lexeme is found when nothing follows it, but what was an identifier may be a word of the
language. -/
theorem Lexeme.Fronts.cut_nil (h : lexeme.Fronts more) :
  ∃ kind, Lexeme.Fronts ⟨kind, lexeme.value⟩ []
    ∧ (kind = lexeme.kind ∨ lexeme.kind = .identifier ∧ (lexeme.value, kind) ∈ Kind.words)
  := by
  obtain ⟨hterminated, hmatch⟩ := h
  have hterminated := isUnterminated_of_append hterminated hmatch (Nat.le_refl _)
  rcases firstMatch?_of_append hmatch (Nat.le_refl _) with
    hsame | ⟨_, hkind, word, hword, htext, hcut⟩
  · use lexeme.kind
    rw [Lexeme.Fronts, List.append_nil]
    exact ⟨⟨hterminated, hsame⟩, .inl rfl⟩
  · use word.2
    rw [Lexeme.Fronts, List.append_nil]
    refine ⟨⟨hterminated, hcut⟩, .inr ⟨hkind, ?_⟩⟩
    rwa [← String.toList_injective htext]

end Mientras
