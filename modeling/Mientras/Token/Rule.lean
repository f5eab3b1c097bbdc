import Mientras.Text.Blank
import Mientras.Text.Word
import Mientras.Token.Kind

/-!
# Lexical rules

A `Rule` says how the tokens of one sort are written.  `rule.match? text` gives the kind and the
number of characters of the token that the rule finds at the front of `text`.  The rules are
ordered in `Rule.all`, and `firstMatch?` takes the first of them that finds a token.
-/

namespace Mientras

open Text (isBlank atWordEnd)

/-- How the tokens of one sort are written. -/
inductive Rule where
  /-- Two slashes and the rest of the line. -/
  | lineComment
  /-- A slash and a star, up to the first star and slash after them. -/
  | blockComment
  /-- One of the words, where it ends as a word. -/
  | word (words : List (String × Kind))
  /-- Digits, a point, and digits. -/
  | float
  /-- Digits. -/
  | integer
  /-- The characters of one line between two double quotes. -/
  | text
  /-- The sign. -/
  | sign (sign : String) (kind : Kind)
  /-- Blank characters. -/
  | blank
  /-- A letter, and the letters, digits and underscores after it. -/
  | identifier

namespace Rule

/-- The number of characters up to the end of the first star and slash. -/
def commentClose? : List Char → Option Nat
  | [] => none
  | '*' :: '/' :: _ => some 2
  | _ :: rest => (commentClose? rest).map (· + 1)

/-- The number of characters of a line comment at the front of the text. -/
def lineCommentLength? : List Char → Option Nat
  | '/' :: '/' :: rest => some ((rest.takeWhile (· != '\n')).length + 2)
  | _ => none

/-- The number of characters of a block comment at the front of the text. -/
def blockCommentLength? : List Char → Option Nat
  | '/' :: '*' :: rest => (commentClose? rest).map (· + 2)
  | _ => none

/-- The first of the words that stands at the front of the text and ends there as a word. -/
def wordAt? (words : List (String × Kind)) (rest : List Char) : Option (String × Kind) :=
  words.find? fun word =>
    word.1.toList.isPrefixOf rest && atWordEnd (rest.drop word.1.toList.length)

/-- The number of characters of the longest run of characters with the property `p` at the front
of the text.  A run has at least one character. -/
def runLength? (p : Char → Bool) (rest : List Char) : Option Nat :=
  if (rest.takeWhile p).isEmpty then none else some (rest.takeWhile p).length

/-- The number of characters of a run of digits at the front of the text. -/
def integerLength? (rest : List Char) : Option Nat :=
  runLength? Char.isDigit rest

/-- The number of characters of two runs of digits with a point between them at the front of the
text. -/
def floatLength? (rest : List Char) : Option Nat :=
  match integerLength? rest, rest.dropWhile Char.isDigit with
  | some whole, '.' :: after => (integerLength? after).map fun fraction => whole + 1 + fraction
  | _, _ => none

/-- A character that may stand inside a quoted text. -/
def insideText (c : Char) : Bool :=
  c != '"' && c != '\n'

/-- The number of characters of a quoted text at the front of the text. -/
def textLength? : List Char → Option Nat
  | '"' :: rest =>
    if (rest.dropWhile insideText).head? = some '"' then
      some ((rest.takeWhile insideText).length + 2)
    else none
  | _ => none

/-- The number of characters of a run of blanks at the front of the text. -/
def blankLength? (rest : List Char) : Option Nat :=
  runLength? isBlank rest

/-- A letter, a digit or an underscore of the ASCII range. -/
def continuesIdentifier (c : Char) : Bool :=
  c.isAlphanum || c == '_'

/-- The number of characters of an identifier at the front of the text. -/
def identifierLength? : List Char → Option Nat
  | [] => none
  | c :: rest =>
    if c.isAlpha then some ((rest.takeWhile continuesIdentifier).length + 1) else none

/-- The kind and the number of characters of the token that the rule finds at the front of the
text. -/
def match? : Rule → List Char → Option (Kind × Nat)
  | lineComment, rest => (lineCommentLength? rest).map (Kind.lineComment, ·)
  | blockComment, rest => (blockCommentLength? rest).map (Kind.blockComment, ·)
  | word words, rest => (wordAt? words rest).map fun word => (word.2, word.1.toList.length)
  | float, rest => (floatLength? rest).map (Kind.float, ·)
  | integer, rest => (integerLength? rest).map (Kind.integer, ·)
  | text, rest => (textLength? rest).map (Kind.text, ·)
  | sign s kind, rest => if s.toList.isPrefixOf rest then some (kind, s.toList.length) else none
  | blank, rest => (blankLength? rest).map (Kind.blank, ·)
  | identifier, rest => (identifierLength? rest).map (Kind.identifier, ·)

/-- The rules of the language, in the order in which they are tried. -/
def all : List Rule :=
  [lineComment, blockComment, word Kind.reserved, word Kind.typeNames, word Kind.truthValues, float,
   integer, text] ++ Kind.signs.map (fun s => sign s.1 s.2) ++ [blank, identifier]

/-- What the first rule that finds a token at the front of the text finds there. -/
def firstMatch? (rest : List Char) : Option (Kind × Nat) :=
  all.findSome? (·.match? rest)

/-! ### The length of a match

A rule of the language finds at least one character, and no more than there are. -/

private theorem length_takeWhile_le (p : Char → Bool) (rest : List Char) :
  (rest.takeWhile p).length ≤ rest.length
  := (List.takeWhile_prefix p).length_le

private theorem length_takeWhile_add_dropWhile (p : Char → Bool) (rest : List Char) :
  (rest.takeWhile p).length + (rest.dropWhile p).length = rest.length
  := by
  rw [← List.length_append, List.takeWhile_append_dropWhile]

theorem commentClose?_le {rest : List Char} {n : Nat} (h : commentClose? rest = some n) :
  n ≤ rest.length
  := by
  induction rest using commentClose?.induct generalizing n with
  | case1 => simp [commentClose?] at h
  | case2 =>
    obtain rfl := Option.some.inj h
    simp
  | case3 c rest hc ih =>
    rw [commentClose?, Option.map_eq_some_iff] at h
    · obtain ⟨m, hm, rfl⟩ := h
      have := ih hm
      simp only [List.length_cons]
      omega
    · exact hc

theorem lineCommentLength?_bounds {rest : List Char} {n : Nat}
    (h : lineCommentLength? rest = some n) :
  0 < n ∧ n ≤ rest.length
  := by
  unfold lineCommentLength? at h
  split at h
  · rename_i rest
    obtain rfl := Option.some.inj h
    have := length_takeWhile_le (· != '\n') rest
    simp only [List.length_cons]
    omega
  · simp at h

theorem blockCommentLength?_bounds {rest : List Char} {n : Nat}
    (h : blockCommentLength? rest = some n) :
  0 < n ∧ n ≤ rest.length
  := by
  unfold blockCommentLength? at h
  split at h
  · obtain ⟨m, hm, rfl⟩ := Option.map_eq_some_iff.mp h
    have := commentClose?_le hm
    simp only [List.length_cons]
    omega
  · simp at h

theorem runLength?_eq_some {p : Char → Bool} {rest : List Char} {n : Nat}
    (h : runLength? p rest = some n) :
  0 < n ∧ n = (rest.takeWhile p).length
  := by
  unfold runLength? at h
  split at h
  · simp at h
  · rename_i hempty
    obtain rfl := Option.some.inj h
    exact ⟨List.length_pos_iff.mpr (by simpa using hempty), rfl⟩

theorem runLength?_bounds {p : Char → Bool} {rest : List Char} {n : Nat}
    (h : runLength? p rest = some n) :
  0 < n ∧ n ≤ rest.length
  := by
  obtain ⟨hpos, rfl⟩ := runLength?_eq_some h
  exact ⟨hpos, length_takeWhile_le p rest⟩

theorem floatLength?_bounds {rest : List Char} {n : Nat} (h : floatLength? rest = some n) :
  0 < n ∧ n ≤ rest.length
  := by
  unfold floatLength? at h
  split at h
  · rename_i whole after hwhole hrest
    obtain ⟨fraction, hfraction, rfl⟩ := Option.map_eq_some_iff.mp h
    have hw := runLength?_eq_some hwhole
    have hf := runLength?_bounds hfraction
    have hlength := length_takeWhile_add_dropWhile Char.isDigit rest
    rw [hrest, List.length_cons] at hlength
    omega
  · simp at h

theorem textLength?_bounds {rest : List Char} {n : Nat} (h : textLength? rest = some n) :
  0 < n ∧ n ≤ rest.length
  := by
  unfold textLength? at h
  split at h
  · rename_i rest
    split at h
    · rename_i hclose
      obtain rfl := Option.some.inj h
      have hlength := length_takeWhile_add_dropWhile insideText rest
      obtain ⟨after, hafter⟩ : ∃ after, rest.dropWhile insideText = '"' :: after := by
        cases hd : rest.dropWhile insideText with
        | nil => simp [hd] at hclose
        | cons c after => exact ⟨after, by simp_all⟩
      rw [hafter, List.length_cons] at hlength
      simp only [List.length_cons]
      omega
    · simp at h
  · simp at h

theorem identifierLength?_bounds {rest : List Char} {n : Nat}
    (h : identifierLength? rest = some n) :
  0 < n ∧ n ≤ rest.length
  := by
  cases rest with
  | nil => simp [identifierLength?] at h
  | cons c rest =>
    rw [identifierLength?] at h
    split at h
    · obtain rfl := Option.some.inj h
      have := length_takeWhile_le continuesIdentifier rest
      simp only [List.length_cons]
      omega
    · simp at h

theorem wordAt?_bounds {words : List (String × Kind)} {rest : List Char} {word : String × Kind}
    (h : wordAt? words rest = some word) :
  word ∈ words ∧ word.1.toList.length ≤ rest.length
  := by
  refine ⟨List.mem_of_find?_eq_some h, ?_⟩
  have hfound := List.find?_some h
  simp only [Bool.and_eq_true, List.isPrefixOf_iff_prefix] at hfound
  exact hfound.1.length_le

/-- The words and the signs of the language have characters. -/
theorem length_pos_of_mem_words :
  ∀ word ∈ Kind.reserved ++ Kind.typeNames ++ Kind.truthValues ++ Kind.signs,
    0 < word.1.toList.length
  := by
  decide

theorem match?_bounds {rule : Rule} (h : rule ∈ all) {rest : List Char} {kind : Kind} {n : Nat}
    (hmatch : rule.match? rest = some (kind, n)) :
  0 < n ∧ n ≤ rest.length
  := by
  have hwords := length_pos_of_mem_words
  simp only [List.mem_append] at hwords
  cases rule with
  | lineComment =>
    simp only [match?, Option.map_eq_some_iff, Prod.mk.injEq] at hmatch
    obtain ⟨m, hm, _, rfl⟩ := hmatch
    exact lineCommentLength?_bounds hm
  | blockComment =>
    simp only [match?, Option.map_eq_some_iff, Prod.mk.injEq] at hmatch
    obtain ⟨m, hm, _, rfl⟩ := hmatch
    exact blockCommentLength?_bounds hm
  | word words =>
    simp only [match?, Option.map_eq_some_iff, Prod.mk.injEq] at hmatch
    obtain ⟨word, hword, _, rfl⟩ := hmatch
    have hbounds := wordAt?_bounds hword
    refine ⟨hwords word ?_, hbounds.2⟩
    simp only [all, List.mem_append, List.mem_cons, List.mem_map, List.not_mem_nil, or_false,
      reduceCtorEq, false_or, and_false, exists_false, Rule.word.injEq] at h
    rcases h with rfl | rfl | rfl <;> simp [hbounds.1]
  | float =>
    simp only [match?, Option.map_eq_some_iff, Prod.mk.injEq] at hmatch
    obtain ⟨m, hm, _, rfl⟩ := hmatch
    exact floatLength?_bounds hm
  | integer =>
    simp only [match?, Option.map_eq_some_iff, Prod.mk.injEq] at hmatch
    obtain ⟨m, hm, _, rfl⟩ := hmatch
    exact runLength?_bounds hm
  | text =>
    simp only [match?, Option.map_eq_some_iff, Prod.mk.injEq] at hmatch
    obtain ⟨m, hm, _, rfl⟩ := hmatch
    exact textLength?_bounds hm
  | sign s k =>
    simp only [match?] at hmatch
    split at hmatch
    · rename_i hfront
      simp only [Option.some.injEq, Prod.mk.injEq] at hmatch
      obtain ⟨_, rfl⟩ := hmatch
      refine ⟨?_, (List.isPrefixOf_iff_prefix.mp hfront).length_le⟩
      simp only [all, List.mem_append, List.mem_cons, List.mem_map, List.not_mem_nil, or_false,
        reduceCtorEq, false_or, sign.injEq] at h
      obtain ⟨word, hword, rfl, rfl⟩ := h
      exact hwords word (.inr hword)
    · simp at hmatch
  | blank =>
    simp only [match?, Option.map_eq_some_iff, Prod.mk.injEq] at hmatch
    obtain ⟨m, hm, _, rfl⟩ := hmatch
    exact runLength?_bounds hm
  | identifier =>
    simp only [match?, Option.map_eq_some_iff, Prod.mk.injEq] at hmatch
    obtain ⟨m, hm, _, rfl⟩ := hmatch
    exact identifierLength?_bounds hm

/-- The first rule that finds a token finds at least one character, and no more than there are.
-/
theorem firstMatch?_bounds {rest : List Char} {kind : Kind} {n : Nat}
    (h : firstMatch? rest = some (kind, n)) :
  0 < n ∧ n ≤ rest.length
  := by
  obtain ⟨_, rule, _, happly, hmatch, _⟩ := List.findSome?_eq_some_iff.mp h
  exact match?_bounds (by simp [happly]) hmatch

end Rule

end Mientras
