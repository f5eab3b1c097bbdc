import Mathlib.Data.List.MinMax
import Mientras.Proofs.Lexeme

/-!
# The first match is the longest

The rules of the language are tried in their order, and the first one that finds a token at the
front of a text is taken.  No other rule finds more there (`length_le_of_firstMatch?`), so that it
makes no difference to take the first of the rules that find the most (`Rule.first?_eq_longest?`):
the order of the rules decides only between tokens of the same length.
-/

namespace Mientras

namespace Rule

open Text

/-- The rules that find a token at the front of the text, in their order, with what they find. -/
def findings (rest : List Char) : List (Rule × Kind × Nat) :=
  all.filterMap fun rule => (rule.match? rest).map (rule, ·)

/-- The first of the rules that find a token, with what it finds. -/
def first? (rest : List Char) : Option (Rule × Kind × Nat) :=
  (findings rest).head?

/-- The first of the rules that find the longest token, with what it finds. -/
def longest? (rest : List Char) : Option (Rule × Kind × Nat) :=
  (findings rest).argmax fun found => found.2.2

/-- What is found by the first of the rules that find the longest token. -/
def longestMatch? (rest : List Char) : Option (Kind × Nat) :=
  (longest? rest).map Prod.snd

theorem mem_findings_iff {rest : List Char} {rule : Rule} {found : Kind × Nat} :
  (rule, found) ∈ findings rest ↔ rule ∈ all ∧ rule.match? rest = some found
  := by
  simp [findings]

theorem firstMatch?_eq_first (rest : List Char) :
  firstMatch? rest = (first? rest).map Prod.snd
  := by
  rw [first?, findings, List.head?_filterMap, firstMatch?, List.map_findSome?]
  congr 1
  funext rule
  cases h : rule.match? rest <;> simp [h]

/-! ### Signs -/

/-- No sign stands at the front of a later one. -/
theorem pairwise_signs :
  Kind.signs.Pairwise fun sign later => sign.1.toList.isPrefixOf later.1.toList = false
  := by
  decide

theorem length_le_two_of_mem_signs :
  ∀ sign ∈ Kind.signs, sign.1.toList.length ≤ 2
  := by
  decide

/-- The first sign that stands at the front of a text is the longest. -/
theorem length_le_of_find?_signs {rest : List Char} {sign first : String × Kind}
    (hsign : sign ∈ Kind.signs) (hfront : sign.1.toList <+: rest)
    (hfirst : Kind.signs.find? (·.1.toList.isPrefixOf rest) = some first) :
  sign.1.toList.length ≤ first.1.toList.length
  := by
  obtain ⟨hstands, before, after, hsigns, hbefore⟩ := List.find?_eq_some_iff_append.mp hfirst
  have hpairwise := pairwise_signs
  rw [hsigns, List.pairwise_append, List.pairwise_cons] at hpairwise
  rw [hsigns, List.mem_append, List.mem_cons] at hsign
  rcases hsign with hsign | rfl | hsign
  · have hnot := hbefore sign hsign
    rw [List.isPrefixOf_iff_prefix.mpr hfront] at hnot
    simp at hnot
  · apply Nat.le_refl
  · have hnot := hpairwise.2.1.1 sign hsign
    rw [List.isPrefixOf_iff_prefix] at hstands
    rcases List.prefix_or_prefix_of_prefix hfront hstands with h | h
    · exact h.length_le
    · rw [List.isPrefixOf_iff_prefix.mpr h] at hnot
      simp at hnot

/-! ### Words, numbers and comments -/

/-- An identifier is no longer than the run of word characters. -/
theorem identifierLength?_le {rest : List Char} {n : Nat} (h : identifierLength? rest = some n) :
  n ≤ (rest.takeWhile isWord).length
  := by
  have hlength : (rest.take n).length = n :=
    List.length_take_of_le (identifierLength?_bounds h).2
  have hrun : rest.takeWhile isWord = rest.take n ++ (rest.drop n).takeWhile isWord := by
    nth_rewrite 1 [← List.take_append_drop n rest]
    apply List.takeWhile_append_of_pos
    apply isWord_of_written_identifier (written_identifier h)
  rw [hrun, List.length_append, hlength]
  apply Nat.le_add_right

/-- A number with a point is longer than the digits before the point. -/
theorem integerLength?_le {rest : List Char} {whole n : Nat} (h : integerLength? rest = some whole)
    (hfloat : floatLength? rest = some n) :
  whole ≤ n
  := by
  rw [floatLength?, h] at hfloat
  split at hfloat
  · rename_i heq _
    obtain rfl := Option.some.inj heq
    obtain ⟨fraction, _, rfl⟩ := Option.map_eq_some_iff.mp hfloat
    omega
  · simp at hfloat

/-- A line comment starts with two slashes. -/
theorem lineCommentLength?_eq_some {rest : List Char} {n : Nat}
    (h : lineCommentLength? rest = some n) :
  ∃ after, rest = '/' :: '/' :: after ∧ (after.takeWhile (· != '\n')).length + 2 = n
  := by
  rw [lineCommentLength?.eq_def] at h
  split at h
  · exact ⟨_, rfl, Option.some.inj h⟩
  · simp at h

/-- A block comment starts with a slash and a star. -/
theorem blockCommentLength?_eq_some {rest : List Char} {n : Nat}
    (h : blockCommentLength? rest = some n) :
  ∃ after m, rest = '/' :: '*' :: after ∧ commentClose? after = some m ∧ m + 2 = n
  := by
  rw [blockCommentLength?.eq_def] at h
  split at h
  · obtain ⟨m, hm, hn⟩ := Option.map_eq_some_iff.mp h
    exact ⟨_, m, rfl, hm, hn⟩
  · simp at h

/-! ### The first match -/

section

variable {c : Char} {rest : List Char} {kind : Kind} {n : Nat}

/-- A character is what its class says. -/
theorem of_classOf (c : Char) :
  (classOf c = .letter → c.isAlpha = true) ∧ (classOf c = .digit → c.isDigit = true)
    ∧ (classOf c = .quote → c = '"') ∧ (classOf c = .blank → isBlank c = true)
  := by
  unfold classOf
  split_ifs <;> simp_all

theorem head_of_match? {rule : Rule} (h : rule ∈ all) {found : Kind × Nat}
    (hmatch : rule.match? rest = some found) :
  ∃ c ∈ rest.head?, rule.firstClass = classOf c
  := by
  cases rest with
  | nil =>
    have hbounds := match?_bounds h (show rule.match? [] = some (found.1, found.2) from hmatch)
    rw [List.length_nil] at hbounds
    omega
  | cons c rest => exact ⟨c, rfl, classOf_of_match? h hmatch⟩

/-- What is found first at a letter is the run of word characters, when that is a word of the
language, and else an identifier. -/
theorem length_of_letter (hc : c ∈ rest.head?) (h : c.isAlpha = true)
    (hfirst : firstMatch? rest = some (kind, n)) :
  n = (rest.takeWhile isWord).length
    ∨ kind = .identifier ∧ identifierLength? rest = some n
      ∧ ∀ word ∈ Kind.words, word.1.toList ≠ rest.takeWhile isWord
  := by
  rw [firstMatch?_of_letter hc h, Option.or_eq_some_iff] at hfirst
  rcases hfirst with hword | ⟨hnone, hidentifier⟩
  · left
    obtain ⟨word, hfind, heq⟩ := Option.map_eq_some_iff.mp hword
    obtain ⟨_, rfl⟩ := Prod.mk.inj heq
    have hrun := List.find?_some hfind
    rw [beq_iff_eq.mp hrun]
  · right
    obtain ⟨rfl, hlength⟩ := map_kind_eq_some hidentifier
    use rfl, hlength
    intro word hword
    have hnot := List.find?_eq_none.mp (Option.map_eq_none_iff.mp hnone) word hword
    simpa using hnot

/-- No rule finds more than the first that finds anything. -/
theorem length_le_of_firstMatch? {rule : Rule} (h : rule ∈ all) {found : Kind × Nat}
    (hmatch : rule.match? rest = some found) (hfirst : firstMatch? rest = some (kind, n)) :
  found.2 ≤ n
  := by
  obtain ⟨kind', m⟩ := found
  obtain ⟨c, hc, hclass⟩ := head_of_match? h hmatch
  obtain ⟨hletter, hdigit, hquote, hblank⟩ := of_classOf c
  have hsame : firstMatch? rest = some (kind', m) → m ≤ n := by
    rw [hfirst]
    intro heq
    exact (Prod.mk.inj (Option.some.inj heq)).2.ge
  -- only rules of one class compete, and most of them are the first of their class to find anything
  cases rule with
  | lineComment =>
    obtain ⟨rfl, hline⟩ := map_kind_eq_some hmatch
    apply hsame
    rw [firstMatch?_of_signClass hc hclass.symm, hline]
    rfl
  | blockComment =>
    obtain ⟨rfl, hblock⟩ := map_kind_eq_some hmatch
    apply hsame
    obtain ⟨after, _, rfl, _⟩ := blockCommentLength?_eq_some hblock
    have hline : lineCommentLength? ('/' :: '*' :: after) = none := rfl
    rw [firstMatch?_of_signClass hc hclass.symm, hline, hblock]
    rfl
  | word words =>
    obtain ⟨found, hfound, heq⟩ := Option.map_eq_some_iff.mp hmatch
    obtain ⟨_, rfl⟩ := Prod.mk.inj heq
    have hmem := mem_words_of_mem_all h
    rw [wordAt?_eq_find? hmem] at hfound
    have hrun : found.1.toList = rest.takeWhile isWord := by
      simpa using List.find?_some hfound
    rcases length_of_letter hc (hletter hclass.symm) hfirst with rfl | ⟨_, _, hnone⟩
    · rw [hrun]
    · exact absurd hrun (hnone found (hmem found (List.mem_of_find?_eq_some hfound)))
  | float =>
    obtain ⟨rfl, hfloat⟩ := map_kind_eq_some hmatch
    apply hsame
    rw [firstMatch?_of_digit hc (hdigit hclass.symm), hfloat]
    rfl
  | integer =>
    obtain ⟨rfl, hinteger⟩ := map_kind_eq_some hmatch
    cases hfloat : floatLength? rest with
    | none =>
      apply hsame
      rw [firstMatch?_of_digit hc (hdigit hclass.symm), hfloat, hinteger]
      rfl
    | some length =>
      rw [firstMatch?_of_digit hc (hdigit hclass.symm), hfloat] at hfirst
      obtain ⟨_, rfl⟩ := Prod.mk.inj (Option.some.inj hfirst)
      apply integerLength?_le hinteger hfloat
  | text =>
    obtain rfl := hquote hclass.symm
    obtain ⟨rfl, htext⟩ := map_kind_eq_some hmatch
    apply hsame
    rw [firstMatch?_of_quote hc, htext]
    rfl
  | sign s k =>
    have hsign := mem_signs_of_mem_all h
    rw [match?] at hmatch
    split at hmatch
    · rename_i hfront
      obtain ⟨_, rfl⟩ := Prod.mk.inj (Option.some.inj hmatch)
      have htwo := length_le_two_of_mem_signs _ hsign
      rw [firstMatch?_of_signClass hc hclass.symm, Option.or_eq_some_iff, Option.or_eq_some_iff]
        at hfirst
      rcases hfirst with hline | ⟨_, hblock | ⟨_, hfirst⟩⟩
      · obtain ⟨_, _, rfl⟩ := lineCommentLength?_eq_some (map_kind_eq_some hline).2
        apply htwo.trans (Nat.le_add_left _ _)
      · obtain ⟨_, _, _, _, rfl⟩ := blockCommentLength?_eq_some (map_kind_eq_some hblock).2
        apply htwo.trans (Nat.le_add_left _ _)
      · obtain ⟨first, hfind, heq⟩ := Option.map_eq_some_iff.mp hfirst
        obtain ⟨_, rfl⟩ := Prod.mk.inj heq
        apply length_le_of_find?_signs hsign (List.isPrefixOf_iff_prefix.mp hfront) hfind
    · simp at hmatch
  | blank =>
    obtain ⟨rfl, hlength⟩ := map_kind_eq_some hmatch
    apply hsame
    rw [firstMatch?_of_blank hc (hblank hclass.symm), hlength]
    rfl
  | identifier =>
    obtain ⟨_, hidentifier⟩ := map_kind_eq_some hmatch
    rcases length_of_letter hc (hletter hclass.symm) hfirst with rfl | ⟨_, hfirst, _⟩
    · apply identifierLength?_le hidentifier
    · rw [hidentifier] at hfirst
      exact (Option.some.inj hfirst).le

end

/-! ### The longest match -/

/-- The first of the items with the greatest measure is the first of all, when no item has a greater
measure than this one. -/
theorem argmax_eq_head? {α : Type} {measure : α → Nat} {items : List α}
    (h : ∀ first ∈ items.head?, ∀ item ∈ items, measure item ≤ measure first) :
  items.argmax measure = items.head?
  := by
  cases items with
  | nil => rfl
  | cons first items =>
    have hfirst : ∀ item ∈ items, measure item ≤ measure first :=
      fun item hitem => h first rfl item (List.mem_cons_of_mem _ hitem)
    rw [List.argmax_cons, List.head?_cons]
    cases hmax : items.argmax measure with
    | none => rfl
    | some item =>
      have hle := hfirst item (List.argmax_mem hmax)
      simp [Nat.not_lt.mpr hle]

/-- The first rule that finds a token is the first of those that find the longest. -/
theorem first?_eq_longest? (rest : List Char) :
  first? rest = longest? rest
  := by
  symm
  apply argmax_eq_head?
  rintro ⟨rule, kind, n⟩ hfirst ⟨other, found⟩ hother
  have hmatch : firstMatch? rest = some (kind, n) := by
    rw [firstMatch?_eq_first, first?, Option.mem_def.mp hfirst]
    rfl
  obtain ⟨hmem, hfound⟩ := mem_findings_iff.mp hother
  apply length_le_of_firstMatch? hmem hfound hmatch

end Rule

namespace Scanner

/-- The scanner after the token that `choose` finds, or the reason why there is none. -/
def stepBy (choose : List Char → Option (Kind × Nat)) (scanner : Scanner) : Except Fault Scanner :=
  if isUnterminated scanner.rest then .error (scanner.fault .unterminated)
  else
    match choose scanner.rest with
    | some (kind, length) =>
      .ok (scanner.record kind (scanner.rest.take length) (scanner.rest.drop length))
    | none => .error (scanner.fault (.unrecognised scanner.char))

theorem step_eq_stepBy (scanner : Scanner) :
  scanner.step = scanner.stepBy Rule.firstMatch?
  := rfl

end Scanner

/-- At the front of every text, the first rule that finds a token finds at least as much as any
other rule.  It is the first of the rules that find the most, and so a scanner takes the same token
whichever of the two it looks for. -/
theorem first_match_is_longest (rest : List Char) :
  (∀ rule ∈ Rule.all, ∀ found ∈ rule.match? rest, ∃ first ∈ Rule.first? rest, found.2 ≤ first.2.2)
    ∧ Rule.first? rest = Rule.longest? rest
    ∧ Rule.firstMatch? rest = Rule.longestMatch? rest
    ∧ ∀ scanner : Scanner, scanner.step = scanner.stepBy Rule.longestMatch?
  := by
  have hmatch : ∀ rest, Rule.firstMatch? rest = Rule.longestMatch? rest := by
    intro rest
    rw [Rule.firstMatch?_eq_first, Rule.first?_eq_longest?]
    rfl
  refine ⟨?_, Rule.first?_eq_longest? rest, hmatch rest, ?_⟩
  · intro rule hrule found hfound
    have hne : Rule.findings rest ≠ [] :=
      List.ne_nil_of_mem (Rule.mem_findings_iff.mpr ⟨hrule, hfound⟩)
    obtain ⟨first, others, hfindings⟩ := List.exists_cons_of_ne_nil hne
    have hfirst : Rule.first? rest = some first := by
      rw [Rule.first?, hfindings]
      rfl
    use first, hfirst
    apply Rule.length_le_of_firstMatch? hrule hfound
    rw [Rule.firstMatch?_eq_first, hfirst]
    rfl
  · intro scanner
    rw [Scanner.step_eq_stepBy, funext hmatch]

/-- The word `sino` is found as an identifier too, which is as long and comes later. -/
theorem first_match_of_sino :
  Rule.identifier.match? "sino(".toList = some (.identifier, 4)
    ∧ (∃ first ∈ Rule.first? "sino(".toList, 4 ≤ first.2.2)
    ∧ Rule.longestMatch? "sino(".toList = some (.sino, 4)
  := by
  obtain ⟨hlongest, _, hfirst, _⟩ := first_match_is_longest "sino(".toList
  refine ⟨by decide, ?_, hfirst.symm.trans (by decide)⟩
  apply hlongest .identifier (by simp [Rule.all]) (.identifier, 4) (by decide)

end Mientras
