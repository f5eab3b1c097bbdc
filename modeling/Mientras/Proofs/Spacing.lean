import Mathlib.Tactic.Common
import Mientras.Compile
import Mientras.Proofs.Lexes
import Mientras.Proofs.Lookahead

/-!
# Blanks between tokens

A `Spacing` gives the blanks before, between and after a number of texts, and `fill` sets the texts
among them.  When the texts are those of the tokens of a source, the new text has the same tokens
but for their places (`tokenize_fill`).  Since a program is read from its tokens without regard to
their places (`corresponds_ofTokens`), the new text compiles as the source does.
-/

namespace Mientras

open Text

/-- Blanks before the first of `count` texts and after each of them.  Between two texts there is at
least one. -/
structure Spacing (count : Nat) where
  first : String
  after : List String
  length_after : after.length = count
  first_blank : ∀ c ∈ first.toList, isBlank c = true
  after_blank : ∀ blanks ∈ after, ∀ c ∈ blanks.toList, isBlank c = true
  apart : ∀ blanks ∈ after.dropLast, blanks ≠ ""

/-- The texts, with the first of the separators before them and one of the others after each. -/
def interleave : String → List String → List String → String
  | first, text :: texts, next :: after => first ++ text ++ interleave next texts after
  | first, _, _ => first

/-- The texts among the blanks. -/
def Spacing.fill {count : Nat} (spacing : Spacing count) (texts : List String) : String :=
  interleave spacing.first texts spacing.after

/-! ### Scanning -/

theorem scans_blanks {blanks : String} (hblanks : ∀ c ∈ blanks.toList, isBlank c = true)
    {text : List Char} (htext : ∀ c ∈ text.head?, isBlank c = false) {lexemes : List Lexeme}
    (h : Scans text lexemes) :
  ∃ all, Scans (blanks.toList ++ text) all
    ∧ all.filter (!·.kind.isTrivia) = lexemes.filter (!·.kind.isTrivia)
  := by
  by_cases hempty : blanks.toList = []
  · use lexemes
    rw [hempty]
    exact ⟨h, rfl⟩
  · use ⟨.blank, blanks⟩ :: lexemes
    exact ⟨Scans.cons (fronts_blank hempty hblanks htext) h, rfl⟩

theorem delimited_blanks {blanks : String} (hblanks : ∀ c ∈ blanks.toList, isBlank c = true)
    {text : List Char} (htext : text = [] ∨ blanks ≠ "") :
  Delimited (blanks.toList ++ text)
  := by
  intro c hc
  cases hlist : blanks.toList with
  | nil =>
    have hempty : blanks = "" := String.toList_eq_nil_iff.mp hlist
    rw [hlist] at hc
    simp [htext.resolve_right (by simp [hempty])] at hc
  | cons d rest =>
    rw [hlist] at hc
    obtain rfl := Option.some.inj hc
    simp [delimits, hblanks d (by simp [hlist])]

/-- Lexemes that are kept apart by blanks are found again. -/
theorem scans_interleave {lexemes : List Lexeme} (hlexemes : ∀ lexeme ∈ lexemes, lexeme.Proper) :
  ∀ {first : String} {after : List String}, after.length = lexemes.length →
    (∀ c ∈ first.toList, isBlank c = true) →
    (∀ blanks ∈ after, ∀ c ∈ blanks.toList, isBlank c = true) →
    (∀ blanks ∈ after.dropLast, blanks ≠ "") →
    ∃ all, Scans (interleave first (lexemes.map Lexeme.value) after).toList all
      ∧ all.filter (!·.kind.isTrivia) = lexemes
  := by
  induction lexemes with
  | nil =>
    intro first after hlength hfirst _ _
    have hnil : ∀ c ∈ ([] : List Char).head?, isBlank c = false := by simp
    obtain ⟨all, hscans, hall⟩ := scans_blanks hfirst hnil Scans.nil
    use all, List.append_nil first.toList ▸ hscans, hall
  | cons lexeme lexemes ih =>
    intro first after hlength hfirst hafter hapart
    obtain ⟨next, after, rfl⟩ := List.exists_cons_of_length_eq_add_one hlength
    obtain ⟨hlexeme, hlexemes⟩ := List.forall_mem_cons.mp hlexemes
    obtain ⟨hnext, hafter⟩ := List.forall_mem_cons.mp hafter
    have hdropLast : ∀ blanks ∈ after.dropLast, blanks ≠ "" := by
      intro blanks hblanks
      apply hapart
      cases after with
      | nil => simp at hblanks
      | cons => apply List.mem_cons_of_mem _ hblanks
    obtain ⟨others, hscans, hothers⟩ :=
      ih hlexemes (Nat.succ.inj hlength) hnext hafter hdropLast
    have hdelimited : Delimited (interleave next (lexemes.map Lexeme.value) after).toList := by
      cases lexemes with
      | nil =>
        have := delimited_blanks hnext (.inl rfl)
        rwa [List.append_nil] at this
      | cons other others =>
        obtain ⟨_, after, rfl⟩ := List.exists_cons_of_length_eq_add_one (Nat.succ.inj hlength)
        rw [List.map_cons, interleave, String.append_assoc, String.toList_append]
        apply delimited_blanks hnext (.inr _)
        apply hapart next List.mem_cons_self
    have hplain :
        ∀ c ∈ (lexeme.text ++ (interleave next (lexemes.map Lexeme.value) after).toList).head?,
          isBlank c = false := by
      intro c hc
      obtain ⟨d, hd, hblank⟩ := hlexeme.startsPlain.append _
      obtain rfl := Option.mem_unique hd hc
      exact hblank
    obtain ⟨all, hall, hfilter⟩ :=
      scans_blanks hfirst hplain (Scans.cons (hlexeme.fronts hdelimited) hscans)
    use all
    constructor
    · rw [List.map_cons, interleave, String.toList_append, String.toList_append, List.append_assoc]
      exact hall
    · rw [hfilter, List.filter_cons_of_pos (by simp [hlexeme.not_trivia]), hothers]

/-- The tokens of a source, set among other blanks, are found again. -/
theorem tokenize_fill {source : String} {tokens : List Token} (h : tokenize source = .ok tokens)
    (spacing : Spacing (tokens.filter (!·.isEnd)).length) :
  ∃ others, tokenize (spacing.fill ((tokens.filter (!·.isEnd)).map (·.value))) = .ok others
    ∧ others.map Token.lexeme = tokens.map Token.lexeme
  := by
  obtain ⟨lexemes, hscans, rfl⟩ := tokenize_eq_ok_iff.mp h
  have hfilter : (kept .start lexemes ++ [Token.endAt (Position.start.past source.toList)]).filter
      (!·.isEnd) = kept .start lexemes := by
    rw [List.filter_append, List.filter_eq_self.mpr (by simpa using hscans.isEnd_kept .start)]
    simp
  obtain ⟨first, after, hlength, hfirst, hafter, hapart⟩ := spacing
  dsimp only [Spacing.fill]
  rw [hfilter] at hlength ⊢
  have hproper : ∀ lexeme ∈ (kept .start lexemes).map Token.lexeme, lexeme.Proper := by
    rw [List.forall_mem_map]
    intro token htoken
    apply hscans.proper_of_mem_kept htoken
  obtain ⟨all, hall, hlexemes⟩ :=
    scans_interleave hproper (by simp [hlength]) hfirst hafter hapart
  rw [List.map_map] at hall
  refine ⟨_, tokenize_eq_ok_iff.mpr ⟨all, hall, rfl⟩, ?_⟩
  rw [List.map_append, List.map_append, map_lexeme_kept, hlexemes]
  rfl

/-! ### Compiling -/

/-- The tokens of a source, set among other blanks, compile as the source does. -/
theorem corresponds_compile {source other : String} {tokens others : List Token}
    (h : tokenize source = .ok tokens) (h' : tokenize other = .ok others)
    (hlexemes : others.map Token.lexeme = tokens.map Token.lexeme) (style : Style) :
  Corresponds tokens others (compile style source) (compile style other)
  := by
  have hahead : (Cursor.ofTokens tokens).ahead = (Cursor.ofTokens others).ahead := by
    rw [Cursor.ahead, Cursor.ahead, toEnd_of_tokenize h, toEnd_of_tokenize h', hlexemes]
  have hprogram := corresponds_ofTokens hahead
  rw [toEnd_of_tokenize h, toEnd_of_tokenize h'] at hprogram
  rw [compile, compile, Program.ofSource, Program.ofSource, h, h']
  apply hprogram.map

/-- Blanks may stand in any way between the tokens of a source, as long as there is one between each
two of them: the tokens stay the same, and so does what the source compiles to or the token at
which it is refused.  No identifier among the tokens is a word of the language. -/
theorem corresponds_fill {source : String} {tokens : List Token}
    (h : tokenize source = .ok tokens) :
  (∀ spacing : Spacing (tokens.filter (!·.isEnd)).length,
    ∃ others, tokenize (spacing.fill ((tokens.filter (!·.isEnd)).map (·.value))) = .ok others
      ∧ others.map Token.lexeme = tokens.map Token.lexeme
      ∧ ∀ style, Corresponds tokens others (compile style source)
          (compile style (spacing.fill ((tokens.filter (!·.isEnd)).map (·.value)))))
    ∧ ∀ token ∈ tokens, token.kind = .identifier → ∀ word ∈ Kind.words, word.1 ≠ token.value
  := by
  constructor
  · intro spacing
    obtain ⟨others, hothers, hlexemes⟩ := tokenize_fill h spacing
    use others, hothers, hlexemes
    intro style
    apply corresponds_compile h hothers hlexemes
  · intro token htoken hkind word hword hvalue
    obtain ⟨lexemes, hscans, rfl⟩ := tokenize_eq_ok_iff.mp h
    rcases List.mem_append.mp htoken with htoken | htoken
    · apply (hscans.proper_of_mem_kept htoken).not_word hkind word hword
      rw [hvalue]
      rfl
    · rw [List.mem_singleton.mp htoken] at hkind
      contradiction

/-- A comparison without its right side, written without blanks and then with some, is refused at
the semicolon both times. -/
theorem corresponds_fill_comparison :
  ∃ tokens others, tokenize "x=a<=/**/;" = .ok tokens
    ∧ tokenize "\tx =\n a <= ;" = .ok others
    ∧ others.map Token.lexeme = tokens.map Token.lexeme
    ∧ ∀ style, Corresponds tokens others (compile style "x=a<=/**/;")
        (compile style "\tx =\n a <= ;")
  := by
  have htokens : tokenize "x=a<=/**/;" = .ok
      [⟨.identifier, "x", ⟨⟨0, 1, 1⟩, ⟨1, 1, 2⟩⟩⟩, ⟨.assignment, "=", ⟨⟨1, 1, 2⟩, ⟨2, 1, 3⟩⟩⟩,
        ⟨.identifier, "a", ⟨⟨2, 1, 3⟩, ⟨3, 1, 4⟩⟩⟩, ⟨.lessEquals, "<=", ⟨⟨3, 1, 4⟩, ⟨5, 1, 6⟩⟩⟩,
        ⟨.semicolon, ";", ⟨⟨9, 1, 10⟩, ⟨10, 1, 11⟩⟩⟩, Token.endAt ⟨10, 1, 11⟩] := by
    decide +kernel
  have hblank :
      ([" ", "\n ", " ", " ", ""].all fun blanks => blanks.toList.all isBlank) = true := by
    decide
  let spacing : Spacing 5 :=
    { first := "\t", after := [" ", "\n ", " ", " ", ""]
      length_after := rfl
      first_blank := List.all_eq_true.mp (by decide)
      after_blank := fun blanks h => List.all_eq_true.mp (List.all_eq_true.mp hblank blanks h)
      apart := by decide }
  obtain ⟨others, hothers, hlexemes, hcompile⟩ := (corresponds_fill htokens).1 spacing
  exact ⟨_, others, htokens, hothers, hlexemes, hcompile⟩

end Mientras
