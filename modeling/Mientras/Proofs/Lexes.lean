import Mathlib.Tactic.Common
import Mientras.Proofs.Lexeme
import Mientras.Python.Style

/-!
# Texts made of lexemes

`Lexes text lexemes` says that the text is read as the lexemes wherever a delimiter or nothing
follows it.  Texts that are made of proper lexemes, parentheses and spaces are read so: a lexeme
keeps apart from the next where a space, a parenthesis or a comma stands between them.
-/

namespace Mientras

open Text Rule

/-- The text is read as the lexemes wherever a delimiter or nothing follows it. -/
def Lexes (text : List Char) (lexemes : List Lexeme) : Prop :=
  ∀ ⦃rest : List Char⦄ ⦃more : List Lexeme⦄, Delimited rest → Scans rest more →
    Scans (text ++ rest) (lexemes ++ more)

/-- The text starts with a character that is not a blank. -/
def StartsPlain (text : List Char) : Prop :=
  ∃ c ∈ text.head?, isBlank c = false

instance (text : List Char) : Decidable (StartsPlain text) :=
  decidable_of_iff (text.head?.any (!isBlank ·) = true) (by simp [StartsPlain, Option.any_eq_true])

/-! ### Single lexemes -/

theorem Lexeme.Proper.lexes {lexeme : Lexeme} (h : lexeme.Proper) :
  Lexes lexeme.text [lexeme]
  := by
  intro rest more hrest hscans
  apply Scans.cons (h.fronts hrest) hscans

/-- A proper lexeme does not start with a blank. -/
theorem Lexeme.Proper.startsPlain {lexeme : Lexeme} (h : lexeme.Proper) :
  StartsPlain lexeme.text
  := by
  have hfronts := h.fronts (show Delimited [] by simp [Delimited])
  obtain ⟨c, text, htext⟩ := List.exists_cons_of_ne_nil hfronts.text_ne_nil
  have hc : c ∈ lexeme.text.head? := by rw [htext]; rfl
  use c, hc
  by_contra hblank
  have hfound := hfronts.2
  rw [List.append_nil, firstMatch?_of_blank hc (by simpa using hblank)] at hfound
  obtain ⟨n, _, hkind⟩ := Option.map_eq_some_iff.mp hfound
  have htrivia := h.not_trivia
  rw [← (Prod.mk.inj hkind).1] at htrivia
  simp [Kind.isTrivia] at htrivia

theorem proper_sign {sign : String × Kind} (h : sign ∈ Kind.signs) :
  Lexeme.Proper ⟨sign.2, sign.1⟩
  := by
  have hkinds : ∀ sign ∈ Kind.signs, sign.2.isTrivia = false ∧ sign.2 ≠ .identifier := by decide
  constructor
  case written => apply Written.sign h
  case not_trivia => apply (hkinds sign h).1
  case not_word =>
    intro hkind
    exact absurd hkind (hkinds sign h).2

/-- A name is a proper lexeme if it starts with a letter, goes on with letters, digits and
underscores, and is not a word of the language. -/
theorem proper_name {name : String} (c : Char) (text : List Char) (hname : name.toList = c :: text)
    (hc : c.isAlpha = true) (htext : text.all continuesIdentifier = true)
    (hword : ∀ word ∈ Kind.words, word.1.toList ≠ name.toList) :
  Lexeme.Proper ⟨.identifier, name⟩
  := by
  constructor
  case written =>
    rw [Lexeme.text, hname]
    apply Written.identifier hc (List.all_eq_true.mp htext)
  case not_trivia => rfl
  case not_word =>
    intro _
    apply hword

/-! ### Lexemes one after the other -/

theorem lexes_nil :
  Lexes [] []
  := by
  intro rest more _ hscans
  exact hscans

theorem Delimited.append {first second : List Char} (h : Delimited first) (hs : Delimited second) :
  Delimited (first ++ second)
  := by
  cases first with
  | nil => exact hs
  | cons c first => exact h

theorem delimited_cons {c : Char} (h : delimits c = true) (text : List Char) :
  Delimited (c :: text)
  := by
  intro d hd
  obtain rfl := Option.some.inj hd
  exact h

/-- A text may be followed by another that is empty or starts with a delimiter. -/
theorem Lexes.append {first second : List Char} {lexemes others : List Lexeme}
    (h : Lexes first lexemes) (hs : Lexes second others) (hdelimited : Delimited second) :
  Lexes (first ++ second) (lexemes ++ others)
  := by
  intro rest more hrest hscans
  rw [List.append_assoc, List.append_assoc]
  apply h (hdelimited.append hrest) (hs hrest hscans)

theorem StartsPlain.append {first : List Char} (h : StartsPlain first) (second : List Char) :
  StartsPlain (first ++ second)
  := by
  obtain ⟨c, hc, hblank⟩ := h
  exact ⟨c, List.mem_head?_append_of_mem_head? hc, hblank⟩

/-- A space may stand before a text that does not start with a blank. -/
theorem Lexes.space {text : List Char} {lexemes : List Lexeme} (h : Lexes text lexemes)
    (hplain : StartsPlain text) :
  Lexes (' ' :: text) (⟨.blank, " "⟩ :: lexemes)
  := by
  intro rest more hrest hscans
  have hfronts : Lexeme.Fronts ⟨.blank, " "⟩ (text ++ rest) := by
    apply fronts_blank
    · simp
    · apply List.all_eq_true.mp
      decide
    · obtain ⟨c, hc, hblank⟩ := hplain.append rest
      intro d hd
      obtain rfl := Option.mem_unique hc hd
      exact hblank
  apply Scans.cons hfronts (h hrest hscans)

/-- An opening parenthesis may stand before every text. -/
theorem Lexes.openParen {text : List Char} {lexemes : List Lexeme} (h : Lexes text lexemes) :
  Lexes ('(' :: text) (⟨.openParen, "("⟩ :: lexemes)
  := by
  intro rest more hrest hscans
  apply Scans.cons (fronts_openParen _) (h hrest hscans)

/-- A closing parenthesis may stand after every text. -/
theorem Lexes.closeParen {text : List Char} {lexemes : List Lexeme} (h : Lexes text lexemes) :
  Lexes (text ++ [')']) (lexemes ++ [⟨.closeParen, ")"⟩])
  := by
  have hclose : (")", Kind.closeParen) ∈ Kind.signs := by decide
  apply h.append (proper_sign hclose).lexes
  apply delimited_cons
  decide

/-- A comma and a space may stand before a text that does not start with a blank. -/
theorem Lexes.comma {text : List Char} {lexemes : List Lexeme} (h : Lexes text lexemes)
    (hplain : StartsPlain text) :
  Lexes (',' :: ' ' :: text) (⟨.comma, ","⟩ :: ⟨.blank, " "⟩ :: lexemes)
  := by
  have hcomma : (",", Kind.comma) ∈ Kind.signs := by decide
  apply (proper_sign hcomma).lexes.append (h.space hplain)
  apply delimited_cons
  decide

/-- The texts with commas between them are the first text, and a comma and a space before each of
the others. -/
theorem toList_commaSeparated (text : String) (others : List String) :
  (Python.commaSeparated (text :: others)).toList
    = text.toList ++ others.flatMap fun other => ',' :: ' ' :: other.toList
  := by
  induction others generalizing text with
  | nil => simp [Python.commaSeparated]
  | cons other others ih =>
    rw [Python.commaSeparated, String.toList_append, ih, String.toList_append, List.flatMap_cons]
    · simp
    · simp

end Mientras
