import Mathlib.Tactic.Common
import Mientras.Token.Scanner

/-!
# Scanning with and without trivia

A scanner that keeps blanks and comments takes the same steps as one that does not.  Taking the
blanks and comments out of what the first one found gives the second one, before a step and after
it, and a step that fails says the same of both.  Hence `tokenize` and `tokenizeWithTrivia` agree on
every source (`tokenize_eq_map_withoutTrivia`).
-/

namespace Mientras

/-- The tokens that are neither blanks nor comments. -/
def withoutTrivia (tokens : List Token) : List Token :=
  tokens.filter fun token => token.kind ∉ [.blank, .lineComment, .blockComment]

theorem withoutTrivia_eq_filter (tokens : List Token) :
  withoutTrivia tokens = tokens.filter (!·.kind.isTrivia)
  := by
  apply List.filter_congr
  intro token _
  cases token.kind <;> rfl

namespace Scanner

/-- The scanner that stands at the same place and kept no blanks and comments. -/
def withoutTrivia (scanner : Scanner) : Scanner :=
  { scanner with
    tokens := (Mientras.withoutTrivia scanner.tokens.toList).toArray, keepTrivia := false }

/-- Blanks and comments may be taken out before a token is recorded or after it. -/
theorem withoutTrivia_record (scanner : Scanner) (kind : Kind) (piece rest : List Char) :
  (scanner.record kind piece rest).withoutTrivia = scanner.withoutTrivia.record kind piece rest
  := by
  cases htrivia : kind.isTrivia with
  | true =>
    cases hkeep : scanner.keepTrivia <;>
      simp [record, withoutTrivia, withoutTrivia_eq_filter, pass, htrivia, hkeep]
  | false => simp [record, withoutTrivia, withoutTrivia_eq_filter, pass, htrivia]

/-- A step sees only the place of a scanner. -/
theorem step_withoutTrivia (scanner : Scanner) :
  scanner.withoutTrivia.step = scanner.step.map withoutTrivia
  := by
  have hrest : scanner.withoutTrivia.rest = scanner.rest := rfl
  rw [step, step, hrest]
  split
  · rfl
  · cases Rule.firstMatch? scanner.rest with
    | none => rfl
    | some found =>
      obtain ⟨kind, length⟩ := found
      apply congrArg Except.ok
      symm
      apply withoutTrivia_record

theorem steps_withoutTrivia (count : Nat) (scanner : Scanner) :
  scanner.withoutTrivia.steps count = (scanner.steps count).map withoutTrivia
  := by
  induction count generalizing scanner with
  | zero => rfl
  | succ count ih =>
    have hend : scanner.withoutTrivia.atEnd = scanner.atEnd := rfl
    rw [steps, steps, hend, step_withoutTrivia]
    split
    · rfl
    · cases scanner.step with
      | error fault => rfl
      | ok next => apply ih

end Scanner

/-- Without blanks and comments a source has the tokens that it has with them, less these, at the
same places.  It is refused in both cases or in neither, and for the same fault. -/
theorem tokenize_eq_map_withoutTrivia (source : String) :
  tokenize source = (tokenizeWithTrivia source).map withoutTrivia
  := by
  have hstart : Scanner.start source false = (Scanner.start source true).withoutTrivia := rfl
  have hrun : (Scanner.start source false).run
      = (Scanner.start source true).run.map Scanner.withoutTrivia := by
    rw [hstart]
    apply Scanner.steps_withoutTrivia
  rw [tokenize, tokenizeWithTrivia, scan, scan, hrun]
  cases (Scanner.start source true).run with
  | error fault => rfl
  | ok scanner =>
    -- the end of the input is no trivia
    apply congrArg Except.ok
    simp [Scanner.withoutTrivia, withoutTrivia, Token.endAt]

end Mientras
