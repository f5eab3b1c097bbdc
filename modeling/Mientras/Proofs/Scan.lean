import Mathlib.Tactic.Common
import Mientras.Token.Scanner

/-!
# Scanning as a relation

`Scans text lexemes` says that the text is read as the lexemes, one after the other, where a
`Lexeme` is a token without its place.  It knows nothing of positions, of faults, or of whether
blanks and comments are kept: `placed` gives the lexemes their places, and `scan_eq_ok_iff` says
that scanning succeeds exactly for the texts that are read as some lexemes.
-/

namespace Mientras

/-- A token without its place. -/
structure Lexeme where
  kind : Kind
  value : String
  deriving DecidableEq

namespace Lexeme

/-- The characters of a lexeme. -/
def text (lexeme : Lexeme) : List Char :=
  lexeme.value.toList

/-- The lexeme as a token that starts at the position. -/
def place (lexeme : Lexeme) (position : Position) : Token :=
  ⟨lexeme.kind, lexeme.value, ⟨position, position.past lexeme.text⟩⟩

/-- The lexeme is what is found in front of the text. -/
def Fronts (lexeme : Lexeme) (rest : List Char) : Prop :=
  Scanner.isUnterminated (lexeme.text ++ rest) = false
    ∧ Rule.firstMatch? (lexeme.text ++ rest) = some (lexeme.kind, lexeme.text.length)

theorem Fronts.text_ne_nil {lexeme : Lexeme} {rest : List Char} (h : lexeme.Fronts rest) :
  lexeme.text ≠ []
  := by
  apply List.ne_nil_of_length_pos
  apply (Rule.firstMatch?_bounds h.2).1

end Lexeme

/-- The token without its place. -/
def Token.lexeme (token : Token) : Lexeme :=
  ⟨token.kind, token.value⟩

/-- The text is read as the lexemes. -/
inductive Scans : List Char → List Lexeme → Prop where
  | nil : Scans [] []
  | cons {lexeme : Lexeme} {rest : List Char} {lexemes : List Lexeme}
      (h : lexeme.Fronts rest) (hs : Scans rest lexemes) :
      Scans (lexeme.text ++ rest) (lexeme :: lexemes)

/-- The tokens of lexemes that stand one after the other from the position on, closed by the end of
the input. -/
def placed : Position → List Lexeme → List Token
  | position, [] => [Token.endAt position]
  | position, lexeme :: lexemes =>
    lexeme.place position :: placed (position.past lexeme.text) lexemes

/-- Nothing of the text is lost. -/
theorem Scans.flatMap_text {text : List Char} {lexemes : List Lexeme} (h : Scans text lexemes) :
  lexemes.flatMap Lexeme.text = text
  := by
  induction h with
  | nil => rfl
  | cons _ _ ih => rw [List.flatMap_cons, ih]

/-! ### Single steps -/

namespace Scanner

theorem step_of_fronts {scanner : Scanner} {lexeme : Lexeme} {rest : List Char}
    (hrest : scanner.rest = lexeme.text ++ rest) (h : lexeme.Fronts rest) :
  scanner.step = .ok (scanner.record lexeme.kind lexeme.text rest)
  := by
  obtain ⟨hterminated, hmatch⟩ := h
  rw [← hrest] at hterminated hmatch
  simp only [step, hterminated, hmatch]
  simp [hrest]

theorem exists_fronts_of_step {scanner after : Scanner} (h : scanner.step = .ok after) :
  ∃ lexeme rest, scanner.rest = Lexeme.text lexeme ++ rest ∧ lexeme.Fronts rest
    ∧ after = scanner.record lexeme.kind lexeme.text rest
  := by
  rw [step] at h
  split at h
  · simp at h
  · rename_i hterminated
    split at h
    · rename_i kind length hmatch
      obtain rfl := Except.ok.inj h
      have hbounds := Rule.firstMatch?_bounds hmatch
      use ⟨kind, String.ofList (scanner.rest.take length)⟩, scanner.rest.drop length
      and_intros
      · simp [Lexeme.text]
      · simpa [Lexeme.text] using hterminated
      · simpa [Lexeme.text, hbounds.2] using hmatch
      · simp [Lexeme.text]
    · simp at h

/-- A step fails at a comment without an end, and where no rule finds a token. -/
theorem step_eq_error_iff {scanner : Scanner} {fault : Fault} :
  scanner.step = .error fault
    ↔ isUnterminated scanner.rest = true ∧ fault = scanner.fault .unterminated
      ∨ isUnterminated scanner.rest = false ∧ Rule.firstMatch? scanner.rest = none
        ∧ fault = scanner.fault (.unrecognised scanner.char)
  := by
  rw [step]
  split
  · rename_i hopen
    simp [hopen, eq_comm]
  · rename_i hclosed
    split
    · rename_i hmatch
      simp [hclosed, hmatch]
    · rename_i hmatch
      simp [hclosed, hmatch, eq_comm]

/-- What is recorded of a lexeme is its token, unless it is trivia that is not kept. -/
theorem toList_tokens_record (scanner : Scanner) (lexeme : Lexeme) (rest : List Char) :
  (scanner.record lexeme.kind lexeme.text rest).tokens.toList
    = scanner.tokens.toList
      ++ [lexeme.place scanner.position].filter (scanner.keepTrivia || !·.kind.isTrivia)
  := by
  have hkind : (lexeme.place scanner.position).kind = lexeme.kind := rfl
  rw [record]
  split
  · rename_i h
    rw [List.filter_cons_of_pos (by rwa [hkind])]
    simp [Lexeme.place, Lexeme.text, pass]
  · rename_i h
    rw [List.filter_cons_of_neg (by rwa [hkind])]
    simp [pass]

/-! ### Runs of steps -/

/-- The scanner comes to a place by steps. -/
inductive Reaches : Scanner → Scanner → Prop where
  | refl (scanner : Scanner) : Reaches scanner scanner
  | step {scanner next last : Scanner} (hrest : scanner.rest ≠ []) (h : scanner.step = .ok next)
      (hs : Reaches next last) :
      Reaches scanner last

theorem reaches_of_steps {count : Nat} {scanner last : Scanner}
    (h : scanner.steps count = .ok last) :
  Reaches scanner last
  := by
  induction count generalizing scanner with
  | zero =>
    obtain rfl := Except.ok.inj h
    apply Reaches.refl
  | succ count ih =>
    rw [steps] at h
    split at h
    · obtain rfl := Except.ok.inj h
      apply Reaches.refl
    · rename_i hend
      split at h
      · rename_i hstep
        apply Reaches.step (by simpa [atEnd] using hend) hstep (ih h)
      · cases h

/-- A fault is found at a place where something is left to be read. -/
theorem exists_reaches_of_fault {count : Nat} {scanner : Scanner} {fault : Fault}
    (h : scanner.steps count = .error fault) :
  ∃ stopped, Reaches scanner stopped ∧ stopped.rest ≠ [] ∧ stopped.step = .error fault
  := by
  induction count generalizing scanner with
  | zero => cases h
  | succ count ih =>
    rw [steps] at h
    split at h
    · cases h
    · rename_i hend
      have hrest : scanner.rest ≠ [] := by simpa [atEnd] using hend
      split at h
      · rename_i hstep
        obtain ⟨stopped, hreaches, hstopped⟩ := ih h
        exact ⟨stopped, hreaches.step hrest hstep, hstopped⟩
      · rename_i hstep
        exact ⟨scanner, .refl scanner, hrest, hstep.trans h⟩

/-! ### Whole sources -/

/-- The tokens that are kept, with those that were found before. -/
def closed (scanner : Scanner) (lexemes : List Lexeme) : List Token :=
  scanner.tokens.toList
    ++ (placed scanner.position lexemes).filter (scanner.keepTrivia || !·.kind.isTrivia)

theorem closed_nil (scanner : Scanner) :
  scanner.closed [] = scanner.tokens.toList ++ [Token.endAt scanner.position]
  := by
  simp [closed, placed, Token.endAt, Kind.isTrivia]

theorem closed_record (scanner : Scanner) (lexeme : Lexeme) (rest : List Char)
    (lexemes : List Lexeme) :
  (scanner.record lexeme.kind lexeme.text rest).closed lexemes = scanner.closed (lexeme :: lexemes)
  := by
  rw [closed, toList_tokens_record, position_record, keepTrivia_record, closed, placed,
    List.append_assoc, ← List.filter_append, List.singleton_append]

theorem steps_of_scans {text : List Char} {lexemes : List Lexeme} (h : Scans text lexemes) :
  ∀ {scanner : Scanner} {count : Nat}, scanner.rest = text → text.length ≤ count →
    ∃ after, scanner.steps count = .ok after
      ∧ after.tokens.toList ++ [Token.endAt after.position] = scanner.closed lexemes
  := by
  induction h with
  | nil =>
    intro scanner count hrest _
    use scanner
    constructor
    · cases count with
      | zero => rfl
      | succ count => rw [steps, if_pos (by simp [atEnd, hrest])]
    · rw [closed_nil]
  | @cons lexeme rest lexemes h _ ih =>
    intro scanner count hrest hcount
    have hpos := List.length_pos_iff.mpr h.text_ne_nil
    rw [List.length_append] at hcount
    obtain ⟨count, rfl⟩ : ∃ n, count = n + 1 := ⟨count - 1, by omega⟩
    obtain ⟨after, hafter, htokens⟩ :=
      ih (rest_record scanner lexeme.kind lexeme.text rest) (show rest.length ≤ count by omega)
    use after
    constructor
    · rw [steps, if_neg (by simp [atEnd, hrest, h.text_ne_nil]), step_of_fronts hrest h]
      apply hafter
    · rw [htokens, closed_record]

theorem scans_of_steps {count : Nat} {scanner after : Scanner}
    (hcount : scanner.rest.length ≤ count) (h : scanner.steps count = .ok after) :
  ∃ lexemes, Scans scanner.rest lexemes
    ∧ after.tokens.toList ++ [Token.endAt after.position] = scanner.closed lexemes
  := by
  induction count generalizing scanner with
  | zero =>
    obtain rfl := Except.ok.inj h
    use []
    rw [List.length_eq_zero_iff.mp (Nat.le_zero.mp hcount), closed_nil]
    exact ⟨Scans.nil, rfl⟩
  | succ count ih =>
    rw [steps] at h
    split at h
    · rename_i hend
      obtain rfl := Except.ok.inj h
      use []
      rw [closed_nil, List.isEmpty_iff.mp hend]
      exact ⟨Scans.nil, rfl⟩
    · split at h
      · rename_i next hstep
        have hlength := length_rest_lt_of_step hstep
        obtain ⟨lexeme, rest, hrest, hfronts, rfl⟩ := exists_fronts_of_step hstep
        obtain ⟨lexemes, hscans, htokens⟩ := ih (by omega) h
        use lexeme :: lexemes
        rw [rest_record] at hscans
        rw [htokens, closed_record, hrest]
        exact ⟨Scans.cons hfronts hscans, rfl⟩
      · simp at h

end Scanner

/-- A source is scanned exactly when its text is read as some lexemes. -/
theorem scan_eq_ok_iff {source : String} {keepTrivia : Bool} {tokens : List Token} :
  scan source keepTrivia = .ok tokens
    ↔ ∃ lexemes, Scans source.toList lexemes
        ∧ tokens = (placed .start lexemes).filter (keepTrivia || !·.kind.isTrivia)
  := by
  have hclosed : ∀ lexemes, (Scanner.start source keepTrivia).closed lexemes
      = (placed .start lexemes).filter (keepTrivia || !·.kind.isTrivia) := fun _ => rfl
  constructor
  · intro h
    rw [scan] at h
    cases hrun : (Scanner.start source keepTrivia).run with
    | error fault => simp [hrun, Except.map] at h
    | ok after =>
      obtain ⟨lexemes, hscans, htokens⟩ := Scanner.scans_of_steps (Nat.le_refl _) hrun
      rw [hrun] at h
      obtain rfl := Except.ok.inj h
      exact ⟨lexemes, hscans, htokens.trans (hclosed lexemes)⟩
  · rintro ⟨lexemes, hscans, rfl⟩
    obtain ⟨after, hafter, htokens⟩ := Scanner.steps_of_scans hscans
      (show (Scanner.start source keepTrivia).rest = source.toList from rfl) (Nat.le_refl _)
    have hrun : (Scanner.start source keepTrivia).run = .ok after := hafter
    rw [scan, hrun, ← hclosed, ← htokens]
    rfl

end Mientras
