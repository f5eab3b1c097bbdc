import Mathlib.Tactic.Common
import Mientras.Proofs.Steady
import Mientras.Proofs.Tracking

/-!
# Scanning up to a fault

A scan that fails has found some lexemes up to a place, and `ScansTo rest text lexemes` says so
without positions and tokens.  These lexemes are found again when the source is cut off at the place
(`ScansTo.cut_nil`) or anywhere after it (`ScansTo.cut`), since cutting does not change what is
found before the cut.  Hence a source is scanned up to the fault and, where the fault is a character
that starts no token, no further (`scanned_up_to_fault`).
-/

namespace Mientras

open Text

/-! ### Scanning to a place -/

/-- The text is read as the lexemes up to the rest. -/
inductive ScansTo (rest : List Char) : List Char → List Lexeme → Prop where
  | nil : ScansTo rest rest []
  | cons {lexeme : Lexeme} {text : List Char} {lexemes : List Lexeme} (h : lexeme.Fronts text)
      (hs : ScansTo rest text lexemes) :
      ScansTo rest (lexeme.text ++ text) (lexeme :: lexemes)

namespace ScansTo

variable {rest more text : List Char} {lexemes : List Lexeme}

theorem text_eq (h : ScansTo rest text lexemes) :
  text = lexemes.flatMap Lexeme.text ++ rest
  := by
  induction h with
  | nil => rfl
  | cons _ _ ih => rw [List.flatMap_cons, List.append_assoc, ← ih]

/-- The lexemes before a place are found when only some of what follows the place is there. -/
theorem cut (h : ScansTo (rest ++ more) text lexemes) (hne : rest ≠ []) :
  ScansTo rest (lexemes.flatMap Lexeme.text ++ rest) lexemes
  := by
  induction h with
  | nil => apply ScansTo.nil
  | @cons lexeme text lexemes h hs ih =>
    rw [hs.text_eq, ← List.append_assoc] at h
    rw [List.flatMap_cons, List.append_assoc]
    apply ScansTo.cons (h.cut (by simp [hne])) ih

/-- The lexemes before a place are found when nothing follows the place, but that the last of them
may turn from an identifier into a word of the language. -/
theorem cut_nil (h : ScansTo more text lexemes) :
  ∃ read, Scans (lexemes.flatMap Lexeme.text) read
    ∧ (read = lexemes ∨ ∃ front value kind, lexemes = front ++ [⟨.identifier, value⟩]
        ∧ read = front ++ [⟨kind, value⟩] ∧ (value, kind) ∈ Kind.words)
  := by
  induction h with
  | nil => exact ⟨[], Scans.nil, .inl rfl⟩
  | @cons lexeme text lexemes h hs ih =>
    cases hs with
    | nil =>
      obtain ⟨kind, hfronts, hkind⟩ := h.cut_nil
      use [⟨kind, lexeme.value⟩]
      constructor
      · rw [List.flatMap_singleton]
        have hscans := Scans.cons hfronts Scans.nil
        rwa [List.append_nil] at hscans
      · obtain ⟨kind', value⟩ := lexeme
        rcases hkind with rfl | ⟨rfl, hword⟩
        · exact .inl rfl
        · exact .inr ⟨[], value, kind, rfl, rfl, hword⟩
    | @cons next text lexemes hnext hs =>
      obtain ⟨read, hscans, hread⟩ := ih
      use lexeme :: read
      constructor
      · rw [(ScansTo.cons hnext hs).text_eq] at h
        have hne : (next :: lexemes).flatMap Lexeme.text ≠ [] := by
          simp [hnext.text_ne_nil]
        apply Scans.cons (h.cut hne) hscans
      · rcases hread with rfl | ⟨front, value, kind, hlexemes, rfl, hword⟩
        · exact .inl rfl
        · exact .inr ⟨lexeme :: front, value, kind, by rw [hlexemes]; rfl, rfl, hword⟩

end ScansTo

namespace Scanner

theorem Reaches.exists_lexemes {scanner last : Scanner} (h : Reaches scanner last) :
  ∃ lexemes, ScansTo last.rest scanner.rest lexemes
    ∧ last.position = scanner.position.past (lexemes.flatMap Lexeme.text)
    ∧ last.tokens.toList ++ [Token.endAt last.position] = scanner.closed lexemes
  := by
  induction h with
  | refl scanner => exact ⟨[], .nil, rfl, scanner.closed_nil.symm⟩
  | @step scanner next last hrest hstep hs ih =>
    obtain ⟨lexeme, rest, htext, hfronts, rfl⟩ := exists_fronts_of_step hstep
    obtain ⟨lexemes, hscans, hposition, htokens⟩ := ih
    rw [rest_record] at hscans
    use lexeme :: lexemes
    rw [htext, List.flatMap_cons, Position.past_append, hposition, position_record]
    refine ⟨.cons hfronts hscans, rfl, ?_⟩
    rw [← closed_record scanner lexeme rest lexemes, ← htokens, hposition, position_record]

theorem exists_reaches_of_scansTo {rest text : List Char} {lexemes : List Lexeme}
    (h : ScansTo rest text lexemes) :
  ∀ {scanner : Scanner}, scanner.rest = text → ∃ last, Reaches scanner last ∧ last.rest = rest
    ∧ last.position = scanner.position.past (lexemes.flatMap Lexeme.text)
  := by
  induction h with
  | nil =>
    intro scanner hrest
    exact ⟨scanner, .refl scanner, hrest, rfl⟩
  | @cons lexeme text lexemes h hs ih =>
    intro scanner hrest
    obtain ⟨last, hreaches, hlast, hposition⟩ :=
      ih (rest_record scanner lexeme.kind lexeme.text text)
    refine ⟨last, hreaches.step ?_ (step_of_fronts hrest h), hlast, ?_⟩
    · simp [hrest, h.text_ne_nil]
    · rw [hposition, position_record, List.flatMap_cons, Position.past_append]

theorem Reaches.finish_eq {scanner last : Scanner} (h : Reaches scanner last) :
  scanner.finish = last.finish
  := by
  induction h with
  | refl => rfl
  | step hrest hstep _ ih =>
    rw [finish_of_ne_nil hrest, hstep, ← ih]
    rfl

end Scanner

/-- A source is refused exactly at a place that is reached by steps and where no step is possible.
-/
theorem scan_eq_error_iff {source : String} {keepTrivia : Bool} {fault : Fault} :
  scan source keepTrivia = .error fault
    ↔ ∃ stopped, Scanner.Reaches (Scanner.start source keepTrivia) stopped ∧ stopped.rest ≠ []
      ∧ stopped.step = .error fault
  := by
  constructor
  · intro h
    rw [scan] at h
    cases hrun : (Scanner.start source keepTrivia).run with
    | ok last => simp [hrun, Except.map] at h
    | error fault' =>
      rw [hrun] at h
      obtain rfl : fault' = fault := Except.error.inj h
      apply Scanner.exists_reaches_of_fault hrun
  · rintro ⟨stopped, hreaches, hrest, hstep⟩
    have hscan : scan source keepTrivia = (Scanner.start source keepTrivia).finish := rfl
    rw [hscan, hreaches.finish_eq, Scanner.finish_of_ne_nil hrest, hstep]
    rfl

/-! ### The tokens before a place -/

/-- The tokens that were read are those that were found, each with its text and its place.  Only the
last of them may be of another kind: where it was an identifier, it may be the word of the language
that it spells. -/
structure SameLexemes (found read : List Token) : Prop where
  lexemes : read.map (fun token => (token.value, token.span))
    = found.map fun token => (token.value, token.span)
  front : read.dropLast = found.dropLast
  last : ∀ token ∈ found.getLast?, ∀ other ∈ read.getLast?, other.kind = token.kind
    ∨ token.kind = .identifier ∧ (token.value, other.kind) ∈ Kind.words

theorem SameLexemes.refl (tokens : List Token) :
  SameLexemes tokens tokens
  := by
  refine ⟨rfl, rfl, ?_⟩
  intro token htoken other hother
  obtain rfl := Option.some.inj (htoken.symm.trans hother)
  exact .inl rfl

theorem SameLexemes.word {value : String} {kind : Kind} (h : (value, kind) ∈ Kind.words)
    (tokens : List Token) (start : Position) :
  SameLexemes (tokens ++ [Lexeme.place ⟨.identifier, value⟩ start])
    (tokens ++ [Lexeme.place ⟨kind, value⟩ start])
  := by
  constructor
  case lexemes =>
    rw [List.map_append, List.map_append]
    rfl
  case front => rw [List.dropLast_concat, List.dropLast_concat]
  case last =>
    intro token htoken other hother
    rw [List.getLast?_concat] at htoken hother
    obtain rfl := Option.some.inj htoken
    obtain rfl := Option.some.inj hother
    exact .inr ⟨rfl, h⟩

/-- The places of lexemes do not depend on what the last of them is. -/
theorem exists_placed_concat (position : Position) (front : List Lexeme) :
  ∃ tokens last, ∀ lexeme, placed position (front ++ [lexeme])
    = tokens ++ [lexeme.place last, Token.endAt (last.past lexeme.text)]
  := by
  induction front generalizing position with
  | nil => exact ⟨[], position, fun _ => rfl⟩
  | cons first front ih =>
    obtain ⟨tokens, last, hplaced⟩ := ih (position.past first.text)
    use first.place position :: tokens, last
    intro lexeme
    rw [List.cons_append, placed, hplaced, List.cons_append]

theorem exists_sameLexemes {keepTrivia : Bool} {stop : Position} {lexemes read : List Lexeme}
    {found : List Token}
    (hread : read = lexemes ∨ ∃ front value kind, lexemes = front ++ [⟨.identifier, value⟩]
      ∧ read = front ++ [⟨kind, value⟩] ∧ (value, kind) ∈ Kind.words)
    (hfound : found ++ [Token.endAt stop]
      = (placed .start lexemes).filter (keepTrivia || !·.kind.isTrivia)) :
  ∃ tokens, SameLexemes found tokens
    ∧ tokens ++ [Token.endAt stop]
      = (placed .start read).filter (keepTrivia || !·.kind.isTrivia)
  := by
  rcases hread with rfl | ⟨front, value, kind, rfl, rfl, hword⟩
  · exact ⟨found, .refl found, hfound⟩
  · obtain ⟨tokens, last, hplaced⟩ := exists_placed_concat .start front
    let kept := tokens.filter (keepTrivia || !·.kind.isTrivia)
    have hfilter : ∀ kind : Kind, kind.isTrivia = false →
        (placed .start (front ++ [⟨kind, value⟩])).filter (keepTrivia || !·.kind.isTrivia)
          = kept ++ [Lexeme.place ⟨kind, value⟩ last] ++ [Token.endAt (last.past value.toList)]
        := by
      intro kind hkind
      have hend : Kind.endOfInput.isTrivia = false := rfl
      rw [hplaced, List.filter_append]
      simp [Lexeme.place, Lexeme.text, Token.endAt, hkind, hend, kept]
    have htrivia : ∀ word ∈ Kind.words, word.2.isTrivia = false := by decide
    rw [hfilter .identifier rfl] at hfound
    obtain ⟨rfl, hend⟩ := List.append_inj' hfound rfl
    refine ⟨_, .word hword kept last, ?_⟩
    rw [hfilter kind (htrivia _ hword), hend]

/-- The text of the source between two offsets is what stands there. -/
theorem Slices.exists_append {source front : String} {stop : Nat} (h : Slices source 0 stop front) :
  ∃ after, source.toList = front.toList ++ after ∧ byteSize front.toList = stop
  := by
  obtain ⟨first, second, rfl, hsize⟩ := String.Pos.Raw.isValid_iff_exists_append.mp h.stop_valid
  have hsize : stop = byteSize first.toList := by
    rw [byteSize_toList]
    exact congrArg String.Pos.Raw.byteIdx hsize
  have hbytes : front.toByteArray = first.toByteArray := by
    have hparts : (first ++ second).toList = [] ++ first.toList ++ second.toList := by simp
    have hextract := extract_of_toList hparts
    rw [byteSize_nil, Nat.zero_add, ← hsize] at hextract
    rw [h.bytes, hextract]
  obtain rfl : front = first := String.toByteArray_inj.mp hbytes
  exact ⟨second.toList, String.toList_append, hsize.symm⟩

/-- A longer part of the source goes on after a shorter one. -/
theorem Slices.exists_inside {source front : String} {stop : Nat} (h : Slices source 0 stop front)
    {before rest : List Char} (hsource : source.toList = before ++ rest)
    (hstop : byteSize before < stop) :
  ∃ inside after, front.toList = before ++ inside ∧ inside ≠ [] ∧ rest = inside ++ after
  := by
  obtain ⟨after, hafter, hsize⟩ := h.exists_append
  rw [hsource, List.append_eq_append_iff] at hafter
  rcases hafter with ⟨inside, hfront, hrest⟩ | ⟨inside, hbefore, _⟩
  · refine ⟨inside, after, hfront, ?_, hrest⟩
    rintro rfl
    rw [hfront, List.append_nil] at hsize
    omega
  · rw [hbefore, byteSize_append] at hstop
    omega

/-- Where no rule finds a token there is no comment. -/
theorem isUnterminated_of_none {rest : List Char} (h : Rule.firstMatch? rest = none) :
  Scanner.isUnterminated rest = false
  := by
  cases hfront : ['/', '*'].isPrefixOf rest with
  | false => rw [Scanner.isUnterminated, hfront, Bool.false_and]
  | true =>
    obtain ⟨after, rfl⟩ := List.isPrefixOf_iff_prefix.mp hfront
    have hslash := List.findSome?_eq_none_iff.mp h (.sign "/" .slash)
      (by simp [Rule.all, Kind.signs])
    simp [Rule.match?] at hslash

/-- A source in which no token is found at a place is refused there in the same way when it is cut
off after the place. -/
theorem scan_of_unrecognised {source front : String} {keepTrivia : Bool} {stopped : Scanner}
    {stop : Nat} (hreaches : Scanner.Reaches (Scanner.start source keepTrivia) stopped)
    (hnone : Rule.firstMatch? stopped.rest = none) (hstop : stopped.position.offset < stop)
    (hfront : Slices source 0 stop front) :
  ∃ line, scan front keepTrivia
    = .error ⟨.unrecognised stopped.char line stopped.position.column, stopped.position⟩
  := by
  obtain ⟨lexemes, hscans, hposition, _⟩ := hreaches.exists_lexemes
  have hoffset : stopped.position.offset = byteSize (lexemes.flatMap Lexeme.text) := by
    rw [hposition]
    apply Position.offset_past_start
  rw [hoffset] at hstop
  obtain ⟨inside, after, htext, hne, hrest⟩ := hfront.exists_inside hscans.text_eq hstop
  rw [hrest] at hscans hnone
  have hcut := hscans.cut hne
  rw [← htext] at hcut
  have hstart : (Scanner.start front keepTrivia).rest = front.toList := rfl
  obtain ⟨last, hlast, rfl, hposition'⟩ := Scanner.exists_reaches_of_scansTo hcut hstart
  have hnone' := firstMatch?_of_append_none hnone
  have hstep := Scanner.step_eq_error_iff.mpr (.inr ⟨isUnterminated_of_none hnone', hnone', rfl⟩)
  have hsame : last.position = stopped.position := hposition'.trans hposition.symm
  have hchar : last.char = stopped.char := by
    obtain ⟨c, more, hc⟩ := List.exists_cons_of_ne_nil hne
    rw [Scanner.char, Scanner.char, hrest, hc]
    rfl
  use (Source.lineAt last.source last.position.offset).text
  rw [scan_eq_error_iff.mpr ⟨last, hlast, hne, hstep⟩, Scanner.fault, hchar, hsame]

/-- A source is scanned up to a fault: the part before the fault has the lexemes that were found
when the fault was met.  Where the fault is a character that starts no token, no longer part of the
source is scanned: each is refused for this character at this place. -/
theorem scanned_up_to_fault {source : String} {keepTrivia : Bool} {fault : Fault}
    (h : scan source keepTrivia = .error fault) :
  ∃ stopped, Scanner.Reaches (Scanner.start source keepTrivia) stopped
    ∧ stopped.step = .error fault
    ∧ (∃ front tokens, Slices source 0 fault.position.offset front
        ∧ scan front keepTrivia = .ok (tokens ++ [Token.endAt fault.position])
        ∧ SameLexemes stopped.tokens.toList tokens)
    ∧ ∀ c line column, fault.cause = .unrecognised c line column →
        ∀ stop front, fault.position.offset < stop → Slices source 0 stop front →
          ∃ line, scan front keepTrivia = .error ⟨.unrecognised c line column, fault.position⟩
  := by
  obtain ⟨stopped, hreaches, hrest, hstep⟩ := scan_eq_error_iff.mp h
  have hposition : fault.position = stopped.position := by
    rcases Scanner.step_eq_error_iff.mp hstep with ⟨_, rfl⟩ | ⟨_, _, rfl⟩ <;> rfl
  refine ⟨stopped, hreaches, hstep, ?_, ?_⟩
  · obtain ⟨lexemes, hscans, hstopped, htokens⟩ := hreaches.exists_lexemes
    obtain ⟨read, hread, hsame⟩ := hscans.cut_nil
    obtain ⟨tokens, hlexemes, hread'⟩ := exists_sameLexemes hsame htokens
    use String.ofList (lexemes.flatMap Lexeme.text), tokens
    refine ⟨?_, ?_, hlexemes⟩
    · have hoffset : fault.position.offset = byteSize (lexemes.flatMap Lexeme.text) := by
        rw [hposition, hstopped]
        apply Position.offset_past_start
      rw [hoffset]
      apply slices_front hscans.text_eq
    · apply scan_eq_ok_iff.mpr
      rw [String.toList_ofList, hposition]
      exact ⟨read, hread, hread'⟩
  · intro c line column hcause stop front hstop hfront
    rw [hposition] at hstop ⊢
    rcases Scanner.step_eq_error_iff.mp hstep with ⟨_, rfl⟩ | ⟨_, hnone, rfl⟩
    · cases hcause
    · obtain ⟨rfl, _, rfl⟩ := Cause.unrecognised.inj hcause
      apply scan_of_unrecognised hreaches hnone hstop hfront

/-- The name `si` before a letter that starts no token is refused at the letter, and what stands
before the letter is scanned. -/
theorem scanned_up_to_letter :
  scan "siñ" false = .error ⟨.unrecognised 'ñ' "siñ" 3, ⟨2, 1, 3⟩⟩
    ∧ ∃ front tokens, Slices "siñ" 0 2 front
      ∧ scan front false = .ok (tokens ++ [Token.endAt ⟨2, 1, 3⟩])
  := by
  have h : scan "siñ" false = .error ⟨.unrecognised 'ñ' "siñ" 3, ⟨2, 1, 3⟩⟩ := by decide +kernel
  obtain ⟨_, _, _, ⟨front, tokens, hfront, hscan, _⟩, _⟩ := scanned_up_to_fault h
  exact ⟨h, front, tokens, hfront, hscan⟩

-- without the letter after it the name is a word of the language
example :
  tokenize "si" = .ok [⟨.si, "si", ⟨⟨0, 1, 1⟩, ⟨2, 1, 3⟩⟩⟩, Token.endAt ⟨2, 1, 3⟩]
  := by rfl

end Mientras
