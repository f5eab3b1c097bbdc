import Mathlib.Data.List.Chain
import Mathlib.Tactic.Common
import Mientras.Proofs.Lexeme

/-!
# The tokens of a source cover it

`Partitions source tokens` says that the tokens stand one after the other in the source, from its
first byte to its last, and that each of them is the text at its place.  The tokens of a source
with its blanks and comments do so (`partitions_of_tokenizeWithTrivia`), since they are the lexemes
of the source at their places.
-/

namespace Mientras

open Text

/-- The tokens part the source. -/
structure Partitions (source : String) (tokens : List Token) : Prop where
  /-- The first token starts where the source does. -/
  first : ∀ token ∈ tokens.head?, token.span.start.offset = 0
  /-- A token starts where the token before it stops. -/
  adjacent : tokens.IsChain fun token next => token.span.stop = next.span.start
  /-- The last token and no other is the end of the input, which has no text and stands at the end
  of the source. -/
  closed : ∃ front last, tokens = front ++ [last]
    ∧ (∀ token ∈ front, token.kind ≠ .endOfInput ∧ token.value ≠ ""
        ∧ token.span.start.offset < token.span.stop.offset)
    ∧ last.kind = .endOfInput ∧ last.value = ""
    ∧ last.span.start.offset = source.utf8ByteSize ∧ last.span.stop.offset = source.utf8ByteSize
  /-- A token starts and stops between two characters of the source. -/
  boundary : ∀ token ∈ tokens,
    (String.Pos.Raw.mk token.span.start.offset).IsValid source
      ∧ (String.Pos.Raw.mk token.span.stop.offset).IsValid source
  /-- A token is the text of the source at its place. -/
  value : ∀ token ∈ tokens,
    token.value.toByteArray
      = source.toByteArray.extract token.span.start.offset token.span.stop.offset
  /-- The tokens together are the source. -/
  values : String.join (tokens.map (·.value)) = source

/-! ### Parts of a source -/

/-- The offset after a first part of a source is its number of bytes. -/
theorem Position.offset_past_start (text : List Char) :
  (Position.start.past text).offset = byteSize text
  := by
  rw [offset_past]
  apply Nat.zero_add

section

variable {source value : String} {before after : List Char}

theorem eq_append_of_toList (h : source.toList = before ++ value.toList ++ after) :
  source = String.ofList before ++ value ++ String.ofList after
  := by
  apply String.toList_injective
  rw [h, String.toList_append, String.toList_append, String.toList_ofList, String.toList_ofList]

theorem utf8ByteSize_ofList (text : List Char) :
  (String.ofList text).utf8ByteSize = byteSize text
  := by
  rw [← byteSize_toList, String.toList_ofList]

/-- The place before a part of a source is between two characters. -/
theorem isValid_before (h : source.toList = before ++ after) :
  (String.Pos.Raw.mk (byteSize before)).IsValid source
  := by
  rw [String.Pos.Raw.isValid_iff_exists_append]
  use String.ofList before, String.ofList after
  constructor
  · rw [← String.ofList_append, ← h, String.ofList_toList]
  · apply String.Pos.Raw.ext
    exact (utf8ByteSize_ofList before).symm

/-- The bytes of a part of a source are those between its first and its last place. -/
theorem extract_of_toList (h : source.toList = before ++ value.toList ++ after) :
  source.toByteArray.extract (byteSize before) (byteSize before + byteSize value.toList)
    = value.toByteArray
  := by
  have hsize : ∀ text : String, text.toByteArray.size = byteSize text.toList := by
    intro text
    rw [byteSize_toList]
    rfl
  have hbefore : byteSize before = (String.ofList before).toByteArray.size := by
    rw [hsize, String.toList_ofList]
  rw [eq_append_of_toList h, String.toByteArray_append, String.toByteArray_append,
    ByteArray.append_assoc]
  have hshift := ByteArray.extract_append_size_add' (b := value.toByteArray
    ++ (String.ofList after).toByteArray) (i := 0) (j := byteSize value.toList) hbefore
  rw [Nat.add_zero] at hshift
  rw [hshift]
  apply ByteArray.extract_append_eq_left (hsize value).symm

end

/-! ### Lexemes at their places -/

theorem start_of_head_placed {position : Position} {lexemes : List Lexeme} :
  ∀ token ∈ (placed position lexemes).head?, token.span.start = position
  := by
  intro token htoken
  cases lexemes with
  | nil =>
    obtain rfl := Option.some.inj htoken
    rfl
  | cons lexeme lexemes =>
    obtain rfl := Option.some.inj htoken
    rfl

theorem isChain_placed (position : Position) (lexemes : List Lexeme) :
  (placed position lexemes).IsChain fun token next => token.span.stop = next.span.start
  := by
  induction lexemes generalizing position with
  | nil => apply List.IsChain.singleton
  | cons lexeme lexemes ih =>
    rw [placed, List.isChain_cons]
    constructor
    · intro next hnext
      symm
      apply start_of_head_placed next hnext
    · apply ih

/-- The place of a token is where its text is found. -/
theorem exists_append_of_mem_placed {position : Position} {lexemes : List Lexeme} {token : Token}
    (h : token ∈ placed position lexemes) :
  ∃ before after, lexemes.flatMap Lexeme.text = before ++ token.value.toList ++ after
    ∧ token.span.start = position.past before
    ∧ token.span.stop = position.past (before ++ token.value.toList)
  := by
  induction lexemes generalizing position with
  | nil =>
    obtain rfl := List.mem_singleton.mp h
    use [], []
    exact ⟨rfl, rfl, rfl⟩
  | cons lexeme lexemes ih =>
    rcases List.mem_cons.mp h with rfl | h
    · use [], lexemes.flatMap Lexeme.text
      exact ⟨rfl, rfl, rfl⟩
    · obtain ⟨before, after, htext, hstart, hstop⟩ := ih h
      use lexeme.text ++ before, after
      and_intros
      · rw [List.flatMap_cons, htext, List.append_assoc, List.append_assoc, List.append_assoc]
      · rw [hstart, Position.past_append]
      · rw [hstop, List.append_assoc, Position.past_append position]

theorem exists_offset_of_mem_placed {lexemes : List Lexeme} {token : Token}
    (h : token ∈ placed .start lexemes) :
  ∃ before after, lexemes.flatMap Lexeme.text = before ++ token.value.toList ++ after
    ∧ token.span.start.offset = byteSize before
    ∧ token.span.stop.offset = byteSize (before ++ token.value.toList)
  := by
  obtain ⟨before, after, htext, hstart, hstop⟩ := exists_append_of_mem_placed h
  use before, after, htext
  rw [hstart, hstop]
  exact ⟨Position.offset_past_start before, Position.offset_past_start _⟩

/-- A lexeme takes up room when it is not empty. -/
theorem Lexeme.offset_lt_of_place {lexeme : Lexeme} (h : lexeme.text ≠ []) (start : Position) :
  (lexeme.place start).span.start.offset < (lexeme.place start).span.stop.offset
  := by
  have hpos := Nat.pos_of_ne_zero (mt byteSize_eq_zero.mp h)
  have hoffset := Position.offset_past start lexeme.text
  show start.offset < (start.past lexeme.text).offset
  omega

theorem exists_front_of_placed (position : Position) (lexemes : List Lexeme) :
  ∃ front, placed position lexemes
        = front ++ [Token.endAt (position.past (lexemes.flatMap Lexeme.text))]
    ∧ ∀ token ∈ front, ∃ lexeme ∈ lexemes, ∃ start, token = lexeme.place start
  := by
  induction lexemes generalizing position with
  | nil =>
    use []
    exact ⟨rfl, by simp⟩
  | cons lexeme lexemes ih =>
    obtain ⟨front, hfront, hplaces⟩ := ih (position.past lexeme.text)
    use lexeme.place position :: front
    constructor
    · rw [placed, hfront, List.flatMap_cons, Position.past_append, List.cons_append]
    · intro token htoken
      rcases List.mem_cons.mp htoken with rfl | htoken
      · exact ⟨lexeme, List.mem_cons_self, position, rfl⟩
      · obtain ⟨other, hother, start, rfl⟩ := hplaces token htoken
        exact ⟨other, List.mem_cons_of_mem _ hother, start, rfl⟩

theorem join_values_placed (position : Position) (lexemes : List Lexeme) :
  String.join ((placed position lexemes).map (·.value))
    = String.ofList (lexemes.flatMap Lexeme.text)
  := by
  apply String.toList_injective
  rw [String.toList_join, String.toList_ofList]
  induction lexemes generalizing position with
  | nil => rfl
  | cons lexeme lexemes ih =>
    rw [placed, List.map_cons, List.flatMap_cons, ih, List.flatMap_cons]
    rfl

/-! ### Whole sources -/

/-- The tokens of a source with its blanks and comments part the source. -/
theorem partitions_of_tokenizeWithTrivia {source : String} {tokens : List Token}
    (h : tokenizeWithTrivia source = .ok tokens) :
  Partitions source tokens
  := by
  obtain ⟨lexemes, hscans, htokens⟩ := scan_eq_ok_iff.mp h
  have hall : tokens = placed .start lexemes := by
    rw [htokens]
    simp
  have hsource : source.toList = lexemes.flatMap Lexeme.text := hscans.flatMap_text.symm
  subst hall
  constructor
  case first =>
    intro token htoken
    rw [start_of_head_placed token htoken]
    rfl
  case adjacent => apply isChain_placed
  case closed =>
    obtain ⟨front, hfront, hplaces⟩ := exists_front_of_placed .start lexemes
    have hend : (Position.start.past source.toList).offset = source.utf8ByteSize := by
      rw [Position.offset_past_start, byteSize_toList]
    rw [← hsource] at hfront
    use front, Token.endAt (Position.start.past source.toList), hfront
    refine ⟨?_, rfl, rfl, hend, hend⟩
    intro token htoken
    obtain ⟨lexeme, hlexeme, start, rfl⟩ := hplaces token htoken
    obtain ⟨hkind, htext⟩ := hscans.kind_ne_end lexeme hlexeme
    refine ⟨hkind, ?_, Lexeme.offset_lt_of_place htext start⟩
    intro hvalue
    apply htext
    rw [Lexeme.text, show lexeme.value = "" from hvalue]
    rfl
  case boundary =>
    intro token htoken
    obtain ⟨before, after, htext, hstart, hstop⟩ := exists_offset_of_mem_placed htoken
    rw [← hsource] at htext
    rw [hstart, hstop]
    constructor
    · rw [List.append_assoc] at htext
      apply isValid_before htext
    · apply isValid_before htext
  case value =>
    intro token htoken
    obtain ⟨before, after, htext, hstart, hstop⟩ := exists_offset_of_mem_placed htoken
    rw [← hsource] at htext
    rw [hstart, hstop, byteSize_append]
    symm
    apply extract_of_toList htext
  case values => rw [join_values_placed, ← hsource, String.ofList_toList]

/-- A text with a character of two bytes, a blank and a name are parted by their tokens. -/
theorem partitions_text_and_name :
  tokenizeWithTrivia "\"ñ\" x" = .ok
      [⟨.text, "\"ñ\"", ⟨⟨0, 1, 1⟩, ⟨4, 1, 4⟩⟩⟩, ⟨.blank, " ", ⟨⟨4, 1, 4⟩, ⟨5, 1, 5⟩⟩⟩,
       ⟨.identifier, "x", ⟨⟨5, 1, 5⟩, ⟨6, 1, 6⟩⟩⟩, ⟨.endOfInput, "", ⟨⟨6, 1, 6⟩, ⟨6, 1, 6⟩⟩⟩]
    ∧ Partitions "\"ñ\" x"
        [⟨.text, "\"ñ\"", ⟨⟨0, 1, 1⟩, ⟨4, 1, 4⟩⟩⟩, ⟨.blank, " ", ⟨⟨4, 1, 4⟩, ⟨5, 1, 5⟩⟩⟩,
         ⟨.identifier, "x", ⟨⟨5, 1, 5⟩, ⟨6, 1, 6⟩⟩⟩, ⟨.endOfInput, "", ⟨⟨6, 1, 6⟩, ⟨6, 1, 6⟩⟩⟩]
  := ⟨by rfl, partitions_of_tokenizeWithTrivia (by rfl)⟩

end Mientras
