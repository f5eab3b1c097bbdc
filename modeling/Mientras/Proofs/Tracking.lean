import Mathlib.Data.List.DropRight
import Mathlib.Tactic.Common
import Mientras.Proofs.Coverage
import Mientras.Proofs.SourceLine

/-!
# Keeping track of positions

A scanner counts bytes, lines and columns as it passes over its source.  `p.IsIn source` says that a
position is what counting from the start of the source gives, and `scanner.Tracks source` says this
of the position of a scanner and of the tokens it found.  It stays so whatever the scanner is asked
(`tracks_and_obeys`): a call is refused, and nothing changes, exactly when the bytes it asks for end
beyond the source or within a character.  Scanning a source is a sequence of such calls, so that
tokens and faults are where they say.
-/

namespace Mientras

open Text

/-! ### Places in a source -/

/-- The text is what stands in the source between two offsets. -/
structure Slices (source : String) (start stop : Nat) (text : String) : Prop where
  start_valid : (String.Pos.Raw.mk start).IsValid source
  stop_valid : (String.Pos.Raw.mk stop).IsValid source
  le : start ≤ stop
  bytes : text.toByteArray = source.toByteArray.extract start stop

/-- The position is that of a place in the source, counted from the start of the source. -/
def Position.IsIn (source : String) (position : Position) : Prop :=
  ∃ before, Slices source 0 position.offset before
    ∧ position.line = 1 + before.toList.count '\n'
    ∧ position.column = 1 + (before.toList.rtakeWhile (· ≠ '\n')).length

/-- The token is the text of the source between its positions. -/
structure Token.IsFrom (source : String) (token : Token) : Prop where
  start : token.span.start.IsIn source
  stop : token.span.stop.IsIn source
  value : Slices source token.span.start.offset token.span.stop.offset token.value

theorem slices_of_toList {source text : String} {before after : List Char}
    (h : source.toList = before ++ text.toList ++ after) :
  Slices source (byteSize before) (byteSize before + byteSize text.toList) text
  := by
  constructor
  case start_valid =>
    rw [List.append_assoc] at h
    apply isValid_before h
  case stop_valid =>
    rw [← byteSize_append]
    apply isValid_before h
  case le => apply Nat.le_add_right
  case bytes => rw [extract_of_toList h]

/-- The column counts the characters after the last newline. -/
theorem Position.column_past_start (text : List Char) :
  (Position.start.past text).column = 1 + (text.rtakeWhile (· ≠ '\n')).length
  := by
  induction text using List.reverseRecOn with
  | nil => rfl
  | append_singleton text c ih =>
    rw [past_append, past_cons, past_nil, next, List.rtakeWhile_concat]
    by_cases hc : c = '\n'
    · simp [hc]
    · simp [hc, ih, Nat.add_assoc]

/-- The first part of a source stands at its start. -/
theorem slices_front {source : String} {before after : List Char}
    (h : source.toList = before ++ after) :
  Slices source 0 (byteSize before) (String.ofList before)
  := by
  have htext : source.toList = [] ++ (String.ofList before).toList ++ after := by
    rw [String.toList_ofList, h, List.nil_append]
  have hslice := slices_of_toList htext
  rwa [String.toList_ofList, byteSize_nil, Nat.zero_add] at hslice

/-- The position after a first part of the source is the position of a place in it. -/
theorem Position.isIn_past {source : String} {before after : List Char}
    (h : source.toList = before ++ after) :
  (Position.start.past before).IsIn source
  := by
  use String.ofList before
  rw [String.toList_ofList, column_past_start, line_past, offset_past_start]
  exact ⟨slices_front h, rfl, rfl⟩

/-- The places after a place of the source are those between two parts of what follows it. -/
theorem isValid_add_iff {source : String} {before rest : List Char}
    (h : source.toList = before ++ rest) (size : Nat) :
  (String.Pos.Raw.mk (byteSize before + size)).IsValid source
    ↔ ∃ first second, rest = first ++ second ∧ byteSize first = size
  := by
  constructor
  · rw [String.Pos.Raw.isValid_iff_exists_append]
    rintro ⟨front, back, rfl, hsize⟩
    have hsize : byteSize before + size = byteSize front.toList := by
      rw [byteSize_toList]
      exact congrArg String.Pos.Raw.byteIdx hsize
    rw [String.toList_append, List.append_eq_append_iff] at h
    rcases h with ⟨middle, hbefore, hback⟩ | ⟨middle, hfront, hrest⟩
    · -- the other place is not before this one, so that nothing is between them
      rw [hbefore, byteSize_append] at hsize
      have hmiddle : middle = [] := byteSize_eq_zero.mp (by omega)
      exact ⟨[], rest, rfl, by rw [byteSize_nil]; omega⟩
    · rw [hfront, byteSize_append] at hsize
      exact ⟨middle, back.toList, hrest, by omega⟩
  · rintro ⟨first, second, rfl, rfl⟩
    rw [← byteSize_append]
    rw [← List.append_assoc] at h
    apply isValid_before h

/-- The next bytes of the source are refused exactly when they end beyond the source or within a
character. -/
theorem splitBytes?_eq_none_iff {source : String} {before rest : List Char}
    (h : source.toList = before ++ rest) (size : Nat) :
  splitBytes? size rest = none
    ↔ source.utf8ByteSize < byteSize before + size
      ∨ ¬ (String.Pos.Raw.mk (byteSize before + size)).IsValid source
  := by
  rw [isValid_add_iff h]
  constructor
  · intro hnone
    right
    rintro ⟨first, second, hparts⟩
    rw [splitBytes?_eq_some_iff.mpr hparts] at hnone
    contradiction
  · intro hrefused
    apply Option.eq_none_iff_forall_ne_some.mpr
    rintro ⟨first, second⟩ hsplit
    have hparts := splitBytes?_eq_some_iff.mp hsplit
    rcases hrefused with hsize | hnone
    · rw [← byteSize_toList, h, hparts.1, byteSize_append, byteSize_append] at hsize
      omega
    · exact hnone ⟨first, second, hparts⟩

/-! ### Calls -/

namespace Scanner

/-- What a scanner can be asked for. -/
inductive Call where
  /-- The next bytes. -/
  | peek (size : Nat)
  /-- To pass over the next bytes. -/
  | pass (size : Nat)
  /-- To pass over the next bytes, which are a token. -/
  | record (kind : Kind) (size : Nat)
  /-- All that is left. -/
  | remainder

/-- The number of bytes that the call asks for. -/
def Call.size : Call → Nat
  | .peek size | .pass size | .record _ size => size
  | .remainder => 0

/-- What the call does, and the text that it answers with, if any. -/
def Call.action : Call → Action (Option String)
  | .peek size => return some (← Action.peek size)
  | .pass size => do
    Action.pass size
    return none
  | .record kind size => do
    Action.record kind size
    return none
  | .remainder => return some (String.ofList (← get).rest)

/-- The text that the call answers with, if any, and the scanner after the call.  There is nothing
when the call is refused. -/
def answer? (scanner : Scanner) (call : Call) : Option (Option String × Scanner) :=
  call.action.result? scanner

/-- The scanner after the call, whether it is refused or not. -/
def afterCall (scanner : Scanner) (call : Call) : Scanner :=
  call.action.after scanner

/-- The scanner after calls. -/
def afterCalls (scanner : Scanner) (calls : List Call) : Scanner :=
  calls.foldl afterCall scanner

/-- The scanner is where counting from the start of the source says, and so are the tokens. -/
structure Tracks (source : String) (scanner : Scanner) : Prop where
  source_eq : scanner.source = source
  position : scanner.position.IsIn source
  /-- What is left to be read is the source after the position. -/
  rest : Slices source scanner.position.offset source.utf8ByteSize (String.ofList scanner.rest)
  tokens : ∀ token ∈ scanner.tokens.toList, token.IsFrom source
  /-- The tokens are in order and do not overlap. -/
  ordered : scanner.tokens.toList.Pairwise fun token next =>
    token.span.stop.offset ≤ next.span.start.offset
  /-- No token goes on after the position. -/
  passed : ∀ token ∈ scanner.tokens.toList, token.span.stop.offset ≤ scanner.position.offset

/-- What an answered call does in the source. -/
def Does (source : String) (scanner : Scanner) : Call → Option String × Scanner → Prop
  | .peek size, (answer, next) =>
    next = scanner ∧ ∃ text, answer = some text
      ∧ Slices source scanner.position.offset (scanner.position.offset + size) text
  | .pass size, (_, next) =>
    next.position.offset = scanner.position.offset + size ∧ next.tokens = scanner.tokens
  | .record kind size, (_, next) =>
    next.position.offset = scanner.position.offset + size
      ∧ ∃ text, Slices source scanner.position.offset (scanner.position.offset + size) text
        ∧ next.tokens.toList = scanner.tokens.toList
          ++ [⟨kind, text, ⟨scanner.position, next.position⟩⟩].filter
            (scanner.keepTrivia || !·.kind.isTrivia)
  | .remainder, (answer, next) =>
    next = scanner ∧ ∃ text, answer = some text
      ∧ Slices source scanner.position.offset source.utf8ByteSize text

/-- The call does what it should. -/
structure Obeys (source : String) (scanner : Scanner) (call : Call) : Prop where
  /-- The call is refused exactly when the bytes end beyond the source or within a character. -/
  refused_iff : scanner.answer? call = none
    ↔ source.utf8ByteSize < scanner.position.offset + call.size
      ∨ ¬ (String.Pos.Raw.mk (scanner.position.offset + call.size)).IsValid source
  /-- A refused call changes nothing. -/
  refused : scanner.answer? call = none → scanner.afterCall call = scanner
  answered : ∀ outcome ∈ scanner.answer? call,
    scanner.afterCall call = outcome.2 ∧ scanner.Does source call outcome

/-! ### Scanners in terms of what was passed -/

/-- The scanner has passed over the text `before` of the source. -/
structure Passed (source : String) (before : List Char) (scanner : Scanner) : Prop where
  source_eq : scanner.source = source
  text_eq : source.toList = before ++ scanner.rest
  position_eq : scanner.position = Position.start.past before
  tokens : ∀ token ∈ scanner.tokens.toList, ∃ first last,
    before = first ++ token.value.toList ++ last
      ∧ token.span.start = Position.start.past first
      ∧ token.span.stop = Position.start.past (first ++ token.value.toList)
  ordered : scanner.tokens.toList.Pairwise fun token next =>
    token.span.stop.offset ≤ next.span.start.offset

variable {source : String} {scanner : Scanner} {before : List Char}

theorem passed_start (source : String) (keepTrivia : Bool) :
  (start source keepTrivia).Passed source []
  := ⟨rfl, rfl, rfl, by simp [start], by simp [start]⟩

theorem Passed.offset_eq (h : scanner.Passed source before) :
  scanner.position.offset = byteSize before
  := by
  rw [h.position_eq, Position.offset_past_start]

/-- Every token ends within what was passed. -/
theorem Passed.stop_le (h : scanner.Passed source before) {token : Token}
    (htoken : token ∈ scanner.tokens.toList) :
  token.span.stop.offset ≤ scanner.position.offset
  := by
  obtain ⟨first, last, hbefore, _, hstop⟩ := h.tokens token htoken
  rw [h.position_eq, hstop, hbefore, Position.past_append _ _ last, Position.offset_past _ last]
  apply Nat.le_add_right

theorem Passed.tracks (h : scanner.Passed source before) :
  scanner.Tracks source
  := by
  constructor
  case source_eq => exact h.source_eq
  case position =>
    rw [h.position_eq]
    apply Position.isIn_past h.text_eq
  case rest =>
    have htext : source.toList = before ++ (String.ofList scanner.rest).toList ++ [] := by
      rw [String.toList_ofList, List.append_nil, h.text_eq]
    have hslice := slices_of_toList htext
    rwa [String.toList_ofList, ← byteSize_append, ← h.text_eq, byteSize_toList, ← h.offset_eq]
      at hslice
  case tokens =>
    intro token htoken
    obtain ⟨first, last, hbefore, hstart, hstop⟩ := h.tokens token htoken
    have htext : source.toList = first ++ token.value.toList ++ (last ++ scanner.rest) := by
      rw [h.text_eq, hbefore, List.append_assoc]
    constructor
    case start =>
      rw [hstart]
      rw [List.append_assoc] at htext
      apply Position.isIn_past htext
    case stop =>
      rw [hstop]
      apply Position.isIn_past htext
    case value =>
      have hslice := slices_of_toList htext
      rwa [hstart, hstop, Position.offset_past_start, Position.offset_past_start, byteSize_append]
  case ordered => exact h.ordered
  case passed => exact fun token htoken => h.stop_le htoken

theorem Passed.pass (h : scanner.Passed source before) {piece rest : List Char}
    (hrest : scanner.rest = piece ++ rest) :
  (scanner.pass piece rest).Passed source (before ++ piece)
  := by
  constructor
  case source_eq => exact h.source_eq
  case text_eq =>
    rw [List.append_assoc]
    exact h.text_eq.trans (congrArg (before ++ ·) hrest)
  case position_eq =>
    rw [Position.past_append, ← h.position_eq]
    rfl
  case tokens =>
    intro token htoken
    obtain ⟨first, last, hbefore, hspan⟩ := h.tokens token htoken
    exact ⟨first, last ++ piece, by rw [hbefore, List.append_assoc], hspan⟩
  case ordered => exact h.ordered

theorem Passed.record (h : scanner.Passed source before) {piece rest : List Char}
    (hrest : scanner.rest = piece ++ rest) (kind : Kind) :
  (scanner.record kind piece rest).Passed source (before ++ piece)
  := by
  have hpass := h.pass hrest
  rw [Scanner.record]
  split
  · constructor
    case source_eq => exact hpass.source_eq
    case text_eq => exact hpass.text_eq
    case position_eq => exact hpass.position_eq
    case tokens =>
      intro token htoken
      rw [Array.toList_push, List.mem_append, List.mem_singleton] at htoken
      rcases htoken with htoken | rfl
      · apply hpass.tokens token htoken
      · refine ⟨before, [], ?_, h.position_eq, ?_⟩
        · rw [String.toList_ofList, List.append_nil]
        · rw [String.toList_ofList]
          exact hpass.position_eq
    case ordered =>
      rw [Array.toList_push, List.pairwise_append]
      refine ⟨h.ordered, List.pairwise_singleton _ _, ?_⟩
      intro token htoken next hnext
      obtain rfl := List.mem_singleton.mp hnext
      apply h.stop_le htoken
  · exact hpass

/-! ### Single calls -/

theorem Passed.slices (h : scanner.Passed source before) {size : Nat} {piece rest : List Char}
    (hsplit : splitBytes? size scanner.rest = some (piece, rest)) :
  Slices source scanner.position.offset (scanner.position.offset + size) (String.ofList piece)
  := by
  obtain ⟨hrest, hsize⟩ := splitBytes?_eq_some_iff.mp hsplit
  have htext : source.toList = before ++ (String.ofList piece).toList ++ rest := by
    rw [String.toList_ofList, h.text_eq, hrest, List.append_assoc]
  have hslice := slices_of_toList htext
  rwa [String.toList_ofList, hsize, ← h.offset_eq] at hslice

/-- The text that a call answers with when it asks for the piece. -/
def Call.text? (scanner : Scanner) (piece : List Char) : Call → Option String
  | .peek _ => some (String.ofList piece)
  | .pass _ | .record _ _ => none
  | .remainder => some (String.ofList scanner.rest)

/-- The scanner after a call that asks for the piece, when `rest` follows the piece. -/
def Call.next (scanner : Scanner) (piece rest : List Char) : Call → Scanner
  | .peek _ | .remainder => scanner
  | .pass _ => scanner.pass piece rest
  | .record kind _ => scanner.record kind piece rest

theorem peek_eq (size : Nat) (scanner : Scanner) :
  Action.peek size scanner
    = match splitBytes? size scanner.rest with
      | some parts => .ok (String.ofList parts.1) scanner
      | none => .error () scanner
  := by
  simp only [Action.peek, bind, EStateM.bind, Action.split]
  cases splitBytes? size scanner.rest <;> rfl

theorem pass_eq (size : Nat) (scanner : Scanner) :
  Action.pass size scanner
    = match splitBytes? size scanner.rest with
      | some parts => .ok () (scanner.pass parts.1 parts.2)
      | none => .error () scanner
  := by
  simp only [Action.pass, bind, EStateM.bind, Action.split]
  cases splitBytes? size scanner.rest <;> rfl

/-- A token is recorded as a whole or not at all: its bytes are looked at before they are passed,
and what was looked at can be passed. -/
theorem record_eq (kind : Kind) (size : Nat) (scanner : Scanner) :
  Action.record kind size scanner
    = match splitBytes? size scanner.rest with
      | some parts => .ok () (scanner.record kind parts.1 parts.2)
      | none => .error () scanner
  := by
  have hpeek := peek_eq size scanner
  have hpass := pass_eq size scanner
  cases hsplit : splitBytes? size scanner.rest with
  | none =>
    rw [hsplit] at hpeek
    change EStateM.bind (Action.peek size) _ scanner = _
    rw [EStateM.bind, hpeek]
  | some parts =>
    rw [hsplit] at hpeek hpass
    change EStateM.bind (Action.peek size) _ scanner = _
    rw [EStateM.bind, hpeek]
    change EStateM.bind (Action.pass size) _ scanner = _
    rw [EStateM.bind, hpass]
    dsimp only [record]
    change (if scanner.keepTrivia || !kind.isTrivia then _ else _ : Action Unit) _ = _
    split <;> rfl

/-- A call is answered from the bytes it asks for, or it is refused and changes nothing. -/
theorem action_eq (call : Call) (scanner : Scanner) :
  call.action scanner
    = match splitBytes? call.size scanner.rest with
      | some parts => .ok (call.text? scanner parts.1) (call.next scanner parts.1 parts.2)
      | none => .error () scanner
  := by
  cases call with
  | peek size =>
    simp only [Call.action, bind, EStateM.bind, peek_eq, Call.size]
    cases splitBytes? size scanner.rest <;> rfl
  | pass size =>
    simp only [Call.action, bind, EStateM.bind, pass_eq, Call.size]
    cases splitBytes? size scanner.rest <;> rfl
  | record kind size =>
    simp only [Call.action, bind, EStateM.bind, record_eq, Call.size]
    cases splitBytes? size scanner.rest <;> rfl
  | remainder =>
    rw [Call.size, splitBytes?]
    rfl

theorem answer?_eq (scanner : Scanner) (call : Call) :
  scanner.answer? call
    = (splitBytes? call.size scanner.rest).map fun parts =>
        (call.text? scanner parts.1, call.next scanner parts.1 parts.2)
  := by
  rw [answer?, Action.result?, action_eq]
  cases splitBytes? call.size scanner.rest <;> rfl

theorem afterCall_eq (scanner : Scanner) (call : Call) :
  scanner.afterCall call
    = match splitBytes? call.size scanner.rest with
      | some parts => call.next scanner parts.1 parts.2
      | none => scanner
  := by
  rw [afterCall, Action.after, action_eq]
  cases splitBytes? call.size scanner.rest <;> rfl

/-- An answered call does what it should. -/
theorem Passed.does (h : scanner.Passed source before) {call : Call}
    {outcome : Option String × Scanner} (hanswer : scanner.answer? call = some outcome) :
  scanner.Does source call outcome
  := by
  rw [answer?_eq, Option.map_eq_some_iff] at hanswer
  obtain ⟨⟨piece, rest⟩, hsplit, rfl⟩ := hanswer
  have hsize := (splitBytes?_eq_some_iff.mp hsplit).2
  cases call with
  | peek size => exact ⟨rfl, _, rfl, h.slices hsplit⟩
  | pass size => exact ⟨(Position.offset_past _ _).trans (congrArg _ hsize), rfl⟩
  | record kind size =>
    have htokens := toList_tokens_record scanner ⟨kind, String.ofList piece⟩ rest
    rw [Lexeme.place, Lexeme.text, String.toList_ofList] at htokens
    refine ⟨?_, _, h.slices hsplit, ?_⟩
    · simp only [Call.next, position_record, Position.offset_past, hsize, Call.size]
    · simpa only [Call.next, position_record] using htokens
  | remainder => exact ⟨rfl, _, rfl, h.tracks.rest⟩

theorem Passed.obeys (h : scanner.Passed source before) (call : Call) :
  scanner.Obeys source call
  := by
  constructor
  case refused_iff =>
    rw [answer?_eq, Option.map_eq_none_iff, h.offset_eq, splitBytes?_eq_none_iff h.text_eq]
  case refused =>
    intro hnone
    rw [answer?_eq, Option.map_eq_none_iff] at hnone
    rw [afterCall_eq, hnone]
  case answered =>
    intro outcome houtcome
    have hdoes := h.does houtcome
    rw [Option.mem_def, answer?_eq, Option.map_eq_some_iff] at houtcome
    obtain ⟨parts, hsplit, rfl⟩ := houtcome
    rw [afterCall_eq, hsplit]
    exact ⟨rfl, hdoes⟩

/-! ### Sequences of calls -/

theorem Passed.afterCall (h : scanner.Passed source before) (call : Call) :
  ∃ text, (scanner.afterCall call).Passed source text
  := by
  rw [afterCall_eq]
  cases hsplit : splitBytes? call.size scanner.rest with
  | none => exact ⟨before, h⟩
  | some parts =>
    have hrest := (splitBytes?_eq_some_iff.mp hsplit).1
    cases call with
    | peek | remainder => exact ⟨before, h⟩
    | pass => exact ⟨_, h.pass hrest⟩
    | record kind => exact ⟨_, h.record hrest kind⟩

theorem Passed.afterCalls (h : scanner.Passed source before) (calls : List Call) :
  ∃ text, (scanner.afterCalls calls).Passed source text
  := by
  induction calls generalizing scanner before with
  | nil => exact ⟨before, h⟩
  | cons call calls ih =>
    obtain ⟨text, hcall⟩ := h.afterCall call
    apply ih hcall

/-! ### Scanning as calls -/

/-- A token is found by recording it. -/
theorem exists_call_of_step {next : Scanner} (h : scanner.step = .ok next) :
  ∃ call, scanner.afterCall call = next
  := by
  obtain ⟨kind, piece, _, hrest, hnext⟩ := exists_record_of_step h
  use .record kind (byteSize piece)
  have hsplit : splitBytes? (byteSize piece) scanner.rest = some (piece, next.rest) :=
    splitBytes?_eq_some_iff.mpr ⟨hrest, rfl⟩
  rw [afterCall_eq, Call.size, hsplit]
  exact hnext.symm

/-- The steps of a scan are calls. -/
theorem Reaches.exists_calls {next : Scanner} (h : Reaches scanner next) :
  ∃ calls, scanner.afterCalls calls = next
  := by
  induction h with
  | refl => exact ⟨[], rfl⟩
  | step _ hstep _ ih =>
    obtain ⟨call, hcall⟩ := exists_call_of_step hstep
    obtain ⟨calls, hcalls⟩ := ih
    rw [← hcall] at hcalls
    exact ⟨call :: calls, hcalls⟩

/-- Along a scan, what was passed of the source is known. -/
theorem Passed.reaches {next : Scanner} (h : scanner.Passed source before)
    (hreaches : Reaches scanner next) :
  ∃ text, next.Passed source text
  := by
  obtain ⟨calls, rfl⟩ := hreaches.exists_calls
  apply h.afterCalls

end Scanner

/-! ### Whole sources -/

/-- The fault is found at its position in the source, and its cause shows the line and the column of
the position. -/
structure Fault.IsFrom (source : String) (fault : Fault) : Prop where
  position : fault.position.IsIn source
  shown : ∃ line, line = Source.lineAt source fault.position.offset
    ∧ line.number = fault.position.line
    ∧ (fault.cause = .unterminated line.text fault.position.column
      ∨ ∃ c, fault.cause = .unrecognised c line.text fault.position.column)

/-- The tokens or the fault are where they say. -/
def Located (source : String) : Except Fault (List Token) → Prop
  | .ok tokens => ∀ token ∈ tokens, token.IsFrom source
  | .error fault => fault.IsFrom source

namespace Scanner

variable {source : String} {scanner : Scanner} {before : List Char}

/-- The end of the input is where the scanner is. -/
theorem Passed.isFrom_endAt (h : scanner.Passed source before) :
  (Token.endAt scanner.position).IsFrom source
  := by
  have hposition := h.tracks.position
  have hsplit : splitBytes? 0 scanner.rest = some ([], scanner.rest) := by rw [splitBytes?]
  exact ⟨hposition, hposition, h.slices hsplit⟩

/-- The line that is found where the scanner is. -/
theorem Passed.lineAt_eq (h : scanner.Passed source before) {c : Char} {rest : List Char}
    (hrest : scanner.rest = c :: rest) :
  Source.lineAt scanner.source scanner.position.offset
    = ⟨scanner.position.line,
        String.ofList (trimEnd Source.isLineEnd (Source.lineAround before (c :: rest))),
        byteSize (before.rtakeWhile (· ≠ '\n'))⟩
  := by
  have htext := h.text_eq
  rw [hrest] at htext
  have hfound := Source.lineAt_of_lt htext c.utf8Size_pos
  rw [Nat.add_zero, ← h.offset_eq] at hfound
  rw [h.source_eq, hfound, h.position_eq, Position.line_past]
  rfl

/-- A fault is where the scanner is. -/
theorem Passed.isFrom_fault (h : scanner.Passed source before) (hrest : scanner.rest ≠ [])
    {fault : Fault} (hfault : scanner.step = .error fault) :
  fault.IsFrom source
  := by
  obtain ⟨c, rest, hrest⟩ := List.exists_cons_of_ne_nil hrest
  have hline : (Source.lineAt source scanner.position.offset).number = scanner.position.line := by
    rw [← h.source_eq, h.lineAt_eq hrest]
  have hposition := h.tracks.position
  rcases step_eq_error_iff.mp hfault with ⟨_, rfl⟩ | ⟨_, _, rfl⟩
  · rw [Scanner.fault, h.source_eq]
    exact ⟨hposition, _, rfl, hline, .inl rfl⟩
  · rw [Scanner.fault, h.source_eq]
    exact ⟨hposition, _, rfl, hline, .inr ⟨_, rfl⟩⟩

end Scanner

theorem located_scan (source : String) (keepTrivia : Bool) :
  Located source (scan source keepTrivia)
  := by
  have hstart := Scanner.passed_start source keepTrivia
  rw [scan]
  cases hrun : (Scanner.start source keepTrivia).run with
  | ok scanner =>
    obtain ⟨before, hpassed⟩ := hstart.reaches (Scanner.reaches_of_steps hrun)
    intro token htoken
    rcases List.mem_append.mp htoken with htoken | htoken
    · apply hpassed.tracks.tokens token htoken
    · obtain rfl := List.mem_singleton.mp htoken
      apply hpassed.isFrom_endAt
  | error fault =>
    obtain ⟨stopped, hreaches, hrest, hfault⟩ := Scanner.exists_reaches_of_fault hrun
    obtain ⟨before, hpassed⟩ := hstart.reaches hreaches
    apply hpassed.isFrom_fault hrest hfault

/-- Whatever a scanner of the source is asked, its position and its tokens are where they say, and
so are the tokens and the faults of scanning the source. -/
theorem tracks_and_obeys (source : String) (keepTrivia : Bool) (calls : List Scanner.Call) :
  ((Scanner.start source keepTrivia).afterCalls calls).Tracks source
    ∧ (∀ call, ((Scanner.start source keepTrivia).afterCalls calls).Obeys source call)
    ∧ Located source (scan source keepTrivia)
  := by
  obtain ⟨before, hpassed⟩ := (Scanner.passed_start source keepTrivia).afterCalls calls
  and_intros
  · apply hpassed.tracks
  · intro call
    apply hpassed.obeys
  · apply located_scan

-- the first and the last call are refused: one ends within a character, the other beyond the source
example :
  ((Scanner.start "ñ\nx" true).afterCalls [.pass 1, .record .blank 3, .peek 2]).position = ⟨3, 2, 1⟩
  := rfl

end Mientras
