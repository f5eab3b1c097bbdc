import Mathlib.Tactic.Common
import Mientras.Proofs.AllOrNothing
import Mientras.Proofs.Json

/-!
# Reading a token dump

The dump of the tokens of a source text is JSON for one value, the array of the tokens, and the
tokens are found in it again (`dump_reads_back`).  This holds of every list of tokens, also of one
that no source text has, since each character of a token is written so that it is read as itself.
-/

namespace Mientras

open Text

/-! ### Tokens in JSON -/

namespace Json

/-- A natural number in JSON. -/
def ofNat (n : Nat) : Json :=
  number ⟨n, 0⟩

/-- The value of the member with the name, if the value is an object. -/
def field? (name : String) : Json → Option Json
  | object members => members.lookup name
  | _ => none

/-- The text, if the value is a string. -/
def text? : Json → Option String
  | string text => some text
  | _ => none

/-- The natural number, if the value is one. -/
def natural? : Json → Option Nat
  | number decimal =>
    if 0 ≤ decimal.exponent then
      (decimal.mantissa * Int.pow 10 decimal.exponent.toNat).toNat?
    else
      none
  | _ => none

@[simp]
theorem natural?_ofNat (n : Nat) :
  (ofNat n).natural? = some n
  := by
  simp [ofNat, natural?, Int.toNat?, Int.pow]

end Json

namespace Position

/-- A position in JSON. -/
def toJson (position : Position) : Json :=
  .object [("offset", .ofNat position.offset), ("line", .ofNat position.line),
    ("column", .ofNat position.column)]

/-- The position that the value stands for. -/
def ofJson? (value : Json) : Option Position := do
  return ⟨← (← value.field? "offset").natural?, ← (← value.field? "line").natural?,
    ← (← value.field? "column").natural?⟩

theorem ofJson?_toJson (position : Position) :
  ofJson? position.toJson = some position
  := by
  simp [ofJson?, toJson, Json.field?, List.lookup_cons]

end Position

namespace Span

/-- A span in JSON. -/
def toJson (span : Span) : Json :=
  .object [("start", span.start.toJson), ("end", span.stop.toJson)]

/-- The span that the value stands for. -/
def ofJson? (value : Json) : Option Span := do
  return ⟨← Position.ofJson? (← value.field? "start"), ← Position.ofJson? (← value.field? "end")⟩

theorem ofJson?_toJson (span : Span) :
  ofJson? span.toJson = some span
  := by
  simp [ofJson?, toJson, Json.field?, List.lookup_cons, Position.ofJson?_toJson]

end Span

namespace Token

/-- A token in JSON. -/
def toJson (token : Token) : Json :=
  .object [("kind", .string token.kind.name), ("value", .string token.value),
    ("span", token.span.toJson)]

/-- The token that the value stands for. -/
def ofJson? (value : Json) : Option Token := do
  return ⟨← Kind.ofName? (← (← value.field? "kind").text?), ← (← value.field? "value").text?,
    ← Span.ofJson? (← value.field? "span")⟩

theorem ofJson?_toJson (token : Token) :
  ofJson? token.toJson = some token
  := by
  simp [ofJson?, toJson, Json.field?, List.lookup_cons, Json.text?, Kind.ofName?_name,
    Span.ofJson?_toJson]

/-- The tokens that the value stands for, if it is an array. -/
def allOfJson? : Json → Option (List Token)
  | .array items => items.mapM ofJson?
  | _ => none

theorem allOfJson?_map_toJson (tokens : List Token) :
  allOfJson? (.array (tokens.map toJson)) = some tokens
  := by
  rw [allOfJson?]
  induction tokens with
  | nil => rfl
  | cons token others ih => simp [ofJson?_toJson, ih]

end Token

/-! ### What is written -/

namespace Json

theorem hexValue?_digitChar :
  ∀ d < 16, hexValue? d.digitChar = some d
  := by
  decide

/-- Every character is read as itself. -/
theorem spellsChar_jsonEscaped (c : Char) :
  SpellsChar (jsonEscaped c) c
  := by
  have hshort : ∀ {letter : Char}, (letter, c) ∈ shortEscapes → SpellsChar ['\\', letter] c :=
    fun h => .escape (.short h)
  unfold jsonEscaped
  split_ifs with hquote hescape hbackspace htab hnewline hfeed hreturn hcontrol
  · exact hshort (by simp [shortEscapes, hquote])
  · exact hshort (by simp [shortEscapes, hescape])
  · exact hshort (by simp [shortEscapes, hbackspace])
  · exact hshort (by simp [shortEscapes, htab])
  · exact hshort (by simp [shortEscapes, hnewline])
  · exact hshort (by simp [shortEscapes, hfeed])
  · exact hshort (by simp [shortEscapes, hreturn])
  · apply SpellsChar.escape (.code _)
    have hzero : hexValue? '0' = some 0 := rfl
    have hhigh := hexValue?_digitChar (c.toNat / 16) (by omega)
    have hlow := hexValue?_digitChar (c.toNat % 16) (by omega)
    simp only [codeUnit?, hzero, hhigh, hlow, bind, Option.bind, pure, Option.some.injEq]
    omega
  · exact .plain (Nat.le_of_not_lt hcontrol) hquote hescape

theorem spellsChars_jsonEscaped (chars : List Char) :
  SpellsChars (chars.flatMap jsonEscaped) chars
  := by
  induction chars with
  | nil => exact .nil
  | cons c others ih => exact .cons (spellsChar_jsonEscaped c) ih

theorem spellsString_jsonText (text : String) :
  SpellsString (jsonText text).toList text
  := by
  have htext : (jsonText text).toList = '"' :: text.toList.flatMap jsonEscaped ++ ['"'] := by
    simp [jsonText]
  rw [htext]
  exact .mk (spellsChars_jsonEscaped text.toList)

/-- A number is written without zeros in front. -/
theorem toDigits_eq_zero {n : Nat} (h : (Nat.toDigits 10 n).head? = some '0') :
  Nat.toDigits 10 n = ['0']
  := by
  induction n using Nat.strongRecOn with
  | ind n ih =>
    by_cases hn : n < 10
    · rw [Nat.toDigits_of_lt_base hn] at h ⊢
      rw [Option.some.inj h]
    · have hdigits := Nat.toDigits_of_base_le (by decide) (Nat.le_of_not_lt hn)
      rw [hdigits, List.head?_append_of_ne_nil _ Nat.toDigits_ne_nil] at h
      have hzero := congrArg (Nat.ofDigitChars 10 · 0) (ih (n / 10) (by omega) h)
      simp only [Nat.ofDigitChars_ten_toDigits] at hzero
      have : n / 10 = 0 := hzero
      omega

theorem spellsValue_toString (n : Nat) :
  SpellsValue (toString n).toList (ofNat n)
  := by
  have hdigits : IsDigits (Nat.toDigits 10 n) :=
    ⟨Nat.toDigits_ne_nil, fun c hc => Nat.isDigit_of_mem_toDigits (by decide) (by decide) hc⟩
  have hnumber := SpellsNumber.mk .none (by decide) hdigits toDigits_eq_zero .none .none
  simp only [List.nil_append, List.append_nil, Nat.ofDigitChars_ten_toDigits, Int.one_mul]
    at hnumber
  rw [Nat.toString_eq_repr, Nat.toList_repr]
  exact .number hnumber

/-- A member of an object as it is written, without blanks. -/
def memberText (name : String) (text : List Char) : List Char :=
  (jsonText name).toList ++ ':' :: text

theorem spellsItem_of_value {text : List Char} {value : Json} (h : SpellsValue text value) :
  SpellsItem text value
  := by
  have hnothing : Spaces [] := List.forall_mem_nil _
  have hitem := SpellsItem.mk hnothing h hnothing
  rwa [List.nil_append, List.append_nil] at hitem

theorem spellsMember_memberText {name : String} {text : List Char} {value : Json}
    (h : SpellsValue text value) :
  SpellsMember (memberText name text) (name, value)
  := by
  have hnothing : Spaces [] := List.forall_mem_nil _
  have hmember :=
    SpellsMember.mk hnothing (spellsString_jsonText name) hnothing (spellsItem_of_value h)
  rwa [List.nil_append, List.append_nil] at hmember

end Json

open Json

theorem Position.spellsValue_dump (position : Position) :
  SpellsValue position.dump.toList position.toJson
  := by
  have htext : position.dump.toList
      = '{' :: (memberText "offset" (toString position.offset).toList
        ++ ',' :: (memberText "line" (toString position.line).toList
        ++ ',' :: memberText "column" (toString position.column).toList)) ++ ['}'] := by
    simp [dump, memberText, jsonText, jsonEscaped]
  rw [htext]
  exact .object (.more (spellsMember_memberText (spellsValue_toString _))
    (.more (spellsMember_memberText (spellsValue_toString _))
      (.one (spellsMember_memberText (spellsValue_toString _)))))

theorem Span.spellsValue_dump (span : Span) :
  SpellsValue span.dump.toList span.toJson
  := by
  have htext : span.dump.toList
      = '{' :: (memberText "start" span.start.dump.toList
        ++ ',' :: memberText "end" span.stop.dump.toList) ++ ['}'] := by
    simp [dump, memberText, jsonText, jsonEscaped]
  rw [htext]
  exact .object (.more (spellsMember_memberText span.start.spellsValue_dump)
    (.one (spellsMember_memberText span.stop.spellsValue_dump)))

namespace Token

theorem spellsValue_dump (token : Token) :
  SpellsValue token.dump.toList token.toJson
  := by
  have htext : token.dump.toList
      = '{' :: (memberText "kind" (jsonText token.kind.name).toList
        ++ ',' :: (memberText "value" (jsonText token.value).toList
        ++ ',' :: memberText "span" token.span.dump.toList)) ++ ['}'] := by
    simp [dump, memberText, jsonText, jsonEscaped]
  rw [htext]
  exact .object (.more (spellsMember_memberText (.string (spellsString_jsonText _)))
    (.more (spellsMember_memberText (.string (spellsString_jsonText _)))
      (.one (spellsMember_memberText token.span.spellsValue_dump))))

theorem spellsItems_dumpElements :
  ∀ {tokens : List Token}, tokens ≠ [] →
    SpellsItems (dumpElements tokens).toList (tokens.map toJson)
  | [], h => absurd rfl h
  | [token], _ => .one (spellsItem_of_value token.spellsValue_dump)
  | token :: next :: others, _ => by
    have htext : (dumpElements (token :: next :: others)).toList
        = token.dump.toList ++ ',' :: (dumpElements (next :: others)).toList := by
      simp [dumpElements]
    rw [htext]
    exact .more (spellsItem_of_value token.spellsValue_dump)
      (spellsItems_dumpElements (List.cons_ne_nil next others))

theorem reads_dumpAll (tokens : List Token) :
  Json.Reads (dumpAll tokens) (.array (tokens.map toJson))
  := by
  have htext : (dumpAll tokens).toList = '[' :: (dumpElements tokens).toList ++ [']'] := by
    simp [dumpAll]
  apply spellsItem_of_value
  rw [htext]
  by_cases h : tokens = []
  · subst h
    exact .emptyArray (List.forall_mem_nil _)
  · exact .array (spellsItems_dumpElements h)

/-! ### What is read -/

/-- The bytes hold the tokens. -/
structure Held (bytes : ByteArray) (tokens : List Token) : Prop where
  /-- The bytes are a text that is JSON for the array of the tokens, and for nothing else. -/
  reads : ∃ text, String.fromUTF8? bytes = some text
    ∧ ∀ value, Json.Reads text value ↔ value = .array (tokens.map toJson)
  /-- The tokens are found in whatever the bytes are JSON for. -/
  found : ∀ {text : String} {value : Json}, String.fromUTF8? bytes = some text →
    Json.Reads text value → allOfJson? value = some tokens

theorem held_dumpAll (tokens : List Token) :
  Held (dumpAll tokens).toUTF8 tokens
  := by
  have htext : String.fromUTF8? (dumpAll tokens).toUTF8 = some (dumpAll tokens) :=
    dif_pos (dumpAll tokens).isValidUTF8
  have hreads := reads_dumpAll tokens
  constructor
  case reads =>
    refine ⟨dumpAll tokens, htext, fun value => ⟨fun h => h.unique hreads, ?_⟩⟩
    rintro rfl
    exact hreads
  case found =>
    intro text value htext' h
    obtain rfl := Option.some.inj (htext.symm.trans htext')
    rw [h.unique hreads, allOfJson?_map_toJson]

/-- Bytes hold one list of tokens at most. -/
theorem Held.unique {bytes : ByteArray} {tokens others : List Token} (h : Held bytes tokens)
    (h' : Held bytes others) :
  tokens = others
  := by
  obtain ⟨text, htext, hreads⟩ := h.reads
  have hvalue := (hreads _).mpr rfl
  exact Option.some.inj ((h.found htext hvalue).symm.trans (h'.found htext hvalue))

/-- The tokens of a source text can be read from their dump. -/
structure ReadsBack (source : String) (tokens : List Token) : Prop where
  content : (Tool.dumpProduct source).content = .ok (dumpAll tokens)
  held : Held (dumpAll tokens).toUTF8 tokens
  /-- No other tokens have this dump. -/
  distinct : ∀ {others : List Token}, dumpAll others = dumpAll tokens → others = tokens
  /-- A run ends well if the dump can be written, and then the output file holds the tokens. -/
  run : ∀ {σ : Type} (files : FileSystem σ) {arguments : List String} {request : Request}
    {before : σ}, Tool.tokenDump.invocation? arguments = some (.work request) →
    files.Reads before request.input source →
    let result := Tool.tokenDump.run files.host arguments before
    (result.1.code = 0 ↔ files.Writes before request.output (dumpAll tokens).toUTF8)
      ∧ (result.1.code = 0 → ∃ bytes,
          (files.host.read request.output result.2).1 = .ok bytes ∧ Held bytes tokens)

end Token

/-- What a run of the token dump writes is what it makes of the source text. -/
theorem FileSystem.run_tokenDump {σ : Type} (files : FileSystem σ) {arguments : List String}
    {request : Request} {before : σ} {source content : String}
    (h : Tool.tokenDump.invocation? arguments = some (.work request))
    (hinput : files.Reads before request.input source)
    (hcontent : (Tool.dumpProduct source).content = .ok content) :
  let result := Tool.tokenDump.run files.host arguments before
  (result.1.code = 0 ↔ files.Writes before request.output content.toUTF8)
    ∧ (result.1.code = 0 → (files.host.read request.output result.2).1 = .ok content.toUTF8)
  := by
  rw [Tool.run, h]
  dsimp only [Tool.answer]
  rw [files.work_eq, files.reads_iff.mp hinput]
  simp only [Tool.product, hcontent, FileSystem.Writes]
  cases hwrite : files.host.write request.output content.toUTF8 before with
  | mk result after =>
    cases result with
    | error refusal =>
      have hcode : (1 : UInt32) ≠ 0 := by decide
      refine ⟨⟨fun hzero => absurd hzero hcode, ?_⟩, fun hzero => absurd hzero hcode⟩
      rintro ⟨state, hstate⟩
      cases hstate
    | ok _ => exact ⟨⟨fun _ => ⟨after, rfl⟩, fun _ => rfl⟩, fun _ => files.read_of_write hwrite⟩

namespace Token

/-- The dump of the tokens of a source text is JSON in which exactly these tokens are found. -/
theorem dump_reads_back {source : String} {tokens : List Token}
    (h : tokenize source = .ok tokens) :
  ReadsBack source tokens
  := by
  have hcontent : (Tool.dumpProduct source).content = .ok (dumpAll tokens) := by
    rw [Tool.dumpProduct, h]
  constructor
  case content => exact hcontent
  case held => exact held_dumpAll tokens
  case distinct =>
    intro others heq
    have hothers := held_dumpAll others
    rw [heq] at hothers
    exact hothers.unique (held_dumpAll tokens)
  case run =>
    intro σ files arguments request before hwork hinput
    obtain ⟨hcode, hread⟩ := files.run_tokenDump hwork hinput hcontent
    exact ⟨hcode, fun hzero => ⟨_, hread hzero, held_dumpAll tokens⟩⟩

/-- A text with a backslash, a control character, a tab and a character of four bytes. -/
theorem dump_reads_back_text :
  ReadsBack "\"\\\x01\t𝄞\"\r\nb"
    [⟨.text, "\"\\\x01\t𝄞\"", ⟨⟨0, 1, 1⟩, ⟨9, 1, 7⟩⟩⟩, ⟨.identifier, "b", ⟨⟨11, 2, 1⟩, ⟨12, 2, 2⟩⟩⟩,
      endAt ⟨12, 2, 2⟩]
  := dump_reads_back (by decide +kernel)

end Token

end Mientras
