import Mathlib.Tactic.Common
import Mientras.Proofs.Rules

/-!
# The grammar of JSON

`Json.Reads text value` says that the text spells the value in JSON.  It is given by rules alone:
blanks may stand around values and signs, numbers have a fraction and an exponent or not, and a
character of a string may be written as an escape, where two escapes together may stand for one
character.  A text is read in one way only (`Json.Reads.unique`), since whatever starts a value
shows what it is, and whatever follows a number is no part of it.
-/

namespace Mientras

open Text

/-- The number `mantissa * 10 ^ exponent`. -/
structure Decimal where
  mantissa : Int
  exponent : Int
  deriving DecidableEq

/-- The values of JSON. -/
inductive Json where
  | null
  | bool (truth : Bool)
  | number (decimal : Decimal)
  | string (text : String)
  | array (items : List Json)
  | object (members : List (String × Json))

namespace Json

/-! ### Blanks and strings -/

/-- A blank of JSON. -/
def isSpace (c : Char) : Bool :=
  c == ' ' || c == '\t' || c == '\n' || c == '\r'

/-- The text is made of blanks. -/
def Spaces (text : List Char) : Prop :=
  ∀ c ∈ text, isSpace c = true

/-- The letters of short escapes, each with the character that it stands for. -/
def shortEscapes : List (Char × Char) :=
  [('"', '"'), ('\\', '\\'), ('/', '/'), ('b', Char.ofNat 8), ('f', Char.ofNat 12), ('n', '\n'),
   ('r', '\r'), ('t', '\t')]

/-- The value of a hexadecimal digit. -/
def hexValue? (c : Char) : Option Nat :=
  if c.isDigit then some (c.toNat - '0'.toNat)
  else if 'a' ≤ c ∧ c ≤ 'f' then some (c.toNat - 'a'.toNat + 10)
  else if 'A' ≤ c ∧ c ≤ 'F' then some (c.toNat - 'A'.toNat + 10)
  else none

/-- The number that four hexadecimal digits stand for. -/
def codeUnit? : List Char → Option Nat
  | [a, b, c, d] => do
    return 4096 * (← hexValue? a) + 256 * (← hexValue? b) + 16 * (← hexValue? c) + (← hexValue? d)
  | _ => none

/-- The text after a backslash stands for the character. -/
inductive SpellsEscape : List Char → Char → Prop where
  | short {letter c : Char} (h : (letter, c) ∈ shortEscapes) :
      SpellsEscape [letter] c
  | code {digits : List Char} {c : Char} (h : codeUnit? digits = some c.toNat) :
      SpellsEscape ('u' :: digits) c
  /-- A character beyond the codes of four digits is written as two surrogates. -/
  | pair {first second : List Char} {high low : Nat} {c : Char}
      (hfirst : codeUnit? first = some high) (hhigh : 0xD800 ≤ high ∧ high < 0xDC00)
      (hsecond : codeUnit? second = some low) (hlow : 0xDC00 ≤ low ∧ low < 0xE000)
      (hc : c.toNat = 0x10000 + 0x400 * (high - 0xD800) + (low - 0xDC00)) :
      SpellsEscape ('u' :: first ++ '\\' :: 'u' :: second) c

/-- The text stands for the character in a string. -/
inductive SpellsChar : List Char → Char → Prop where
  | plain {c : Char} (hcontrol : 0x20 ≤ c.toNat) (hquote : c ≠ '"') (hescape : c ≠ '\\') :
      SpellsChar [c] c
  | escape {text : List Char} {c : Char} (h : SpellsEscape text c) : SpellsChar ('\\' :: text) c

/-- The text stands for the characters in a string. -/
inductive SpellsChars : List Char → List Char → Prop where
  | nil : SpellsChars [] []
  | cons {first second : List Char} {c : Char} {others : List Char} (h : SpellsChar first c)
      (hs : SpellsChars second others) :
      SpellsChars (first ++ second) (c :: others)

/-- The text spells the string. -/
inductive SpellsString : List Char → String → Prop where
  | mk {inside : List Char} {text : String} (h : SpellsChars inside text.toList) :
      SpellsString ('"' :: inside ++ ['"']) text

/-! ### Numbers -/

/-- The text is made of one or more digits. -/
def IsDigits (text : List Char) : Prop :=
  text ≠ [] ∧ ∀ c ∈ text, c.isDigit = true

/-- The text spells the factor of a sign that may be left out. -/
inductive SpellsSign : List Char → Int → Prop where
  | none : SpellsSign [] 1
  | plus : SpellsSign ['+'] 1
  | minus : SpellsSign ['-'] (-1)

/-- The text spells the digits of a fraction that may be left out. -/
inductive SpellsFraction : List Char → List Char → Prop where
  | none : SpellsFraction [] []
  | some {digits : List Char} (h : IsDigits digits) : SpellsFraction ('.' :: digits) digits

/-- The text spells the number of an exponent that may be left out. -/
inductive SpellsExponent : List Char → Int → Prop where
  | none : SpellsExponent [] 0
  | some {letter : Char} {sign digits : List Char} {factor : Int}
      (hletter : letter = 'e' ∨ letter = 'E') (hsign : SpellsSign sign factor)
      (h : IsDigits digits) :
      SpellsExponent (letter :: sign ++ digits) (factor * Nat.ofDigitChars 10 digits 0)

/-- The text spells the number: a minus or nothing, digits of which the first is no zero unless it
is the only one, a fraction and an exponent. -/
inductive SpellsNumber : List Char → Decimal → Prop where
  | mk {sign whole fraction exponent digits : List Char} {factor scale : Int}
      (hsign : SpellsSign sign factor) (hplus : sign ≠ ['+']) (hwhole : IsDigits whole)
      (hzero : whole.head? = some '0' → whole = ['0'])
      (hfraction : SpellsFraction fraction digits) (hexponent : SpellsExponent exponent scale) :
      SpellsNumber (sign ++ whole ++ fraction ++ exponent)
        ⟨factor * Nat.ofDigitChars 10 (whole ++ digits) 0, scale - digits.length⟩

/-! ### Values -/

/-- The words of JSON, each with the value that it stands for. -/
def literals : List (List Char × Json) :=
  [(['n', 'u', 'l', 'l'], null), (['t', 'r', 'u', 'e'], bool true),
   (['f', 'a', 'l', 's', 'e'], bool false)]

mutual

/-- The text spells the value. -/
inductive SpellsValue : List Char → Json → Prop where
  | literal {text : List Char} {value : Json} (h : (text, value) ∈ literals) :
      SpellsValue text value
  | number {text : List Char} {decimal : Decimal} (h : SpellsNumber text decimal) :
      SpellsValue text (.number decimal)
  | string {text : List Char} {value : String} (h : SpellsString text value) :
      SpellsValue text (.string value)
  | emptyArray {inside : List Char} (h : Spaces inside) :
      SpellsValue ('[' :: inside ++ [']']) (.array [])
  | array {inside : List Char} {items : List Json} (h : SpellsItems inside items) :
      SpellsValue ('[' :: inside ++ [']']) (.array items)
  | emptyObject {inside : List Char} (h : Spaces inside) :
      SpellsValue ('{' :: inside ++ ['}']) (.object [])
  | object {inside : List Char} {members : List (String × Json)}
      (h : SpellsMembers inside members) :
      SpellsValue ('{' :: inside ++ ['}']) (.object members)

/-- The text spells a value with blanks around it. -/
inductive SpellsItem : List Char → Json → Prop where
  | mk {before inside after : List Char} {value : Json} (hbefore : Spaces before)
      (h : SpellsValue inside value) (hafter : Spaces after) :
      SpellsItem (before ++ inside ++ after) value

/-- The text spells one or more values with commas between them. -/
inductive SpellsItems : List Char → List Json → Prop where
  | one {text : List Char} {value : Json} (h : SpellsItem text value) : SpellsItems text [value]
  | more {first second : List Char} {value : Json} {others : List Json}
      (h : SpellsItem first value) (hs : SpellsItems second others) :
      SpellsItems (first ++ ',' :: second) (value :: others)

/-- The text spells a name, a colon and a value. -/
inductive SpellsMember : List Char → String × Json → Prop where
  | mk {before inside after text : List Char} {name : String} {value : Json}
      (hbefore : Spaces before) (hname : SpellsString inside name) (hafter : Spaces after)
      (h : SpellsItem text value) :
      SpellsMember (before ++ inside ++ after ++ ':' :: text) (name, value)

/-- The text spells one or more names and values with commas between them. -/
inductive SpellsMembers : List Char → List (String × Json) → Prop where
  | one {text : List Char} {member : String × Json} (h : SpellsMember text member) :
      SpellsMembers text [member]
  | more {first second : List Char} {member : String × Json} {others : List (String × Json)}
      (h : SpellsMember first member) (hs : SpellsMembers second others) :
      SpellsMembers (first ++ ',' :: second) (member :: others)

end

/-- The text is JSON for the value. -/
def Reads (text : String) (value : Json) : Prop :=
  SpellsItem text.toList value

/-! ### Reading in one way

An item is fixed by a text when no other item is spelled at the front of the text and what follows
it, whatever may follow. -/

/-- The text spells the item and no other, and shows where it ends, before whatever satisfies
`ends`. -/
def Fixes {α : Type} (spells : List Char → α → Prop) (ends : List Char → Prop) (text : List Char)
    (item : α) : Prop :=
  ∀ ⦃text' : List Char⦄ ⦃item' : α⦄ ⦃rest rest' : List Char⦄, spells text' item' → ends rest →
    ends rest' → text ++ rest = text' ++ rest' → item = item' ∧ rest = rest'

theorem run_unique {p : Char → Bool} {run run' rest rest' : List Char}
    (h : ∀ c ∈ run, p c = true) (h' : ∀ c ∈ run', p c = true)
    (hrest : ∀ c ∈ rest.head?, p c = false) (hrest' : ∀ c ∈ rest'.head?, p c = false)
    (heq : run ++ rest = run' ++ rest') :
  run = run' ∧ rest = rest'
  := by
  have hrun := congrArg (List.takeWhile p) heq
  have hend := congrArg (List.dropWhile p) heq
  rw [takeWhile_append_of_stop h hrest, takeWhile_append_of_stop h' hrest'] at hrun
  rw [dropWhile_append_of_stop h hrest, dropWhile_append_of_stop h' hrest'] at hend
  exact ⟨hrun, hend⟩

/-- What stands between an opening and a closing sign is fixed when it shows that it ends before the
closing sign. -/
theorem Fixes.enclosed {α : Type} {spells : List Char → α → Prop} {opening closing : Char}
    {inside inside' rest rest' : List Char} {item item' : α}
    (h : Fixes spells (fun rest => rest.head? = some closing) inside item)
    (h' : spells inside' item')
    (heq : opening :: inside ++ [closing] ++ rest = opening :: inside' ++ [closing] ++ rest') :
  item = item' ∧ rest = rest'
  := by
  simp only [List.cons_append, List.append_assoc, List.cons.injEq, true_and] at heq
  obtain ⟨hitem, hrest⟩ := h h' rfl rfl heq
  exact ⟨hitem, (List.cons.inj hrest).2⟩

/-! #### Strings -/

theorem length_of_codeUnit? {digits : List Char} {unit : Nat} (h : codeUnit? digits = some unit) :
  digits.length = 4
  := by
  unfold codeUnit? at h
  split at h
  · rfl
  · cases h

/-- A character is no surrogate. -/
theorem not_surrogate (c : Char) :
  ¬ (0xD800 ≤ c.toNat ∧ c.toNat < 0xE000)
  := by
  have hvalid := c.valid
  have hval : c.val.toNat = c.toNat := rfl
  rw [UInt32.isValidChar, Nat.isValidChar, hval] at hvalid
  omega

theorem codeUnit_unique {digits digits' rest rest' : List Char} {unit unit' : Nat}
    (h : codeUnit? digits = some unit) (h' : codeUnit? digits' = some unit')
    (heq : digits ++ rest = digits' ++ rest') :
  unit = unit' ∧ rest = rest'
  := by
  have hlength := (length_of_codeUnit? h).trans (length_of_codeUnit? h').symm
  obtain ⟨rfl, hrest⟩ := List.append_inj heq hlength
  exact ⟨Option.some.inj (h.symm.trans h'), hrest⟩

theorem escape_unique :
  ∀ escape ∈ shortEscapes, escape.1 ≠ 'u'
    ∧ ∀ other ∈ shortEscapes, escape.1 = other.1 → escape.2 = other.2
  := by
  decide

/-- The code of a character is not the first of two surrogates. -/
theorem codeUnit_ne_surrogate {digits first rest rest' : List Char} {c : Char} {high : Nat}
    (h : codeUnit? digits = some c.toNat) (hfirst : codeUnit? first = some high)
    (hhigh : 0xD800 ≤ high ∧ high < 0xDC00) :
  digits ++ rest ≠ first ++ rest'
  := by
  intro heq
  obtain ⟨rfl, _⟩ := codeUnit_unique h hfirst heq
  have hnot := not_surrogate c
  omega

theorem SpellsEscape.fixes {text : List Char} {c : Char} (h : SpellsEscape text c) :
  Fixes SpellsEscape (fun _ => True) text c
  := by
  intro text' c' rest rest' h' _ _ heq
  cases h with
  | short hshort =>
    obtain ⟨hletter, hshort⟩ := escape_unique _ hshort
    cases h' with
    | short hshort' =>
      obtain ⟨rfl, hrest⟩ := List.cons.inj heq
      exact ⟨hshort _ hshort' rfl, hrest⟩
    | _ => exact absurd (List.cons.inj heq).1 hletter
  | code hcode =>
    cases h' with
    | short hshort' => exact absurd (List.cons.inj heq).1.symm (escape_unique _ hshort').1
    | code hcode' =>
      obtain ⟨hunit, hrest⟩ := codeUnit_unique hcode hcode' (List.cons.inj heq).2
      exact ⟨Char.toNat_inj.mp hunit, hrest⟩
    | pair hfirst' hhigh' =>
      simp only [List.cons_append, List.append_assoc, List.cons.injEq, true_and] at heq
      exact absurd heq (codeUnit_ne_surrogate hcode hfirst' hhigh')
  | pair hfirst hhigh hsecond hlow hc =>
    simp only [List.cons_append, List.append_assoc] at heq
    cases h' with
    | short hshort' => exact absurd (List.cons.inj heq).1.symm (escape_unique _ hshort').1
    | code hcode' =>
      exact absurd (List.cons.inj heq).2.symm (codeUnit_ne_surrogate hcode' hfirst hhigh)
    | pair hfirst' hhigh' hsecond' hlow' hc' =>
      simp only [List.cons_append, List.append_assoc, List.cons.injEq, true_and] at heq
      obtain ⟨rfl, heq⟩ := codeUnit_unique hfirst hfirst' heq
      simp only [List.cons.injEq, true_and] at heq
      obtain ⟨rfl, hrest⟩ := codeUnit_unique hsecond hsecond' heq
      exact ⟨Char.toNat_inj.mp (hc.trans hc'.symm), hrest⟩

/-- No character of a string starts with a double quote. -/
theorem SpellsChar.head {text : List Char} {c : Char} (h : SpellsChar text c) :
  ∃ d more, text = d :: more ∧ d ≠ '"'
  := by
  cases h with
  | plain _ hquote _ => exact ⟨c, [], rfl, hquote⟩
  | escape => exact ⟨'\\', _, rfl, by decide⟩

theorem SpellsChar.fixes {text : List Char} {c : Char} (h : SpellsChar text c) :
  Fixes SpellsChar (fun _ => True) text c
  := by
  intro text' c' rest rest' h' _ _ heq
  cases h with
  | plain _ _ hescape =>
    cases h' with
    | plain => exact List.cons.inj heq
    | escape => exact absurd (List.cons.inj heq).1 hescape
  | escape h =>
    cases h' with
    | plain _ _ hescape => exact absurd (List.cons.inj heq).1.symm hescape
    | escape h' => exact h.fixes h' trivial trivial (List.cons.inj heq).2

/-- The characters of a string go up to the double quote that ends it. -/
theorem SpellsChars.fixes {text chars : List Char} (h : SpellsChars text chars) :
  Fixes SpellsChars (fun rest => rest.head? = some '"') text chars
  := by
  induction h with
  | nil =>
    intro text' chars' rest rest' h' hrest _ heq
    cases h' with
    | nil => exact ⟨rfl, heq⟩
    | cons h' _ =>
      obtain ⟨d, more, rfl, hd⟩ := h'.head
      obtain rfl : rest = _ := heq
      exact absurd (Option.some.inj hrest) hd
  | cons h _ ih =>
    intro text' chars' rest rest' h' hrest hrest' heq
    cases h' with
    | nil =>
      obtain ⟨d, more, rfl, hd⟩ := h.head
      obtain rfl : _ = rest' := heq
      exact absurd (Option.some.inj hrest') hd
    | cons h' hs' =>
      rw [List.append_assoc, List.append_assoc] at heq
      obtain ⟨rfl, heq⟩ := h.fixes h' trivial trivial heq
      obtain ⟨rfl, hrest⟩ := ih hs' hrest hrest' heq
      exact ⟨rfl, hrest⟩

theorem SpellsString.fixes {text : List Char} {value : String} (h : SpellsString text value) :
  Fixes SpellsString (fun _ => True) text value
  := by
  intro text' value' rest rest' h' _ _ heq
  obtain ⟨h⟩ := h
  obtain ⟨h'⟩ := h'
  obtain ⟨hvalue, hrest⟩ := h.fixes.enclosed h' heq
  exact ⟨String.toList_injective hvalue, hrest⟩

/-! #### Numbers -/

/-- A sign that may follow a value and the blanks around it. -/
def endsItem (c : Char) : Bool :=
  c == ',' || c == ']' || c == '}'

/-- A character that may follow a value. -/
def endsValue (c : Char) : Bool :=
  isSpace c || endsItem c

/-- What may follow a value stands at the front of the text, or nothing. -/
def EndsValue (rest : List Char) : Prop :=
  ∀ c ∈ rest.head?, endsValue c = true

/-- No digit, point or exponent follows a value. -/
theorem of_endsValue {c : Char} (h : endsValue c = true) :
  c.isDigit = false ∧ c ≠ '.' ∧ c ≠ 'e' ∧ c ≠ 'E'
  := by
  simp only [endsValue, isSpace, endsItem, Bool.or_eq_true, beq_iff_eq] at h
  rcases h with (((rfl | rfl) | rfl) | rfl) | (rfl | rfl) | rfl <;> decide

theorem digits_unique {digits digits' rest rest' : List Char} (h : IsDigits digits)
    (h' : IsDigits digits') (hrest : ∀ c ∈ rest.head?, c.isDigit = false)
    (hrest' : ∀ c ∈ rest'.head?, c.isDigit = false) (heq : digits ++ rest = digits' ++ rest') :
  digits = digits' ∧ rest = rest'
  := run_unique h.2 h'.2 hrest hrest' heq

/-- A sign does not stand at the front of digits. -/
theorem IsDigits.ne_sign {digits : List Char} (h : IsDigits digits) (rest : List Char) :
  ∀ c ∈ (digits ++ rest).head?, c ≠ '+' ∧ c ≠ '-'
  := by
  obtain ⟨d, digits, rfl⟩ := List.exists_cons_of_ne_nil h.1
  have hd := h.2 d List.mem_cons_self
  intro c hc
  obtain rfl := Option.some.inj hc
  constructor <;>
  · rintro rfl
    cases hd

theorem SpellsSign.fixes {text : List Char} {factor : Int} (h : SpellsSign text factor) :
  Fixes SpellsSign (fun rest => ∀ c ∈ rest.head?, c ≠ '+' ∧ c ≠ '-') text factor
  := by
  intro text' factor' rest rest' h' hrest hrest' heq
  cases h <;> cases h'
  case none.none => exact ⟨rfl, heq⟩
  case none.plus =>
    obtain rfl : rest = _ := heq
    exact absurd rfl (hrest _ rfl).1
  case none.minus =>
    obtain rfl : rest = _ := heq
    exact absurd rfl (hrest _ rfl).2
  case plus.none =>
    obtain rfl : _ = rest' := heq
    exact absurd rfl (hrest' _ rfl).1
  case plus.plus => exact ⟨rfl, (List.cons.inj heq).2⟩
  case plus.minus => cases (List.cons.inj heq).1
  case minus.none =>
    obtain rfl : _ = rest' := heq
    exact absurd rfl (hrest' _ rfl).2
  case minus.plus => cases (List.cons.inj heq).1
  case minus.minus => exact ⟨rfl, (List.cons.inj heq).2⟩

theorem SpellsFraction.fixes {text digits : List Char} (h : SpellsFraction text digits) :
  Fixes SpellsFraction (fun rest => ∀ c ∈ rest.head?, c.isDigit = false ∧ c ≠ '.') text digits
  := by
  intro text' digits' rest rest' h' hrest hrest' heq
  cases h <;> cases h'
  case none.none => exact ⟨rfl, heq⟩
  case none.some =>
    obtain rfl : rest = _ := heq
    exact absurd rfl (hrest _ rfl).2
  case some.none =>
    obtain rfl : _ = rest' := heq
    exact absurd rfl (hrest' _ rfl).2
  case some.some h h' =>
    exact digits_unique h h' (fun c hc => (hrest c hc).1) (fun c hc => (hrest' c hc).1)
      (List.cons.inj heq).2

theorem SpellsExponent.fixes {text : List Char} {scale : Int} (h : SpellsExponent text scale) :
  Fixes SpellsExponent EndsValue text scale
  := by
  intro text' scale' rest rest' h' hrest hrest' heq
  have hletter : ∀ {rest more : List Char} {letter : Char}, EndsValue rest →
      letter = 'e' ∨ letter = 'E' → rest ≠ letter :: more := by
    rintro rest more letter hrest hletter rfl
    have hends := of_endsValue (hrest letter rfl)
    rcases hletter with rfl | rfl
    · exact hends.2.2.1 rfl
    · exact hends.2.2.2 rfl
  cases h with
  | none =>
    cases h' with
    | none => exact ⟨rfl, heq⟩
    | some h' => exact absurd heq (hletter hrest h')
  | some h hsign hdigits =>
    cases h' with
    | none => exact absurd heq.symm (hletter hrest' h)
    | some _ hsign' hdigits' =>
      simp only [List.cons_append, List.append_assoc, List.cons.injEq] at heq
      obtain ⟨rfl, hafter⟩ :=
        hsign.fixes hsign' (hdigits.ne_sign rest) (hdigits'.ne_sign rest') heq.2
      obtain ⟨rfl, hrest⟩ := digits_unique hdigits hdigits'
        (fun c hc => (of_endsValue (hrest c hc)).1) (fun c hc => (of_endsValue (hrest' c hc)).1)
        hafter
      exact ⟨rfl, hrest⟩

/-- Neither a digit nor a point stands at the front of an exponent, also when it is left out. -/
theorem SpellsExponent.head {text rest : List Char} {scale : Int} (h : SpellsExponent text scale)
    (hrest : EndsValue rest) :
  ∀ c ∈ (text ++ rest).head?, c.isDigit = false ∧ c ≠ '.'
  := by
  intro c hc
  cases h with
  | none =>
    have hends := of_endsValue (hrest c hc)
    exact ⟨hends.1, hends.2.1⟩
  | some hletter =>
    obtain rfl := Option.some.inj hc
    rcases hletter with rfl | rfl <;> decide

theorem SpellsFraction.head {text digits rest : List Char} (h : SpellsFraction text digits)
    (hrest : ∀ c ∈ rest.head?, c.isDigit = false ∧ c ≠ '.') :
  ∀ c ∈ (text ++ rest).head?, c.isDigit = false
  := by
  intro c hc
  cases h with
  | none => exact (hrest c hc).1
  | some =>
    obtain rfl := Option.some.inj hc
    rfl

theorem SpellsNumber.fixes {text : List Char} {decimal : Decimal} (h : SpellsNumber text decimal) :
  Fixes SpellsNumber EndsValue text decimal
  := by
  intro text' decimal' rest rest' h' hrest hrest' heq
  obtain ⟨hsign, _, hwhole, _, hfraction, hexponent⟩ := h
  obtain ⟨hsign', _, hwhole', _, hfraction', hexponent'⟩ := h'
  have hstop := hexponent.head hrest
  have hstop' := hexponent'.head hrest'
  simp only [List.append_assoc] at heq
  obtain ⟨rfl, heq₁⟩ := hsign.fixes hsign' (hwhole.ne_sign _) (hwhole'.ne_sign _) heq
  obtain ⟨rfl, heq₂⟩ :=
    digits_unique hwhole hwhole' (hfraction.head hstop) (hfraction'.head hstop') heq₁
  obtain ⟨rfl, heq₃⟩ := hfraction.fixes hfraction' hstop hstop' heq₂
  obtain ⟨rfl, hrest⟩ := hexponent.fixes hexponent' hrest hrest' heq₃
  exact ⟨rfl, hrest⟩

/-! #### Lists -/

/-- The text spells one or more items with commas between them, where `spells` says which texts
spell an item. -/
inductive Separated {α : Type} (spells : List Char → α → Prop) : List Char → List α → Prop where
  | one {text : List Char} {item : α} (h : spells text item) : Separated spells text [item]
  | more {first second : List Char} {item : α} {others : List α} (h : spells first item)
      (hs : Separated spells second others) :
      Separated spells (first ++ ',' :: second) (item :: others)

/-- The text spells items with commas between them, or no item. -/
inductive Listed {α : Type} (spells : List Char → α → Prop) : List Char → List α → Prop where
  | none {text : List Char} (h : Spaces text) : Listed spells text []
  | some {text : List Char} {items : List α} (h : Separated spells text items) :
      Listed spells text items

/-- What may follow a value and the blanks around it stands at the front of the text, or nothing. -/
def EndsItem (rest : List Char) : Prop :=
  ∀ c ∈ rest.head?, endsItem c = true

/-- The text starts with blanks and a character that may follow no value. -/
def StartsItem (text : List Char) : Prop :=
  ∃ before c more, text = before ++ c :: more ∧ Spaces before ∧ endsValue c = false

theorem isSpace_of_endsItem {c : Char} (h : endsItem c = true) :
  isSpace c = false
  := by
  simp only [endsItem, Bool.or_eq_true, beq_iff_eq] at h
  rcases h with (rfl | rfl) | rfl <;> rfl

theorem isSpace_of_endsValue {c : Char} (h : endsValue c = false) :
  isSpace c = false
  := (Bool.or_eq_false_iff.mp h).1

theorem EndsItem.not_space {rest : List Char} (h : EndsItem rest) :
  ∀ c ∈ rest.head?, isSpace c = false
  := fun c hc => isSpace_of_endsItem (h c hc)

/-- Blanks and what may follow them may follow a value. -/
theorem EndsItem.endsValue {after rest : List Char} (h : EndsItem rest) (hafter : Spaces after) :
  EndsValue (after ++ rest)
  := by
  intro c hc
  rw [Json.endsValue, Bool.or_eq_true]
  cases after with
  | nil => exact .inr (h c hc)
  | cons d after =>
    obtain rfl := Option.some.inj hc
    exact .inl (hafter _ List.mem_cons_self)

theorem StartsItem.append {text : List Char} (h : StartsItem text) (rest : List Char) :
  StartsItem (text ++ rest)
  := by
  obtain ⟨before, c, more, rfl, hbefore, hc⟩ := h
  exact ⟨before, c, more ++ rest, by simp, hbefore, hc⟩

/-- Blanks up to the end of a list are no items. -/
theorem StartsItem.ne_spaces {text space rest : List Char} {closing : Char} (h : StartsItem text)
    (hspace : Spaces space) (hclosing : endsItem closing = true) :
  text ≠ space ++ closing :: rest
  := by
  obtain ⟨before, c, more, rfl, hbefore, hc⟩ := h
  intro heq
  have hnot : ∀ d ∈ (c :: more).head?, isSpace d = false := by
    simpa using isSpace_of_endsValue hc
  have hnot' : ∀ d ∈ (closing :: rest).head?, isSpace d = false := by
    simpa using isSpace_of_endsItem hclosing
  obtain ⟨_, heq⟩ := run_unique hbefore hspace hnot hnot' heq
  obtain ⟨rfl, _⟩ := List.cons.inj heq
  rw [endsValue, hclosing, Bool.or_true] at hc
  cases hc

section

variable {α : Type} {spells : List Char → α → Prop} {closing : Char}

theorem endsItem_of_head? {rest : List Char} (hclosing : endsItem closing = true)
    (h : rest.head? = some closing) :
  EndsItem rest
  := by
  intro c hc
  obtain rfl := Option.some.inj (h.symm.trans hc)
  exact hclosing

theorem endsItem_comma (rest : List Char) :
  EndsItem (',' :: rest)
  := endsItem_of_head? rfl rfl

theorem fixes_one {text : List Char} {item : α} (hclosing : endsItem closing = true)
    (hcomma : closing ≠ ',') (h : Fixes spells EndsItem text item) :
  Fixes (Separated spells) (fun rest => rest.head? = some closing) text [item]
  := by
  intro text' items' rest rest' h' hrest hrest' heq
  have hends := endsItem_of_head? hclosing hrest
  cases h' with
  | one h' =>
    obtain ⟨rfl, hrest⟩ := h h' hends (endsItem_of_head? hclosing hrest') heq
    exact ⟨rfl, hrest⟩
  | more h' =>
    rw [List.append_assoc] at heq
    obtain ⟨_, rfl⟩ := h h' hends (endsItem_comma _) heq
    exact absurd (Option.some.inj hrest).symm hcomma

theorem fixes_more {first second : List Char} {item : α} {others : List α}
    (hclosing : endsItem closing = true) (hcomma : closing ≠ ',')
    (h : Fixes spells EndsItem first item)
    (hs : Fixes (Separated spells) (fun rest => rest.head? = some closing) second others) :
  Fixes (Separated spells) (fun rest => rest.head? = some closing) (first ++ ',' :: second)
    (item :: others)
  := by
  intro text' items' rest rest' h' hrest hrest' heq
  rw [List.append_assoc] at heq
  cases h' with
  | one h' =>
    obtain ⟨_, rfl⟩ := h h' (endsItem_comma _) (endsItem_of_head? hclosing hrest') heq
    exact absurd (Option.some.inj hrest').symm hcomma
  | more h' hs' =>
    rw [List.append_assoc] at heq
    obtain ⟨rfl, hafter⟩ := h h' (endsItem_comma _) (endsItem_comma _) heq
    obtain ⟨rfl, hrest⟩ := hs hs' hrest hrest' (List.cons.inj hafter).2
    exact ⟨rfl, hrest⟩

variable (hstarts : ∀ {text : List Char} {item : α}, spells text item → StartsItem text)

include hstarts

theorem Separated.starts {text : List Char} {items : List α} (h : Separated spells text items) :
  StartsItem text
  := by
  cases h with
  | one h => exact hstarts h
  | more h => exact (hstarts h).append _

theorem fixes_none {text : List Char} (hclosing : endsItem closing = true) (h : Spaces text) :
  Fixes (Listed spells) (fun rest => rest.head? = some closing) text []
  := by
  intro text' items' rest rest' h' hrest hrest' heq
  cases h' with
  | none h' =>
    have hends := endsItem_of_head? hclosing hrest
    have hends' := endsItem_of_head? hclosing hrest'
    exact ⟨rfl, (run_unique h h' hends.not_space hends'.not_space heq).2⟩
  | some h' =>
    obtain ⟨more, rfl⟩ := List.head?_eq_some_iff.mp hrest
    exact absurd heq.symm (((h'.starts hstarts).append rest').ne_spaces h hclosing)

theorem fixes_some {text : List Char} {items : List α} (hclosing : endsItem closing = true)
    (h : Separated spells text items)
    (hfixes : Fixes (Separated spells) (fun rest => rest.head? = some closing) text items) :
  Fixes (Listed spells) (fun rest => rest.head? = some closing) text items
  := by
  intro text' items' rest rest' h' hrest hrest' heq
  cases h' with
  | none h' =>
    obtain ⟨more, rfl⟩ := List.head?_eq_some_iff.mp hrest'
    exact absurd heq (((h.starts hstarts).append rest).ne_spaces h' hclosing)
  | some h' => exact hfixes h' hrest hrest' heq

end

theorem SpellsItems.separated :
  ∀ {text : List Char} {items : List Json}, SpellsItems text items → Separated SpellsItem text items
  | _, _, .one h => .one h
  | _, _, .more h hs => .more h hs.separated

theorem SpellsMembers.separated :
  ∀ {text : List Char} {members : List (String × Json)}, SpellsMembers text members →
    Separated SpellsMember text members
  | _, _, .one h => .one h
  | _, _, .more h hs => .more h hs.separated

/-! #### Values

The first character of a value shows of which kind it is. -/

/-- The kinds of values. -/
inductive Shape where
  | literal
  | number
  | string
  | array
  | object
  deriving DecidableEq

/-- The kind of a value. -/
def shape : Json → Shape
  | null | bool _ => .literal
  | number _ => .number
  | string _ => .string
  | array _ => .array
  | object _ => .object

/-- The kind of the values that start with the character. -/
def shapeOf? (c : Char) : Option Shape :=
  if c.isDigit || c == '-' then some .number
  else if c == '"' then some .string
  else if c == '[' then some .array
  else if c == '{' then some .object
  else if c == 'n' || c == 't' || c == 'f' then some .literal
  else none

theorem endsValue_of_shapeOf? {c : Char} {shape : Shape} (h : shapeOf? c = some shape) :
  endsValue c = false
  := by
  rw [← Bool.not_eq_true]
  intro hends
  simp only [endsValue, isSpace, endsItem, Bool.or_eq_true, beq_iff_eq] at hends
  rcases hends with (((rfl | rfl) | rfl) | rfl) | (rfl | rfl) | rfl <;> cases h

theorem SpellsNumber.head {text : List Char} {decimal : Decimal} (h : SpellsNumber text decimal) :
  ∃ c more, text = c :: more ∧ shapeOf? c = some .number
  := by
  obtain ⟨hsign, hplus, hwhole, _, _, _⟩ := h
  cases hsign with
  | none =>
    obtain ⟨d, digits, rfl⟩ := List.exists_cons_of_ne_nil hwhole.1
    have hd := hwhole.2 d List.mem_cons_self
    exact ⟨d, _, rfl, by simp [shapeOf?, hd]⟩
  | plus => exact absurd rfl hplus
  | minus => exact ⟨'-', _, rfl, rfl⟩

theorem SpellsValue.head {text : List Char} {value : Json} (h : SpellsValue text value) :
  ∃ c more, text = c :: more ∧ shapeOf? c = some value.shape
  := by
  cases h with
  | literal h =>
    simp only [literals, List.mem_cons, Prod.mk.injEq, List.not_mem_nil, or_false] at h
    rcases h with ⟨rfl, rfl⟩ | ⟨rfl, rfl⟩ | ⟨rfl, rfl⟩ <;> exact ⟨_, _, rfl, rfl⟩
  | number h => exact h.head
  | string h =>
    cases h
    exact ⟨_, _, rfl, rfl⟩
  | _ => exact ⟨_, _, rfl, rfl⟩

theorem SpellsValue.shape_eq {text text' rest rest' : List Char} {value value' : Json}
    (h : SpellsValue text value) (h' : SpellsValue text' value')
    (heq : text ++ rest = text' ++ rest') :
  value.shape = value'.shape
  := by
  obtain ⟨c, more, rfl, hshape⟩ := h.head
  obtain ⟨c', more', rfl, hshape'⟩ := h'.head
  obtain ⟨rfl, _⟩ := List.cons.inj heq
  exact Option.some.inj (hshape.symm.trans hshape')

theorem not_literal {text : List Char} {value : Json} (hshape : value.shape ≠ .literal) :
  (text, value) ∉ literals
  := by
  simp only [literals, List.mem_cons, Prod.mk.injEq, List.not_mem_nil, or_false]
  rintro (⟨_, rfl⟩ | ⟨_, rfl⟩ | ⟨_, rfl⟩) <;> exact hshape rfl

theorem SpellsValue.of_literal {text : List Char} {value : Json} (h : SpellsValue text value)
    (hshape : value.shape = .literal) :
  (text, value) ∈ literals
  := by
  cases h with
  | literal h => exact h
  | _ => cases hshape

theorem SpellsValue.of_number {text : List Char} {decimal : Decimal}
    (h : SpellsValue text (.number decimal)) :
  SpellsNumber text decimal
  := by
  cases h with
  | literal h => exact absurd h (not_literal nofun)
  | number h => exact h

theorem SpellsValue.of_string {text : List Char} {value : String}
    (h : SpellsValue text (.string value)) :
  SpellsString text value
  := by
  cases h with
  | literal h => exact absurd h (not_literal nofun)
  | string h => exact h

theorem SpellsValue.of_array {text : List Char} {items : List Json}
    (h : SpellsValue text (.array items)) :
  ∃ inside, text = '[' :: inside ++ [']'] ∧ Listed SpellsItem inside items
  := by
  cases h with
  | literal h => exact absurd h (not_literal nofun)
  | emptyArray h => exact ⟨_, rfl, .none h⟩
  | array h => exact ⟨_, rfl, .some h.separated⟩

theorem SpellsValue.of_object {text : List Char} {members : List (String × Json)}
    (h : SpellsValue text (.object members)) :
  ∃ inside, text = '{' :: inside ++ ['}'] ∧ Listed SpellsMember inside members
  := by
  cases h with
  | literal h => exact absurd h (not_literal nofun)
  | emptyObject h => exact ⟨_, rfl, .none h⟩
  | object h => exact ⟨_, rfl, .some h.separated⟩

theorem fixes_literal {text : List Char} {value : Json} (h : (text, value) ∈ literals) :
  Fixes SpellsValue EndsValue text value
  := by
  intro text' value' rest rest' h' _ _ heq
  have hshape : value.shape = .literal := by
    by_contra hshape
    exact not_literal hshape h
  have hvalue' := h'.of_literal ((SpellsValue.literal h |>.shape_eq h' heq) ▸ hshape)
  simp only [literals, List.mem_cons, Prod.mk.injEq, List.not_mem_nil, or_false] at h hvalue'
  rcases h with ⟨rfl, rfl⟩ | ⟨rfl, rfl⟩ | ⟨rfl, rfl⟩ <;>
  rcases hvalue' with ⟨rfl, rfl⟩ | ⟨rfl, rfl⟩ | ⟨rfl, rfl⟩ <;>
  first
  | exact ⟨rfl, List.append_cancel_left heq⟩
  | cases (List.cons.inj heq).1

theorem fixes_number {text : List Char} {decimal : Decimal} (h : SpellsNumber text decimal) :
  Fixes SpellsValue EndsValue text (.number decimal)
  := by
  intro text' value' rest rest' h' hrest hrest' heq
  have hshape := (SpellsValue.number h).shape_eq h' heq
  cases value' with
  | number decimal' =>
    obtain ⟨rfl, hrest⟩ := h.fixes h'.of_number hrest hrest' heq
    exact ⟨rfl, hrest⟩
  | _ => cases hshape

theorem fixes_string {text : List Char} {value : String} (h : SpellsString text value) :
  Fixes SpellsValue EndsValue text (.string value)
  := by
  intro text' value' rest rest' h' _ _ heq
  have hshape := (SpellsValue.string h).shape_eq h' heq
  cases value' with
  | string value' =>
    obtain ⟨rfl, hrest⟩ := h.fixes h'.of_string trivial trivial heq
    exact ⟨rfl, hrest⟩
  | _ => cases hshape

theorem fixes_array {inside : List Char} {items : List Json}
    (hvalue : SpellsValue ('[' :: inside ++ [']']) (.array items))
    (h : Fixes (Listed SpellsItem) (fun rest => rest.head? = some ']') inside items) :
  Fixes SpellsValue EndsValue ('[' :: inside ++ [']']) (.array items)
  := by
  intro text' value' rest rest' h' _ _ heq
  have hshape := hvalue.shape_eq h' heq
  cases value' with
  | array items' =>
    obtain ⟨inside', rfl, hlisted⟩ := h'.of_array
    obtain ⟨rfl, hrest⟩ := h.enclosed hlisted heq
    exact ⟨rfl, hrest⟩
  | _ => cases hshape

theorem fixes_object {inside : List Char} {members : List (String × Json)}
    (hvalue : SpellsValue ('{' :: inside ++ ['}']) (.object members))
    (h : Fixes (Listed SpellsMember) (fun rest => rest.head? = some '}') inside members) :
  Fixes SpellsValue EndsValue ('{' :: inside ++ ['}']) (.object members)
  := by
  intro text' value' rest rest' h' _ _ heq
  have hshape := hvalue.shape_eq h' heq
  cases value' with
  | object members' =>
    obtain ⟨inside', rfl, hlisted⟩ := h'.of_object
    obtain ⟨rfl, hrest⟩ := h.enclosed hlisted heq
    exact ⟨rfl, hrest⟩
  | _ => cases hshape

/-! #### Items and members -/

/-- No blank stands at the front of a value. -/
theorem SpellsValue.not_space {text : List Char} {value : Json} (h : SpellsValue text value)
    (rest : List Char) :
  ∀ c ∈ (text ++ rest).head?, isSpace c = false
  := by
  obtain ⟨d, more, rfl, hshape⟩ := h.head
  intro c hc
  obtain rfl := Option.some.inj hc
  exact isSpace_of_endsValue (endsValue_of_shapeOf? hshape)

theorem SpellsItem.starts {text : List Char} {value : Json} (h : SpellsItem text value) :
  StartsItem text
  := by
  obtain ⟨hbefore, hvalue, _⟩ := h
  obtain ⟨c, more, rfl, hshape⟩ := hvalue.head
  have hstarts : StartsItem (_ ++ c :: more) :=
    ⟨_, c, more, rfl, hbefore, endsValue_of_shapeOf? hshape⟩
  exact hstarts.append _

theorem SpellsMember.starts {text : List Char} {member : String × Json}
    (h : SpellsMember text member) :
  StartsItem text
  := by
  obtain ⟨hbefore, hname, hafter, _⟩ := h
  exact (SpellsItem.mk hbefore (.string hname) hafter).starts.append _

theorem fixes_item {before inside after : List Char} {value : Json} (hbefore : Spaces before)
    (hvalue : SpellsValue inside value) (hafter : Spaces after)
    (h : Fixes SpellsValue EndsValue inside value) :
  Fixes SpellsItem EndsItem (before ++ inside ++ after) value
  := by
  intro text' value' rest rest' h' hrest hrest' heq
  obtain ⟨hbefore', hvalue', hafter'⟩ := h'
  simp only [List.append_assoc] at heq
  obtain ⟨_, heq₁⟩ :=
    run_unique hbefore hbefore' (hvalue.not_space _) (hvalue'.not_space _) heq
  obtain ⟨rfl, heq₂⟩ := h hvalue' (hrest.endsValue hafter) (hrest'.endsValue hafter') heq₁
  exact ⟨rfl, (run_unique hafter hafter' hrest.not_space hrest'.not_space heq₂).2⟩

theorem fixes_member {before inside after text : List Char} {name : String} {value : Json}
    (hbefore : Spaces before) (hname : SpellsString inside name) (hafter : Spaces after)
    (h : Fixes SpellsItem EndsItem text value) :
  Fixes SpellsMember EndsItem (before ++ inside ++ after ++ ':' :: text) (name, value)
  := by
  intro text' member' rest rest' h' hrest hrest' heq
  obtain ⟨hbefore', hname', hafter', h'⟩ := h'
  simp only [List.append_assoc, List.cons_append] at heq
  obtain ⟨_, heq₁⟩ := run_unique hbefore hbefore' ((SpellsValue.string hname).not_space _)
    ((SpellsValue.string hname').not_space _) heq
  obtain ⟨rfl, heq₂⟩ := hname.fixes hname' trivial trivial heq₁
  obtain ⟨_, heq₃⟩ := run_unique hafter hafter' (by simp [isSpace]) (by simp [isSpace]) heq₂
  obtain ⟨rfl, hrest⟩ := h h' hrest hrest' (List.cons.inj heq₃).2
  exact ⟨rfl, hrest⟩

mutual

theorem SpellsValue.fixes :
  ∀ {text : List Char} {value : Json}, SpellsValue text value →
    Fixes SpellsValue EndsValue text value
  | _, _, .literal h => fixes_literal h
  | _, _, .number h => fixes_number h
  | _, _, .string h => fixes_string h
  | _, _, .emptyArray h => fixes_array (.emptyArray h) (fixes_none SpellsItem.starts rfl h)
  | _, _, .array h =>
    fixes_array (.array h) (fixes_some SpellsItem.starts rfl h.separated h.fixes)
  | _, _, .emptyObject h => fixes_object (.emptyObject h) (fixes_none SpellsMember.starts rfl h)
  | _, _, .object h =>
    fixes_object (.object h) (fixes_some SpellsMember.starts rfl h.separated h.fixes)

theorem SpellsItem.fixes :
  ∀ {text : List Char} {value : Json}, SpellsItem text value →
    Fixes SpellsItem EndsItem text value
  | _, _, .mk hbefore h hafter => fixes_item hbefore h hafter h.fixes

theorem SpellsItems.fixes :
  ∀ {text : List Char} {items : List Json}, SpellsItems text items →
    Fixes (Separated SpellsItem) (fun rest => rest.head? = some ']') text items
  | _, _, .one h => fixes_one rfl (by decide) h.fixes
  | _, _, .more h hs => fixes_more rfl (by decide) h.fixes hs.fixes

theorem SpellsMember.fixes :
  ∀ {text : List Char} {member : String × Json}, SpellsMember text member →
    Fixes SpellsMember EndsItem text member
  | _, _, .mk hbefore hname hafter h => fixes_member hbefore hname hafter h.fixes

theorem SpellsMembers.fixes :
  ∀ {text : List Char} {members : List (String × Json)}, SpellsMembers text members →
    Fixes (Separated SpellsMember) (fun rest => rest.head? = some '}') text members
  | _, _, .one h => fixes_one rfl (by decide) h.fixes
  | _, _, .more h hs => fixes_more rfl (by decide) h.fixes hs.fixes

end

/-- A text is JSON for one value at most. -/
theorem Reads.unique {text : String} {value value' : Json} (h : Reads text value)
    (h' : Reads text value') :
  value = value'
  := by
  have hnothing : EndsItem [] := by
    intro c hc
    cases hc
  exact (SpellsItem.fixes h h' hnothing hnothing rfl).1

end Json

end Mientras
