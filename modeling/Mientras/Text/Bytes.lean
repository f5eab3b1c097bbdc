/-!
# Measuring text in bytes

Offsets into a text count the bytes of its UTF-8 form.  `byteSize` measures a text, and
`splitBytes? n` parts a text after exactly `n` bytes, where that is possible.
-/

namespace Mientras.Text

/-- The number of bytes in the UTF-8 form of the text. -/
def byteSize : List Char → Nat
  | [] => 0
  | c :: text => c.utf8Size + byteSize text

@[simp]
theorem byteSize_nil :
  byteSize [] = 0
  := rfl

@[simp]
theorem byteSize_cons (c : Char) (text : List Char) :
  byteSize (c :: text) = c.utf8Size + byteSize text
  := rfl

@[simp]
theorem byteSize_append (first second : List Char) :
  byteSize (first ++ second) = byteSize first + byteSize second
  := by
  induction first with
  | nil => simp
  | cons c first ih => simp [ih, Nat.add_assoc]

/-- The bytes of a string are the bytes of its characters. -/
theorem byteSize_toList (s : String) :
  byteSize s.toList = s.utf8ByteSize
  := by
  have hlist : ∀ text, byteSize text = (String.ofList text).utf8ByteSize := by
    intro text
    induction text with
    | nil => simp
    | cons c text ih =>
      rw [byteSize_cons, ih, ← List.singleton_append, String.ofList_append,
        String.utf8ByteSize_append, ← String.singleton_eq_ofList, String.utf8ByteSize_singleton]
  rw [hlist, String.ofList_toList]

/-- Only the empty text takes no bytes. -/
theorem byteSize_eq_zero {text : List Char} :
  byteSize text = 0 ↔ text = []
  := by
  cases text with
  | nil => simp
  | cons c text =>
    have := c.utf8Size_pos
    simp only [byteSize_cons, reduceCtorEq, iff_false]
    omega

/-- The parts of the text before and after its first `n` bytes.  There are none when the text is
shorter, and none when a character stands across that place. -/
def splitBytes? : Nat → List Char → Option (List Char × List Char)
  | 0, text => some ([], text)
  | _ + 1, [] => none
  | n + 1, c :: text =>
    if c.utf8Size ≤ n + 1 then
      (splitBytes? (n + 1 - c.utf8Size) text).map fun parts => (c :: parts.1, parts.2)
    else none

/-- The text splits after `n` bytes exactly into a first part of `n` bytes and what follows it.
-/
theorem splitBytes?_eq_some_iff {n : Nat} {text first second : List Char} :
  splitBytes? n text = some (first, second) ↔ text = first ++ second ∧ byteSize first = n
  := by
  induction text generalizing n first second with
  | nil =>
    cases n with
    | zero =>
      simp only [splitBytes?, Option.some.injEq, Prod.mk.injEq, byteSize_eq_zero,
        List.nil_eq_append_iff]
      grind
    | succ n =>
      simp only [splitBytes?, reduceCtorEq, List.nil_eq_append_iff, false_iff]
      rintro ⟨⟨rfl, _⟩, h⟩
      simp at h
  | cons c text ih =>
    have hc := c.utf8Size_pos
    cases n with
    | zero =>
      simp only [splitBytes?, Option.some.injEq, Prod.mk.injEq, byteSize_eq_zero]
      grind
    | succ n =>
      cases first with
      | nil =>
        simp only [splitBytes?]
        split <;> simp
      | cons d first =>
        simp only [splitBytes?, List.cons_append, List.cons.injEq, byteSize_cons]
        split
        · rename_i h
          simp only [Option.map_eq_some_iff, Prod.exists, ih, Prod.mk.injEq, List.cons.injEq]
          constructor
          · rintro ⟨a, b, ⟨rfl, hsize⟩, ⟨rfl, rfl⟩, rfl⟩
            exact ⟨⟨rfl, rfl⟩, by omega⟩
          · rintro ⟨⟨rfl, rfl⟩, hsize⟩
            exact ⟨first, second, ⟨rfl, by omega⟩, ⟨rfl, rfl⟩, rfl⟩
        · rename_i h
          simp only [reduceCtorEq, false_iff]
          rintro ⟨⟨rfl, _⟩, hsize⟩
          omega

end Mientras.Text
