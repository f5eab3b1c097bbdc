import Mientras.Text.Ranges

/-!
# Blank characters

`isBlank` is the Unicode property White_Space, given by the table `blanks`.  `trimEnd` removes
from the end of a text every character with a given property.
-/

namespace Mientras.Text

/-- The characters with the property White_Space. -/
def blanks : Ranges :=
  [(0x9, 0xD), (0x20, 0x20), (0x85, 0x85), (0xA0, 0xA0), (0x1680, 0x1680), (0x2000, 0x200A),
   (0x2028, 0x2029), (0x202F, 0x202F), (0x205F, 0x205F), (0x3000, 0x3000)]

/-- A blank is a character with the property White_Space. -/
def isBlank (c : Char) : Bool :=
  blanks.covers c

/-- The text without the longest ending all of whose characters satisfy `p`. -/
def trimEnd (p : Char → Bool) (text : List Char) : List Char :=
  (text.reverse.dropWhile p).reverse

@[simp]
theorem trimEnd_nil (p : Char → Bool) :
  trimEnd p [] = []
  := rfl

/-- What `trimEnd` removes is an ending of the text whose characters all satisfy `p`. -/
theorem exists_trimEnd_append (p : Char → Bool) (text : List Char) :
  ∃ ending, text = trimEnd p text ++ ending ∧ ∀ c ∈ ending, p c = true
  := by
  refine ⟨(text.reverse.takeWhile p).reverse, ?_, ?_⟩
  · rw [trimEnd, ← List.reverse_append, List.takeWhile_append_dropWhile, List.reverse_reverse]
  · intro c hc
    have := List.all_takeWhile (p := p) (l := text.reverse)
    exact List.all_eq_true.mp this c (List.mem_reverse.mp hc)

theorem mem_of_mem_trimEnd {p : Char → Bool} {text : List Char} {c : Char}
    (h : c ∈ trimEnd p text) :
  c ∈ text
  := by
  obtain ⟨ending, htext, _⟩ := exists_trimEnd_append p text
  rw [htext]
  exact List.mem_append_left ending h

/-- An ending whose characters all satisfy `p` makes no difference. -/
theorem trimEnd_append {p : Char → Bool} {ending : List Char} (h : ∀ c ∈ ending, p c = true)
    (text : List Char) :
  trimEnd p (text ++ ending) = trimEnd p text
  := by
  rw [trimEnd, trimEnd, List.reverse_append, List.dropWhile_append_of_pos (by simpa using h)]

/-- Nothing is removed before a character that does not satisfy `p`. -/
theorem trimEnd_append_cons {p : Char → Bool} {c : Char} (hc : p c = false)
    (text more : List Char) :
  trimEnd p (text ++ c :: more) = text ++ c :: trimEnd p more
  := by
  rw [trimEnd, trimEnd, List.reverse_append, List.reverse_cons, List.append_assoc,
    List.singleton_append, List.dropWhile_append]
  split
  · rename_i hempty
    rw [List.isEmpty_iff.mp hempty, List.dropWhile_cons_of_neg (by simp [hc])]
    simp
  · simp

theorem trimEnd_cons {p : Char → Bool} {c : Char} (hc : p c = false) (more : List Char) :
  trimEnd p (c :: more) = c :: trimEnd p more
  := trimEnd_append_cons hc [] more

end Mientras.Text
