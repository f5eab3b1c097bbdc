/-!
# Texts inside texts

`hasInfix pattern text` says that `pattern` occurs somewhere in `text`.
-/

namespace Mientras.Text

/-- The pattern stands at the front of the text or of one of its endings. -/
def hasInfix (pattern : List Char) : List Char → Bool
  | [] => pattern.isEmpty
  | c :: text => pattern.isPrefixOf (c :: text) || hasInfix pattern text

theorem hasInfix_iff (pattern text : List Char) :
  hasInfix pattern text = true ↔ pattern <:+: text
  := by
  induction text with
  | nil => simp [hasInfix]
  | cons c text ih => simp [hasInfix, ih, List.infix_cons_iff]

end Mientras.Text
