import Mientras.Text.Unprintable

/-!
# Quoted characters and texts

`quoteChar` and `quoteText` show a character or a text between quotation marks.  A mark, a
backslash and whatever could not be shown as it is are written as an escape that starts with a
backslash.
-/

namespace Mientras.Text

/-- The character as it stands between two of the given quotation marks. -/
def escaped (mark c : Char) : List Char :=
  if c = Char.ofNat 0 then ['\\', '0']
  else if c = '\t' then ['\\', 't']
  else if c = '\r' then ['\\', 'r']
  else if c = '\n' then ['\\', 'n']
  else if c = '\\' then ['\\', '\\']
  else if c = mark then ['\\', mark]
  else if isExtender c || isUnprintable c then
    ['\\', 'u', '{'] ++ Nat.toDigits 16 c.toNat ++ ['}']
  else [c]

/-- The text between two of the given quotation marks. -/
def quoted (mark : Char) (text : List Char) : List Char :=
  mark :: text.flatMap (escaped mark) ++ [mark]

/-- A character between single marks. -/
def quoteChar (c : Char) : String :=
  String.ofList (quoted '\'' [c])

/-- A text between double marks. -/
def quoteText (text : String) : String :=
  String.ofList (quoted '"' text.toList)

end Mientras.Text
