/-!
# Texts in JSON

`jsonText` writes a text as a JSON string.  Only the quotation mark, the backslash and the
control characters below the space are written as escapes.
-/

namespace Mientras.Text

/-- A character as it stands in a JSON string. -/
def jsonEscaped (c : Char) : List Char :=
  if c = '"' then ['\\', '"']
  else if c = '\\' then ['\\', '\\']
  else if c = Char.ofNat 8 then ['\\', 'b']
  else if c = '\t' then ['\\', 't']
  else if c = '\n' then ['\\', 'n']
  else if c = Char.ofNat 12 then ['\\', 'f']
  else if c = '\r' then ['\\', 'r']
  else if c.toNat < 0x20 then
    ['\\', 'u', '0', '0', (c.toNat / 16).digitChar, (c.toNat % 16).digitChar]
  else [c]

/-- A text as a JSON string. -/
def jsonText (text : String) : String :=
  "\"" ++ String.ofList (text.toList.flatMap jsonEscaped) ++ "\""

end Mientras.Text
