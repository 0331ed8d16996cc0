import CodeAtlas.Text.Hidden

/-!
# Quoted text

A text between double quotes, as shown inside a message.  Backslash, double
quote and the common control characters have short escapes; every other
character without a glyph of its own is spelled by its number.
-/

namespace CodeAtlas.Text

/-- How one character is spelled between quotes. -/
def quotedChar (c : Char) : String :=
  if c = '"' then "\\\""
  else if c = '\\' then "\\\\"
  else if c = '\n' then "\\n"
  else if c = '\r' then "\\r"
  else if c = '\t' then "\\t"
  else if c.toNat = 0 then "\\0"
  else if isHidden c then
    "\\u\x7b" ++ String.ofList (Nat.toDigits 16 c.toNat) ++ "\x7d"
  else String.ofList [c]

/-- The text between double quotes. -/
def quoted (text : String) : String :=
  "\"" ++ String.join (text.toList.map quotedChar) ++ "\""

end CodeAtlas.Text
