import Timeshare.Text.Glyphless

/-!
# Quoted text

How names, file contents and keys appear inside messages: between quotation marks, with an escape
for everything that would not show.
-/

namespace Timeshare.Text

/-- One character as it appears between quotation marks of the kind `mark`. -/
def escapeCharacter (mark c : Char) : String :=
  if c.toNat = 0x00 then "\\0"
  else if c.toNat = 0x09 then "\\t"
  else if c.toNat = 0x0D then "\\r"
  else if c.toNat = 0x0A then "\\n"
  else if c = '\\' then "\\\\"
  else if c = mark then String.ofList ['\\', c]
  else if isGlyphless c then
    "\\u\x7b" ++ String.ofList (Nat.toDigits 16 c.toNat) ++ "\x7d"
  else String.singleton c

/-- `text` between double quotation marks. -/
def quoteText (text : String) : String :=
  "\"" ++ String.join (text.toList.map (escapeCharacter '"')) ++ "\""

/-- A character between single quotation marks. -/
def quoteCharacter (c : Char) : String :=
  let mark := Char.ofNat 0x27
  String.singleton mark ++ escapeCharacter mark c ++ String.singleton mark

end Timeshare.Text
