/-!
# UTF-8

Text is stored as its UTF-8 bytes.  Reading bytes back as text either insists on well-formed UTF-8
or puts U+FFFD in place of each maximal ill-formed part.
-/

namespace Timeshare.Text

def utf8Bytes (text : String) : List UInt8 :=
  text.toByteArray.data.toList

/-- The text whose UTF-8 bytes these are, or `none` when they are not well-formed. -/
def decodeUtf8? (bytes : List UInt8) : Option String :=
  String.fromUTF8? ⟨bytes.toArray⟩

/-- The character that stands for bytes that are no text. -/
def replacementCharacter : Char :=
  Char.ofNat 0xFFFD

/-- Reads `count` more bytes of a code point whose leading bits are `value`.  The next byte must
lie between `low` and `high`, those after it in the range of all continuation bytes.  A byte out of
range ends the sequence: it is left unread, and what was read becomes the replacement character. -/
def decodeRest : Nat → UInt8 → UInt8 → Nat → List UInt8 → Char × List UInt8
  | 0, _, _, value, rest => (Char.ofNat value, rest)
  | _ + 1, _, _, _, [] => (replacementCharacter, [])
  | count + 1, low, high, value, byte :: rest =>
    if low ≤ byte && byte ≤ high then
      decodeRest count 0x80 0xBF (value * 64 + (byte.toNat - 0x80)) rest
    else
      (replacementCharacter, byte :: rest)

/-- Reads one character that starts with the byte `lead`: the character and the bytes after it.
The bounds of the second byte keep out overlong forms, surrogates and values past U+10FFFF. -/
def decodeFirst (lead : UInt8) (rest : List UInt8) : Char × List UInt8 :=
  if lead < 0x80 then (Char.ofNat lead.toNat, rest)
  else if lead < 0xC2 then (replacementCharacter, rest)
  else if lead < 0xE0 then decodeRest 1 0x80 0xBF (lead.toNat - 0xC0) rest
  else if lead < 0xF0 then
    let low := if lead = 0xE0 then 0xA0 else 0x80
    let high := if lead = 0xED then 0x9F else 0xBF
    decodeRest 2 low high (lead.toNat - 0xE0) rest
  else if lead < 0xF5 then
    let low := if lead = 0xF0 then 0x90 else 0x80
    let high := if lead = 0xF4 then 0x8F else 0xBF
    decodeRest 3 low high (lead.toNat - 0xF0) rest
  else (replacementCharacter, rest)

/-- The characters of the bytes, at most `limit` of them. -/
def decodeCharacters : Nat → List UInt8 → List Char
  | 0, _ => []
  | _ + 1, [] => []
  | limit + 1, lead :: rest =>
    let decoded := decodeFirst lead rest
    decoded.1 :: decodeCharacters limit decoded.2

/-- The text of the bytes.  Well-formed bytes are read exactly; in others every maximal ill-formed
part becomes one replacement character.  There are no more characters than bytes, so the limit cuts
nothing off. -/
def decodeLossy (bytes : List UInt8) : String :=
  match decodeUtf8? bytes with
  | some text => text
  | none => String.ofList (decodeCharacters bytes.length bytes)

end Timeshare.Text
