/-!
# Numerals

Rendering numbers in upper-case hexadecimal with padding, and reading unsigned numerals in a given
radix below a given bound.
-/

namespace Timeshare.Text

/-- The upper-case hexadecimal digit of a value below sixteen. -/
def hexDigit (value : Nat) : Char :=
  if value < 10 then Char.ofNat (0x30 + value) else Char.ofNat (0x37 + value)

def hexByte (byte : UInt8) : String :=
  String.ofList [hexDigit (byte.toNat / 16), hexDigit (byte.toNat % 16)]

/-- Bytes as two hexadecimal digits each, with a space between each two. -/
def hexBytes (bytes : List UInt8) : String :=
  " ".intercalate (bytes.map hexByte)

/-- A number in upper-case hexadecimal without leading zeros. -/
def hex (number : Nat) : String :=
  String.ofList ((Nat.toDigits 16 number).map Char.toUpper)

/-- `text` moved right with `fill` until it is `width` characters wide. -/
def padLeft (width : Nat) (fill : Char) (text : String) : String :=
  String.ofList (List.replicate (width - text.length) fill) ++ text

/-- `text` followed by spaces until it is `width` characters wide. -/
def padRight (width : Nat) (text : String) : String :=
  text ++ String.ofList (List.replicate (width - text.length) ' ')

/-- A number in upper-case hexadecimal with leading zeros to at least `width` digits. -/
def hexPadded (width number : Nat) : String :=
  padLeft width '0' (hex number)

def digitValue? (c : Char) : Option Nat :=
  if 0x30 ≤ c.toNat && c.toNat ≤ 0x39 then some (c.toNat - 0x30)
  else if 0x41 ≤ c.toNat && c.toNat ≤ 0x46 then some (c.toNat - 0x37)
  else if 0x61 ≤ c.toNat && c.toNat ≤ 0x66 then some (c.toNat - 0x57)
  else none

def isHexDigit (c : Char) : Bool :=
  (digitValue? c).isSome

/-- The value of a row of digits, most significant first; `none` when one of them is no digit of
the radix. -/
def digitsValue? (radix : Nat) (digits : List Char) : Option Nat :=
  digits.foldlM (fun total c =>
    match digitValue? c with
    | some digit => if digit < radix then some (total * radix + digit) else none
    | none => none) 0

/-- The value of an unsigned numeral: an optional plus sign and then one or more digits of the
radix, for a value below `bound`. -/
def numeral? (radix bound : Nat) (text : String) : Option Nat :=
  let digits :=
    match text.toList with
    | '+' :: rest => rest
    | all => all
  if digits.isEmpty then none
  else
    match digitsValue? radix digits with
    | some value => if value < bound then some value else none
    | none => none

end Timeshare.Text
