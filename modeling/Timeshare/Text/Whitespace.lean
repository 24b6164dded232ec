/-!
# White space

Program text, job files and their lines are laid out with Unicode white space.  The fields of a
control card are separated by the white space of ASCII only.
-/

namespace Timeshare.Text

/-- The Unicode property White_Space: 25 code points. -/
def isWhiteSpace (c : Char) : Bool :=
  (0x09 ≤ c.toNat && c.toNat ≤ 0x0D) || c.toNat == 0x20 || c.toNat == 0x85 || c.toNat == 0xA0 ||
    c.toNat == 0x1680 || (0x2000 ≤ c.toNat && c.toNat ≤ 0x200A) || c.toNat == 0x2028 ||
    c.toNat == 0x2029 || c.toNat == 0x202F || c.toNat == 0x205F || c.toNat == 0x3000

/-- The white space that separates the fields of a control card.  The vertical tab is not part of
it, although it is white space. -/
def isCardSpace (c : Char) : Bool :=
  c.toNat == 0x20 || c.toNat == 0x09 || c.toNat == 0x0A || c.toNat == 0x0C || c.toNat == 0x0D

/-- The maximal non-empty runs of characters of `text` that are no separators, in order. -/
def fields (isSeparator : Char → Bool) (text : String) : List String :=
  ((text.toList.splitOnP isSeparator).filter fun field => !field.isEmpty).map String.ofList

def words (text : String) : List String :=
  fields isWhiteSpace text

def trim (text : String) : String :=
  String.ofList
    (((text.toList.dropWhile isWhiteSpace).reverse.dropWhile isWhiteSpace).reverse)

/-- What follows `lead` in `text`, or `none` when `text` does not start with `lead`. -/
def after? (lead text : String) : Option String :=
  (lead.toList.isPrefixOf? text.toList).map String.ofList

def startsWith (lead text : String) : Bool :=
  (after? lead text).isSome

/-- The pieces of `text` between line feeds: one more than it has line feeds. -/
def lineFeedPieces (text : String) : List String :=
  (text.toList.splitOnP fun c => c == '\n').map String.ofList

end Timeshare.Text
