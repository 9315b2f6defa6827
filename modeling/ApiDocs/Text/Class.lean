import ApiDocs.Text.Alphabetic
import ApiDocs.Text.Number
import ApiDocs.Text.Mark

/-!
Character classes over all of Unicode, and the removal of surrounding white space.
-/

namespace ApiDocs.Text

def isAlphabetic (char : Char) : Bool := alphabetic.contains char

def isAlphanumeric (char : Char) : Bool := alphabetic.contains char || number.contains char

def isDecimalDigit (char : Char) : Bool := decimalDigit.contains char

/-- The code points with the property White_Space. -/
def whiteSpace : CodeRanges := ⟨#[
  (0x9, 0xD), (0x20, 0x20), (0x85, 0x85), (0xA0, 0xA0), (0x1680, 0x1680), (0x2000, 0x200A),
  (0x2028, 0x2029), (0x202F, 0x202F), (0x205F, 0x205F), (0x3000, 0x3000)]⟩

def isWhite (char : Char) : Bool := whiteSpace.contains char

/-- Word characters: letters, marks, decimal digits, connectors and the two joiners. -/
def isWord (char : Char) : Bool :=
  alphabetic.contains char || mark.contains char || decimalDigit.contains char ||
    connector.contains char || char == '\u200c' || char == '\u200d'

/-- The characters without the white space at both ends. -/
def trimChars (chars : List Char) : List Char :=
  ((chars.dropWhile isWhite).reverse.dropWhile isWhite).reverse

def trim (text : String) : String := String.ofList (trimChars text.toList)

end ApiDocs.Text
