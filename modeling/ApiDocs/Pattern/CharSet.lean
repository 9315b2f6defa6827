import ApiDocs.Text.Case
import ApiDocs.Text.Class

/-!
Sets of characters as patterns describe them.
-/

namespace ApiDocs.Pattern

inductive CharSet where
  | empty
  | range (first last : Char)
  | digit
  | space
  | word
  | union (left right : CharSet)
  | inter (left right : CharSet)
  | diff (left right : CharSet)
  | symmDiff (left right : CharSet)
  | compl (set : CharSet)
  /-- The set with the case variants of its characters. -/
  | anyCase (set : CharSet)
  deriving DecidableEq

namespace CharSet

def single (char : Char) : CharSet := range char char

def contains : CharSet → Char → Bool
  | empty, _ => false
  | range first last, char => first ≤ char && char ≤ last
  | digit, char => Text.isDecimalDigit char
  | space, char => Text.isWhite char
  | word, char => Text.isWord char
  | union left right, char => left.contains char || right.contains char
  | inter left right, char => left.contains char && right.contains char
  | diff left right, char => left.contains char && !right.contains char
  | symmDiff left right, char => left.contains char != right.contains char
  | compl set, char => !set.contains char
  | anyCase set, char => (Text.caseVariants char).any set.contains

def ofRanges (ranges : List (Char × Char)) : CharSet :=
  ranges.foldr (fun (first, last) set => union (range first last) set) empty

/-- The classes of ASCII characters that have a name in brackets and colons. -/
def named? : String → Option CharSet
  | "alnum" => some (ofRanges [('0', '9'), ('A', 'Z'), ('a', 'z')])
  | "alpha" => some (ofRanges [('A', 'Z'), ('a', 'z')])
  | "ascii" => some (range '\x00' '\x7f')
  | "blank" => some (ofRanges [('\t', '\t'), (' ', ' ')])
  | "cntrl" => some (ofRanges [('\x00', '\x1f'), ('\x7f', '\x7f')])
  | "digit" => some (range '0' '9')
  | "graph" => some (range '!' '~')
  | "lower" => some (range 'a' 'z')
  | "print" => some (range ' ' '~')
  | "punct" => some (ofRanges [('!', '/'), (':', '@'), ('[', '\x60'), ('\x7b', '~')])
  | "space" => some (ofRanges [('\t', '\r'), (' ', ' ')])
  | "upper" => some (range 'A' 'Z')
  | "word" => some (ofRanges [('0', '9'), ('A', 'Z'), ('_', '_'), ('a', 'z')])
  | "xdigit" => some (ofRanges [('0', '9'), ('A', 'F'), ('a', 'f')])
  | _ => none

end CharSet

end ApiDocs.Pattern
