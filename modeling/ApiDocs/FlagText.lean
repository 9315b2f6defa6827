import ApiDocs.Text.Class
import ApiDocs.Text.Hex
import ApiDocs.Text.Affix

/-!
Flag words as text: the names of the bits that are set, joined with bars, and the bits without a
name as one hexadecimal number.
-/

namespace ApiDocs

namespace Text

/-- The pieces between the separators; there is one more of them. -/
def splitOn (separator : Char) : List Char → List (List Char)
  | [] => [[]]
  | c :: rest =>
    if c = separator then [] :: splitOn separator rest
    else
      match splitOn separator rest with
      | piece :: pieces => (c :: piece) :: pieces
      | [] => [[c]]

end Text

namespace FlagText

open Text

/-- The names that flag words of one kind may be written with. -/
structure Names (width : Nat) where
  /-- A name for each known bit, in the order in which they are written. -/
  bits : List (String × BitVec width)
  /-- Names for several bits at once, which are read but not written. -/
  groups : List (String × BitVec width)

namespace Names

def lookup (names : Names width) (name : String) : Option (BitVec width) :=
  (names.bits ++ names.groups).lookup name

def unnamed (names : Names width) (word : BitVec width) : BitVec width :=
  names.bits.foldl (fun rest (_, bit) => rest &&& ~~~bit) word

end Names

/-- A number after `0x` that fits the word; a plus sign may stand before its digits. -/
def readNumber (width : Nat) (digits : List Char) : Option (BitVec width) := do
  let number ← hexNumber? ((after? ['+'] digits).getD digits)
  let word := BitVec.ofNat width number
  if word.toNat = number then some word else none

def readItem (names : Names width) (item : List Char) : Option (BitVec width) :=
  match after? ['0', 'x'] item with
  | some digits => readNumber width digits
  | none => names.lookup (String.ofList item)

/-- Reads a flag word; blank text is the empty word. -/
def read (names : Names width) (text : String) : Option (BitVec width) :=
  match trimChars text.toList with
  | [] => some 0
  | _ => do
    let words ← (splitOn '|' text.toList).mapM fun item => readItem names (trimChars item)
    return words.foldl (· ||| ·) 0

def items (names : Names width) (word : BitVec width) : List String :=
  let rest := names.unnamed word
  (names.bits.filter fun (_, bit) => word &&& bit != 0).map (·.1) ++
    if rest = 0 then [] else ["0x" ++ String.ofList (Nat.toDigits 16 rest.toNat)]

def write (names : Names width) (word : BitVec width) : String :=
  " | ".intercalate (items names word)

end FlagText

end ApiDocs
