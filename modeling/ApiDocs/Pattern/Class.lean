import ApiDocs.Pattern.Expr
import ApiDocs.Text.Hex

/-!
The written form of escapes and of character classes in brackets.
-/

namespace ApiDocs.Pattern

open Text

inductive Escaped where
  | char (value : Char)
  | set (value : CharSet)
  | edge (value : Edge)

/-- The character with this code, unless it is half of a pair or too great. -/
def scalar? (code : Nat) : Option Char :=
  if code.isValidChar then some (Char.ofNat code) else none

/-- A code in braces with any number of digits, or with exactly `width` digits. -/
def readCode (width : Nat) (chars : List Char) : Option (Char × List Char) :=
  match chars with
  | '\x7b' :: rest => do
    let char ← hexNumber? (rest.takeWhile (· != '\x7d')) >>= scalar?
    match rest.dropWhile (· != '\x7d') with
    | _ :: rest => some (char, rest)
    | [] => none
  | _ => do
    let char ← hexNumber? (chars.take width) >>= scalar?
    if (chars.take width).length = width then some (char, chars.drop width) else none

def isBoundaryChar (char : Char) : Bool := char.isAlpha || char == '-'

def boundary? : String → Option Edge
  | "start" => some .wordStart
  | "end" => some .wordEnd
  | "start-half" => some .wordStartHalf
  | "end-half" => some .wordEndHalf
  | _ => none

/-- A word boundary, with its kind in braces if a word stands there. -/
def readBoundary (chars : List Char) : Option (Edge × List Char) :=
  match chars with
  | ['\x7b'] => none
  | '\x7b' :: c :: rest =>
    if isBoundaryChar c then
      match rest.dropWhile isBoundaryChar with
      | '\x7d' :: after => do
        let edge ← boundary? (String.ofList (c :: rest.takeWhile isBoundaryChar))
        some (edge, after)
      | _ => none
    else some (.wordBoundary, chars)
  | _ => some (.wordBoundary, chars)

def readEscape : List Char → Option (Escaped × List Char)
  | [] => none
  | c :: rest =>
    match c with
    | 'x' => (readCode 2 rest).map fun (char, rest) => (.char char, rest)
    | 'u' => (readCode 4 rest).map fun (char, rest) => (.char char, rest)
    | 'U' => (readCode 8 rest).map fun (char, rest) => (.char char, rest)
    | 'd' => some (.set .digit, rest)
    | 'D' => some (.set (.compl .digit), rest)
    | 's' => some (.set .space, rest)
    | 'S' => some (.set (.compl .space), rest)
    | 'w' => some (.set .word, rest)
    | 'W' => some (.set (.compl .word), rest)
    | 'a' => some (.char '\x07', rest)
    | 'f' => some (.char '\x0c', rest)
    | 't' => some (.char '\t', rest)
    | 'n' => some (.char '\n', rest)
    | 'r' => some (.char '\r', rest)
    | 'v' => some (.char '\x0b', rest)
    | 'A' => some (.edge .textStart, rest)
    | 'z' => some (.edge .textEnd, rest)
    | 'b' => (readBoundary rest).map fun (edge, rest) => (.edge edge, rest)
    | 'B' => some (.edge .noWordBoundary, rest)
    | '<' => some (.edge .wordStart, rest)
    | '>' => some (.edge .wordEnd, rest)
    | c => if c.toNat < 0x80 && !c.isAlphanum then some (.char c, rest) else none

/-- In a spaced pattern, the rest after white space and comments, which end with their line. -/
def skipSpace (inComment : Bool) : List Char → List Char
  | [] => []
  | c :: rest =>
    if inComment then skipSpace (c != '\n') rest
    else if isWhite c then skipSpace false rest
    else if c == '#' then skipSpace true rest
    else c :: rest

inductive SetOp where
  | inter
  | diff
  | symmDiff

def SetOp.apply : SetOp → CharSet → CharSet → CharSet
  | inter => .inter
  | diff => .diff
  | symmDiff => .symmDiff

/-- How the characters of a class are taken. -/
structure ClassMode where
  anyCase : Bool
  spaced : Bool

/-- An open bracket: the operation that awaits its right side, and the items read since. -/
structure Bracket where
  negated : Bool
  pending : Option (SetOp × CharSet) := none
  items : CharSet := .empty

namespace Bracket

def add (set : CharSet) (bracket : Bracket) : Bracket :=
  { bracket with items := .union bracket.items set }

def fold (mode : ClassMode) (set : CharSet) : CharSet :=
  if mode.anyCase then .anyCase set else set

/-- The value of all items and operations so far; operations are taken from left to right. -/
def value (mode : ClassMode) (bracket : Bracket) : CharSet :=
  match bracket.pending with
  | none => bracket.items
  | some (op, left) => op.apply (fold mode left) (fold mode bracket.items)

def operate (mode : ClassMode) (op : SetOp) (bracket : Bracket) : Bracket :=
  { bracket with pending := some (op, bracket.value mode), items := .empty }

def close (mode : ClassMode) (bracket : Bracket) : CharSet :=
  let set := fold mode (bracket.value mode)
  if bracket.negated then .compl set else set

/-- Reads the beginning of a bracket, where dashes and one closing bracket are characters. -/
def begin (chars : List Char) : Bracket × List Char :=
  let (negated, rest) : Bool × List Char :=
    match chars with
    | '^' :: rest => (true, rest)
    | _ => (false, chars)
  match rest with
  | '-' :: after => (⟨negated, none, .single '-'⟩, after.dropWhile (· == '-'))
  | ']' :: after => (⟨negated, none, .single ']'⟩, after)
  | _ => (⟨negated, none, .empty⟩, rest)

end Bracket

/-- A class by name, after its opening bracket. -/
def readNamedClass (mode : ClassMode) : List Char → Option (CharSet × List Char)
  | ':' :: rest =>
    let (negated, rest) : Bool × List Char :=
      match rest with
      | '^' :: rest => (true, rest)
      | _ => (false, rest)
    match rest.dropWhile (· != ':') with
    | ':' :: ']' :: after => do
      let set ← CharSet.named? (String.ofList (rest.takeWhile (· != ':')))
      let set := Bracket.fold mode set
      some (if negated then .compl set else set, after)
    | _ => none
  | _ => none

def readClassItem : List Char → Option (Escaped × List Char)
  | '\\' :: rest => readEscape rest
  | c :: rest => some (.char c, rest)
  | [] => none

def Escaped.toSet? : Escaped → Option CharSet
  | char value => some (.single value)
  | set value => some value
  | edge _ => none

def Escaped.toChar? : Escaped → Option Char
  | char value => some value
  | _ => none

/-- One item of a class: a character, a range or an escape. -/
def readClassRange (chars : List Char) : Option (CharSet × List Char) := do
  let (first, rest) ← readClassItem chars
  match rest with
  | [] => none
  | '-' :: after =>
    if after.head? == some ']' || after.head? == some '-' then
      let set ← first.toSet?
      some (set, rest)
    else
      let (last, after) ← readClassItem after
      let first ← first.toChar?
      let last ← last.toChar?
      if first ≤ last then some (.range first last, after) else none
  | _ =>
    let set ← first.toSet?
    some (set, rest)

/-- Reads a class up to the bracket that closes it. Every step takes a character at least, so the
number of characters is enough fuel. -/
def readClass (mode : ClassMode) :
    Nat → Bracket → List Bracket → List Char → Option (CharSet × List Char)
  | 0, _, _, _ => none
  | fuel + 1, bracket, outer, chars =>
    match if mode.spaced then skipSpace false chars else chars with
    | [] => none
    | '[' :: rest =>
      match readNamedClass mode rest with
      | some (set, after) => readClass mode fuel (bracket.add set) outer after
      | none =>
        let (inner, after) := Bracket.begin rest
        readClass mode fuel inner (bracket :: outer) after
    | ']' :: rest =>
      match outer with
      | [] => some (bracket.close mode, rest)
      | parent :: outer => readClass mode fuel (parent.add (bracket.close mode)) outer rest
    | '&' :: '&' :: rest => readClass mode fuel (bracket.operate mode .inter) outer rest
    | '-' :: '-' :: rest => readClass mode fuel (bracket.operate mode .diff) outer rest
    | '~' :: '~' :: rest => readClass mode fuel (bracket.operate mode .symmDiff) outer rest
    | chars => do
      let (set, after) ← readClassRange chars
      readClass mode fuel (bracket.add set) outer after

end ApiDocs.Pattern
