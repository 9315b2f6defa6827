import ApiDocs.Json.Basic
import ApiDocs.Text.Affix
import ApiDocs.Text.Hex

/-!
JSON text split into tokens. The grammar is strict: no comments, no leading zeros, no raw control
characters, and white space is blank, tab, line feed and carriage return only.
-/

namespace ApiDocs.Json

open Text

def isBlank (char : Char) : Bool :=
  char == ' ' || char == '\t' || char == '\n' || char == '\r'

/-- A part of a text: a character, or half of a pair that is spelled in two escapes. -/
inductive Piece where
  | char (value : Char)
  | surrogate (code : Nat)

namespace Piece

def ofCode (code : Nat) : Piece :=
  if 0xD800 ≤ code ∧ code < 0xE000 then surrogate code else char (Char.ofNat code)

def char? : Piece → Option Char
  | char value => some value
  | surrogate _ => none

/-- Adds a piece to the earlier ones, the latest first; two fitting halves become a character. -/
def push : List Piece → Piece → List Piece
  | surrogate high :: earlier, surrogate low =>
    if high < 0xDC00 ∧ 0xDC00 ≤ low then
      char (Char.ofNat (0x10000 + (high - 0xD800) * 0x400 + (low - 0xDC00))) :: earlier
    else surrogate low :: surrogate high :: earlier
  | earlier, piece => piece :: earlier

end Piece

/-- The characters with an escape of two characters. -/
def shortEscape? : Char → Option Char
  | '\x22' => some '\x22'
  | '\\' => some '\\'
  | '/' => some '/'
  | 'b' => some '\x08'
  | 'f' => some '\x0c'
  | 'n' => some '\n'
  | 'r' => some '\r'
  | 't' => some '\t'
  | _ => none

/-- Reads what follows a backslash. -/
def scanEscape : List Char → Option (Piece × List Char)
  | 'u' :: a :: b :: c :: d :: rest => do
    let a ← hexDigit? a
    let b ← hexDigit? b
    let c ← hexDigit? c
    let d ← hexDigit? d
    return (Piece.ofCode (((a * 16 + b) * 16 + c) * 16 + d), rest)
  | e :: rest => (shortEscape? e).map fun char => (.char char, rest)
  | [] => none

theorem scanEscape_length {chars rest : List Char} {piece : Piece}
    (read : scanEscape chars = some (piece, rest)) : rest.length < chars.length := by
  unfold scanEscape at read
  split at read
  · simp only [Option.bind_eq_bind, Option.bind_eq_some_iff] at read
    obtain ⟨_, _, _, _, _, _, _, _, read⟩ := read
    obtain ⟨-, rfl⟩ := Prod.mk.inj (Option.some.inj read)
    simp only [List.length_cons]
    omega
  · obtain ⟨_, _, read⟩ := Option.map_eq_some_iff.mp read
    obtain ⟨-, rfl⟩ := Prod.mk.inj read
    simp
  · cases read

/-- Reads a text up to its closing quote; `earlier` holds its pieces so far, the latest first. -/
def scanText (earlier : List Piece) (chars : List Char) : Option (Scalar × List Char) :=
  match chars with
  | [] => none
  | '\x22' :: rest =>
    match earlier.reverse.mapM Piece.char? with
    | some text => some (.str (String.ofList text), rest)
    | none => some (.unpaired, rest)
  | '\\' :: rest =>
    match _ : scanEscape rest with
    | none => none
    | some (piece, after) => scanText (Piece.push earlier piece) after
  | c :: rest => if c.toNat < 0x20 then none else scanText (.char c :: earlier) rest
termination_by chars.length
decreasing_by
  · have := scanEscape_length ‹_›
    simp only [List.length_cons]
    omega
  · simp

theorem scanText_length {earlier : List Piece} {chars rest : List Char} {scalar : Scalar}
    (read : scanText earlier chars = some (scalar, rest)) : rest.length < chars.length := by
  fun_induction scanText earlier chars with
  | case1 => cases read
  | case2 => simp_all
  | case3 => simp_all
  | case4 => cases read
  | case5 earlier chars piece after escaped ih =>
    have := scanEscape_length escaped
    have := ih read
    simp only [List.length_cons]
    omega
  | case6 => cases read
  | case7 earlier c chars _ _ _ ih =>
    have := ih read
    simp only [List.length_cons]
    omega

/-- The digits at the front, if there are any, and the rest. -/
def scanDigits (chars : List Char) : Option (List Char × List Char) :=
  match chars.takeWhile Char.isDigit with
  | [] => none
  | digit :: digits => some (digit :: digits, chars.dropWhile Char.isDigit)

/-- The digits before the point: a zero stands alone. -/
def scanWhole : List Char → Option (List Char × List Char)
  | '0' :: rest => some (['0'], rest)
  | chars => scanDigits chars

/-- The point and the digits after it; the empty text if there is no point. -/
def scanFraction : List Char → Option (List Char × List Char)
  | '.' :: rest => do
    let (digits, rest) ← scanDigits rest
    return ('.' :: digits, rest)
  | chars => some ([], chars)

/-- The exponent with its mark and sign; the empty text if there is none. -/
def scanExponent : List Char → Option (List Char × List Char)
  | e :: rest =>
    if e == 'e' || e == 'E' then
      match rest with
      | '+' :: rest => do
        let (digits, rest) ← scanDigits rest
        return (e :: '+' :: digits, rest)
      | '-' :: rest => do
        let (digits, rest) ← scanDigits rest
        return (e :: '-' :: digits, rest)
      | _ => do
        let (digits, rest) ← scanDigits rest
        return (e :: digits, rest)
    else some ([], e :: rest)
  | [] => some ([], [])

/-- Reads the rest of a number after its sign. -/
def scanUnsigned (sign : List Char) (chars : List Char) : Option (Scalar × List Char) := do
  let (whole, rest) ← scanWhole chars
  let (fraction, rest) ← scanFraction rest
  let (exponent, rest) ← scanExponent rest
  if sign.isEmpty && fraction.isEmpty && exponent.isEmpty then
    return (.num (Nat.ofDigitChars 10 whole 0), rest)
  else return (.real (String.ofList (sign ++ whole ++ fraction ++ exponent)), rest)

theorem scanDigits_length {chars digits rest : List Char}
    (read : scanDigits chars = some (digits, rest)) : rest.length < chars.length := by
  have whole := congrArg List.length (chars.takeWhile_append_dropWhile (p := Char.isDigit))
  unfold scanDigits at read
  split at read
  · cases read
  · rename_i found
    obtain ⟨-, rfl⟩ := Prod.mk.inj (Option.some.inj read)
    simp only [found, List.length_append, List.length_cons] at whole
    omega

theorem scanWhole_length {chars digits rest : List Char}
    (read : scanWhole chars = some (digits, rest)) : rest.length < chars.length := by
  unfold scanWhole at read
  split at read
  · simp_all
  · exact scanDigits_length read

theorem scanFraction_length {chars part rest : List Char}
    (read : scanFraction chars = some (part, rest)) : rest.length ≤ chars.length := by
  unfold scanFraction at read
  split at read
  · simp only [Option.bind_eq_bind, Option.bind_eq_some_iff, Prod.exists] at read
    obtain ⟨_, _, found, read⟩ := read
    have := scanDigits_length found
    obtain ⟨-, rfl⟩ := Prod.mk.inj (Option.some.inj read)
    simp only [List.length_cons]
    omega
  · obtain ⟨-, rfl⟩ := Prod.mk.inj (Option.some.inj read)
    exact Nat.le_refl _

theorem scanExponent_length {chars part rest : List Char}
    (read : scanExponent chars = some (part, rest)) : rest.length ≤ chars.length := by
  unfold scanExponent at read
  split at read
  · split at read
    · split at read
      all_goals
        simp only [Option.bind_eq_bind, Option.bind_eq_some_iff, Prod.exists] at read
        obtain ⟨_, _, found, read⟩ := read
        have := scanDigits_length found
        obtain ⟨-, rfl⟩ := Prod.mk.inj (Option.some.inj read)
        simp only [List.length_cons]
        omega
    · obtain ⟨-, rfl⟩ := Prod.mk.inj (Option.some.inj read)
      exact Nat.le_refl _
  · obtain ⟨-, rfl⟩ := Prod.mk.inj (Option.some.inj read)
    exact Nat.le_refl _

theorem scanUnsigned_length {sign chars rest : List Char} {scalar : Scalar}
    (read : scanUnsigned sign chars = some (scalar, rest)) : rest.length < chars.length := by
  unfold scanUnsigned at read
  simp only [Option.bind_eq_bind, Option.bind_eq_some_iff, Prod.exists] at read
  obtain ⟨_, _, first, _, _, second, _, _, third, read⟩ := read
  have := scanWhole_length first
  have := scanFraction_length second
  have := scanExponent_length third
  split at read
  all_goals
    obtain ⟨-, rfl⟩ := Prod.mk.inj (Option.some.inj read)
    omega

/-- Reads the token that begins with `c`. -/
def scanToken (c : Char) (rest : List Char) : Option (Token × List Char) :=
  match c with
  | '[' => some (.beginArray, rest)
  | ']' => some (.endArray, rest)
  | '\x7b' => some (.beginObject, rest)
  | '\x7d' => some (.endObject, rest)
  | ':' => some (.colon, rest)
  | ',' => some (.comma, rest)
  | '\x22' => (scanText [] rest).map fun (text, rest) => (.scalar text, rest)
  | 't' => (after? ['r', 'u', 'e'] rest).map fun rest => (.scalar (.bool true), rest)
  | 'f' => (after? ['a', 'l', 's', 'e'] rest).map fun rest => (.scalar (.bool false), rest)
  | 'n' => (after? ['u', 'l', 'l'] rest).map fun rest => (.scalar .null, rest)
  | '-' => (scanUnsigned ['-'] rest).map fun (number, rest) => (.scalar number, rest)
  | c => (scanUnsigned [] (c :: rest)).map fun (number, rest) => (.scalar number, rest)

theorem scanToken_length {c : Char} {rest after : List Char} {token : Token}
    (read : scanToken c rest = some (token, after)) : after.length ≤ rest.length := by
  unfold scanToken at read
  split at read
  iterate 6
    · obtain ⟨-, rfl⟩ := Prod.mk.inj (Option.some.inj read)
      exact Nat.le_refl _
  all_goals
    obtain ⟨found, inner, same⟩ := Option.map_eq_some_iff.mp read
    obtain ⟨-, rfl⟩ := Prod.mk.inj same
  · exact Nat.le_of_lt (scanText_length inner)
  iterate 3
    · simp only [after?_eq_some.mp inner, List.length_append]
      omega
  · exact Nat.le_of_lt (scanUnsigned_length inner)
  · exact Nat.le_of_lt_succ (scanUnsigned_length inner)

/-- The tokens of a text, after the `earlier` ones, which are held latest first. -/
def scanFrom (earlier : List Token) (chars : List Char) : Option (List Token) :=
  match chars with
  | [] => some earlier.reverse
  | c :: rest =>
    if isBlank c then scanFrom earlier rest
    else
      match _ : scanToken c rest with
      | none => none
      | some (token, after) => scanFrom (token :: earlier) after
termination_by chars.length
decreasing_by
  · simp
  · have := scanToken_length ‹_›
    simp only [List.length_cons]
    omega

/-- Splits a text into tokens. -/
def scan (text : String) : Option (List Token) := scanFrom [] text.toList

end ApiDocs.Json
