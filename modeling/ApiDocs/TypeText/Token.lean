import ApiDocs.Text.Class

/-!
Type expressions as they stand in the source, split into quoted literals, numbers, dotted names
and single characters. Main statement: the tokens spell the text, nothing is lost or added.
-/

namespace ApiDocs.TypeText

open Text

def isIdentStart (char : Char) : Bool := isAlphabetic char || char == '_' || char == '$'

def isIdentPart (char : Char) : Bool := isAlphanumeric char || char == '_' || char == '$'

def isQuote (char : Char) : Bool := char == '\x22' || char == '\x27' || char == '\x60'

inductive Token where
  /-- A quoted text with its quotes, or the rest of the text if it is never closed. -/
  | literal (chars : List Char)
  | number (chars : List Char)
  /-- Names joined by dots. -/
  | chain (first : List Char) (rest : List (List Char))
  | other (char : Char)
  deriving DecidableEq

namespace Token

def dotted (segments : List (List Char)) : List Char := segments.flatMap ('.' :: ·)

/-- The text the token was read from. -/
def source : Token → List Char
  | literal chars => chars
  | number chars => chars
  | chain first rest => first ++ dotted rest
  | other char => [char]

end Token

/-- Splits after the closing quote; a backslash takes the character after it along. -/
def scanLiteral (quote : Char) : List Char → List Char × List Char
  | [] => ([], [])
  | [last] => ([last], [])
  | c :: d :: rest =>
    if c == quote then ([c], d :: rest)
    else if c == '\\' then
      let (inside, after) := scanLiteral quote rest
      (c :: d :: inside, after)
    else
      let (inside, after) := scanLiteral quote (d :: rest)
      (c :: inside, after)

theorem scanLiteral_append (quote : Char) (chars : List Char) :
    (scanLiteral quote chars).1 ++ (scanLiteral quote chars).2 = chars := by
  fun_induction scanLiteral quote chars <;> simp_all

/-- The segments that follow the first one of a dotted name. -/
def scanSegments (chars : List Char) : List (List Char) × List Char :=
  match chars with
  | '.' :: c :: rest =>
    if isIdentStart c then
      let (segments, after) := scanSegments (rest.dropWhile isIdentPart)
      ((c :: rest.takeWhile isIdentPart) :: segments, after)
    else ([], chars)
  | _ => ([], chars)
termination_by chars.length
decreasing_by
  have := (List.dropWhile_suffix isIdentPart (l := rest)).length_le
  simp only [List.length_cons]
  omega

theorem scanSegments_append (chars : List Char) :
    Token.dotted (scanSegments chars).1 ++ (scanSegments chars).2 = chars := by
  fun_induction scanSegments chars <;> simp_all [Token.dotted, List.takeWhile_append_dropWhile]

/-- The first token of a text that begins with `c`, and the text after it. -/
def scanToken (c : Char) (rest : List Char) : Token × List Char :=
  if isQuote c then
    let (inside, after) := scanLiteral c rest
    (.literal (c :: inside), after)
  else if c.isDigit then
    let inside (char : Char) := isIdentPart char || char == '.'
    (.number (c :: rest.takeWhile inside), rest.dropWhile inside)
  else if isIdentStart c then
    let (segments, after) := scanSegments (rest.dropWhile isIdentPart)
    (.chain (c :: rest.takeWhile isIdentPart) segments, after)
  else (.other c, rest)

theorem scanToken_append (c : Char) (rest : List Char) :
    (scanToken c rest).1.source ++ (scanToken c rest).2 = c :: rest := by
  unfold scanToken
  split
  · simp [Token.source, scanLiteral_append]
  · split
    · simp [Token.source, List.takeWhile_append_dropWhile]
    · split
      · simp [Token.source, scanSegments_append, List.takeWhile_append_dropWhile]
      · simp [Token.source]

theorem scanToken_source_ne_nil (c : Char) (rest : List Char) :
    (scanToken c rest).1.source ≠ [] := by
  unfold scanToken
  repeat' split
  all_goals simp [Token.source]

theorem scanToken_length (c : Char) (rest : List Char) :
    (scanToken c rest).2.length ≤ rest.length := by
  have whole := congrArg List.length (scanToken_append c rest)
  have := List.length_pos_iff.mpr (scanToken_source_ne_nil c rest)
  simp only [List.length_append, List.length_cons] at whole
  omega

def tokens (chars : List Char) : List Token :=
  match chars with
  | [] => []
  | c :: rest => (scanToken c rest).1 :: tokens (scanToken c rest).2
termination_by chars.length
decreasing_by
  have := scanToken_length c rest
  simp only [List.length_cons]
  omega

theorem flatMap_source_tokens (chars : List Char) :
    (tokens chars).flatMap Token.source = chars := by
  fun_induction tokens chars with
  | case1 => rfl
  | case2 c rest ih => simp [ih, scanToken_append]

end ApiDocs.TypeText
