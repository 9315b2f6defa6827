import ApiDocs.Pattern.Class

/-!
The written form of patterns.
-/

namespace ApiDocs.Pattern

open Text

/-- Switches that change how the following text of a pattern is taken. -/
structure Flags where
  anyCase : Bool := false
  multiLine : Bool := false
  dotAll : Bool := false
  /-- A carriage return ends a line as well. -/
  returnLines : Bool := false
  spaced : Bool := false

namespace Flags

/-- Turns one switch on or off. The one that changes only which of several matches is found has no
effect, and the one for Unicode is always on. -/
def set (flags : Flags) (on : Bool) : Char → Option Flags
  | 'i' => some { flags with anyCase := on }
  | 'm' => some { flags with multiLine := on }
  | 's' => some { flags with dotAll := on }
  | 'x' => some { flags with spaced := on }
  | 'R' => some { flags with returnLines := on }
  | 'U' => some flags
  | 'u' => if on then some flags else none
  | _ => none

/-- Applies a list of switches; those after a dash are turned off. A switch may stand once, and so
may the dash, which must not be the last. -/
def update (flags : Flags) (text : List Char) : Option Flags :=
  if text.eraseDups.length != text.length || text.getLast? == some '-' then none
  else do
    let on := text.takeWhile (· != '-')
    let off := (text.dropWhile (· != '-')).drop 1
    let flags ← on.foldlM (fun flags => flags.set true) flags
    off.foldlM (fun flags => flags.set false) flags

end Flags

/-- A part of an alternative: an expression, or switches, which cannot be repeated. -/
inductive Item where
  | expr (value : Expr)
  | switches

/-- A group that is being read. -/
structure Group where
  flags : Flags := {}
  /-- Finished alternatives, the latest first. -/
  branches : List Expr := []
  /-- The current alternative, its latest item first. -/
  items : List Item := []

namespace Group

def branch (group : Group) : Expr :=
  group.items.foldl (fun later item =>
    match item with
    | .expr value => if later = .empty then value else .seq value later
    | .switches => later) .empty

def endBranch (group : Group) : Group :=
  { group with branches := group.branch :: group.branches, items := [] }

def close (group : Group) : Expr :=
  group.branches.foldl (fun later earlier => .alt earlier later) group.branch

def add (group : Group) (value : Expr) : Group :=
  { group with items := .expr value :: group.items }

/-- Repeats the latest item, if there is one that can be repeated. -/
def repeatLatest (group : Group) (least : Nat) (most : Option Nat) : Option Group :=
  match group.items with
  | .expr value :: items => some { group with items := .expr (.times value least most) :: items }
  | _ => none

def literal (group : Group) (char : Char) : Expr :=
  if group.flags.anyCase then .one (.anyCase (.single char)) else .one (.single char)

def dot (group : Group) : Expr :=
  if group.flags.dotAll then .one (.compl .empty)
  else if group.flags.returnLines then .one (.compl (.union (.single '\r') (.single '\n')))
  else .one (.compl (.single '\n'))

def start (group : Group) : Expr :=
  if !group.flags.multiLine then .edge .textStart
  else if group.flags.returnLines then .edge .returnLineStart
  else .edge .lineStart

def stop (group : Group) : Expr :=
  if !group.flags.multiLine then .edge .textEnd
  else if group.flags.returnLines then .edge .returnLineEnd
  else .edge .lineEnd

def escaped (group : Group) : Escaped → Expr
  | .char value => group.literal value
  | .set value => .one value
  | .edge value => .edge value

end Group

/-- A number with white space around it. -/
def readNumber (chars : List Char) : Option Nat × List Char :=
  let chars := chars.dropWhile isWhite
  let digits := chars.takeWhile Char.isDigit
  (if digits.isEmpty then none else some (Nat.ofDigitChars 10 digits 0),
    (chars.dropWhile Char.isDigit).dropWhile isWhite)

/-- The bounds of a repetition, after the opening brace. -/
def readBounds (chars : List Char) : Option ((Nat × Option Nat) × List Char) := do
  let (least, rest) := readNumber chars
  let least ← least
  if UInt32.size ≤ least then none
  match rest with
  | '\x7d' :: after => some ((least, some least), after)
  | ',' :: '\x7d' :: after => some ((least, none), after)
  | ',' :: rest =>
    let (most, rest) := readNumber rest
    let most ← most
    if UInt32.size ≤ most || most < least then none
    match rest with
    | '\x7d' :: after => some ((least, some most), after)
    | _ => none
  | _ => none

/-- Passes over the mark that makes a repetition prefer less: it does not change what is found. -/
def skipLazy : List Char → List Char
  | '?' :: rest => rest
  | chars => chars

inductive Opening where
  | group (flags : Flags) (name : Option (List Char))
  | switches (flags : Flags)

def isNameStart (char : Char) : Bool := char == '_' || isAlphabetic char

def isNamePart (char : Char) : Bool :=
  char == '_' || char == '.' || char == '[' || char == ']' || isAlphanumeric char

/-- A group name and the bracket that closes it. -/
def readName (chars : List Char) : Option (List Char × List Char) :=
  match chars.takeWhile (· != '>'), chars.dropWhile (· != '>') with
  | first :: rest, _ :: after =>
    if isNameStart first && rest.all isNamePart then some (first :: rest, after) else none
  | _, _ => none

/-- Reads what follows an opening parenthesis, up to the content of the group. -/
def readOpening (flags : Flags) (chars : List Char) : Option (Opening × List Char) :=
  match chars with
  | '?' :: '=' :: _ => none
  | '?' :: '!' :: _ => none
  | '?' :: '<' :: '=' :: _ => none
  | '?' :: '<' :: '!' :: _ => none
  | '?' :: 'P' :: '<' :: rest => do
    let (name, rest) ← readName rest
    some (.group flags (some name), rest)
  | '?' :: '<' :: rest => do
    let (name, rest) ← readName rest
    some (.group flags (some name), rest)
  | '?' :: rest => do
    let isEnd (char : Char) := char == ':' || char == ')'
    let switches := rest.takeWhile (!isEnd ·)
    let changed ← flags.update switches
    match rest.dropWhile (!isEnd ·) with
    | ':' :: rest => some (.group changed none, rest)
    | ')' :: rest => if switches.isEmpty then none else some (.switches changed, rest)
    | _ => none
  | _ => some (.group flags none, chars)

/-- Reads a pattern: the innermost open group, the groups around it, and the names in use. Every
step takes a character at least, so the number of characters is enough fuel. -/
def readGroups : Nat → Group → List Group → List (List Char) → List Char → Option Expr
  | 0, group, outer, _, chars =>
    if chars.isEmpty && outer.isEmpty then some group.close else none
  | fuel + 1, group, outer, names, chars =>
    match if group.flags.spaced then skipSpace false chars else chars with
    | [] => if outer.isEmpty then some group.close else none
    | '(' :: rest => do
      let (opening, rest) ← readOpening group.flags rest
      match opening with
      | .group flags none => readGroups fuel { flags } (group :: outer) names rest
      | .group flags (some name) =>
        if names.contains name then none
        else readGroups fuel { flags } (group :: outer) (name :: names) rest
      | .switches flags =>
        readGroups fuel { group with flags, items := .switches :: group.items } outer names rest
    | ')' :: rest =>
      match outer with
      | [] => none
      | parent :: outer => readGroups fuel (parent.add group.close) outer names rest
    | '|' :: rest => readGroups fuel group.endBranch outer names rest
    | '[' :: rest => do
      let mode : ClassMode := ⟨group.flags.anyCase, group.flags.spaced⟩
      let (bracket, rest) := Bracket.begin rest
      let (set, rest) ← readClass mode (rest.length + 1) bracket [] rest
      readGroups fuel (group.add (.one set)) outer names rest
    | '?' :: rest => do
      let group ← group.repeatLatest 0 (some 1)
      readGroups fuel group outer names (skipLazy rest)
    | '*' :: rest => do
      let group ← group.repeatLatest 0 none
      readGroups fuel group outer names (skipLazy rest)
    | '+' :: rest => do
      let group ← group.repeatLatest 1 none
      readGroups fuel group outer names (skipLazy rest)
    | '\x7b' :: rest => do
      let ((least, most), rest) ← readBounds rest
      let group ← group.repeatLatest least most
      readGroups fuel group outer names (skipLazy rest)
    | '\\' :: rest => do
      let (escaped, rest) ← readEscape rest
      readGroups fuel (group.add (group.escaped escaped)) outer names rest
    | '.' :: rest => readGroups fuel (group.add group.dot) outer names rest
    | '^' :: rest => readGroups fuel (group.add group.start) outer names rest
    | '$' :: rest => readGroups fuel (group.add group.stop) outer names rest
    | c :: rest => readGroups fuel (group.add (group.literal c)) outer names rest

def Expr.read (text : String) : Option Expr :=
  readGroups text.length {} [] [] text.toList

end ApiDocs.Pattern
