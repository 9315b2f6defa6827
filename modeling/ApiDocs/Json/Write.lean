import ApiDocs.Json.Basic
import ApiDocs.Text.Hex

/-!
JSON text of a value: all on one line, or laid out with one field or element a line. Both are the
tokens of the value with their white space.
-/

namespace ApiDocs.Json

open Text

inductive Layout where
  /-- No white space. -/
  | compact
  /-- Two blanks of indent for every open array or object. -/
  | indented
  deriving DecidableEq

/-- A character as it stands between quotes. -/
def escape (char : Char) : List Char :=
  match char with
  | '\x22' => ['\\', '\x22']
  | '\\' => ['\\', '\\']
  | '\x08' => ['\\', 'b']
  | '\x0c' => ['\\', 'f']
  | '\n' => ['\\', 'n']
  | '\r' => ['\\', 'r']
  | '\t' => ['\\', 't']
  | char =>
    if char.toNat < 0x20 then
      ['\\', 'u', '0', '0', hexDigit (char.toNat / 16), hexDigit (char.toNat % 16)]
    else [char]

namespace Scalar

def write : Scalar → String
  | null => "null"
  | bool true => "true"
  | bool false => "false"
  | num value => toString value
  | real literal => literal
  | str value => String.ofList ('\x22' :: value.toList.flatMap escape ++ ['\x22'])
  | unpaired => "\"\\ud800\""

end Scalar

namespace Token

def write : Token → String
  | beginArray => "["
  | endArray => "]"
  | beginObject => "\x7b"
  | endObject => "\x7d"
  | colon => ":"
  | comma => ","
  | scalar value => value.write

def opens : Token → Bool
  | beginArray => true
  | beginObject => true
  | _ => false

def closes : Token → Bool
  | endArray => true
  | endObject => true
  | _ => false

end Token

/-- Text written so far, the depth of open arrays and objects, and the last token. -/
structure Writer where
  text : String := ""
  depth : Nat := 0
  last : Option Token := none

def newline (depth : Nat) : String := "\n" ++ String.ofList (List.replicate (2 * depth) ' ')

/-- The white space between the last token and the next one, in the indented layout. -/
def gap (depth : Nat) (last : Option Token) (next : Token) : String :=
  match last with
  | none => ""
  | some last =>
    if last.opens then (if next.closes then "" else newline depth)
    else if next.closes then newline (depth - 1)
    else if last = .comma then newline depth
    else if last = .colon then " "
    else ""

namespace Writer

def put (layout : Layout) (writer : Writer) (token : Token) : Writer where
  text :=
    match layout with
    | .compact => writer.text ++ token.write
    | .indented => writer.text ++ gap writer.depth writer.last token ++ token.write
  depth :=
    if token.opens then writer.depth + 1
    else if token.closes then writer.depth - 1
    else writer.depth
  last := some token

end Writer

def write (layout : Layout) (value : Json) : String :=
  (value.tokens.foldl (Writer.put layout) {}).text

end ApiDocs.Json
