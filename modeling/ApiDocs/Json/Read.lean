import ApiDocs.Json.Scan

/-!
JSON values read from tokens. The reader takes one token at a time and holds the arrays and
objects that are still open, so the depth of a text has no bound.
-/

namespace ApiDocs.Json

/-- An open array or object, with the parts read so far, the latest first. -/
inductive Frame where
  | array (elements : List Json)
  /-- The fields are lost once a name has no characters. The last name awaits its value. -/
  | object (fields : Option (List (String × Json))) (name : Option String)

/-- What has been read, and what must come next. -/
inductive Reader where
  | atValue (frames : List Frame)
  /-- The first element of an array, or its end. -/
  | atElement (frames : List Frame)
  /-- The name of a field, or the end of the object if it has no fields yet. -/
  | atName (fields : Option (List (String × Json))) (first : Bool) (frames : List Frame)
  | atColon (fields : Option (List (String × Json))) (name : Option String) (frames : List Frame)
  /-- A comma, or the end of the innermost open array or object. -/
  | atComma (frame : Frame) (frames : List Frame)
  | done (value : Json)

namespace Frame

def add (value : Json) : Frame → Frame
  | array elements => array (value :: elements)
  | object fields name =>
    object (do
      let fields ← fields
      let name ← name
      return (name, value) :: fields) none

end Frame

namespace Reader

/-- Hands a finished value to the innermost open array or object. -/
def deliver (value : Json) : List Frame → Reader
  | [] => done value
  | frame :: frames => atComma (frame.add value) frames

/-- The object with the given fields, the latest first. -/
def object : Option (List (String × Json)) → Json
  | some fields => .obj fields.reverse
  | none => .scalar .unpaired

def begin (frames : List Frame) : Token → Option Reader
  | .scalar value => some (deliver (.scalar value) frames)
  | .beginArray => some (atElement frames)
  | .beginObject => some (atName (some []) true frames)
  | _ => none

def step : Reader → Token → Option Reader
  | atValue frames, token => begin frames token
  | atElement frames, .endArray => some (deliver (.arr []) frames)
  | atElement frames, token => begin (.array [] :: frames) token
  | atName fields _ frames, .scalar (.str name) => some (atColon fields (some name) frames)
  | atName fields _ frames, .scalar .unpaired => some (atColon fields none frames)
  | atName fields true frames, .endObject => some (deliver (object fields) frames)
  | atColon fields name frames, .colon => some (atValue (.object fields name :: frames))
  | atComma (.array elements) frames, .comma => some (atValue (.array elements :: frames))
  | atComma (.array elements) frames, .endArray =>
    some (deliver (.arr elements.reverse) frames)
  | atComma (.object fields _) frames, .comma => some (atName fields false frames)
  | atComma (.object fields _) frames, .endObject => some (deliver (object fields) frames)
  | _, _ => none

def finish : Reader → Option Json
  | done value => some value
  | _ => none

end Reader

def ofTokens (tokens : List Token) : Option Json :=
  tokens.foldlM Reader.step (.atValue []) >>= Reader.finish

/-- Reads a text that holds exactly one value. -/
def read (text : String) : Option Json := scan text >>= ofTokens

end ApiDocs.Json
