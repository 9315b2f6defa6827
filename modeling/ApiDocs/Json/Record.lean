import ApiDocs.Json.Basic

/-!
Records in JSON. A record is written as an object, where unknown fields are passed over and a
known one may stand only once, or as an array of its fields in order, of which the last may be
left out.
-/

namespace ApiDocs.Json

/-- The fields of a record in order, each with the names it may have. -/
abbrev Schema := List (List String)

/-- The value of a field with one of the given names: none if it is absent. -/
def field (fields : List (String × Json)) (names : List String) : Option (Option Json) :=
  match fields.filter fun (name, _) => names.contains name with
  | [] => some none
  | [(_, value)] => some (some value)
  | _ => none

/-- The given values of a record's fields, one slot for each. -/
def slots (schema : Schema) : Json → Option (List (Option Json))
  | .obj fields => schema.mapM (field fields)
  | .arr elements =>
    if elements.length ≤ schema.length then
      some (elements.map some ++ List.replicate (schema.length - elements.length) none)
    else none
  | .scalar _ => none

/-- A field that must be given. -/
def required (decode : Json → Option α) (slot : Option Json) : Option α := slot >>= decode

/-- A field that takes its default when it is not given. -/
def withDefault (default : α) (decode : Json → Option α) : Option Json → Option α
  | none => some default
  | some value => decode value

/-- A value that may be null. -/
def nullable (decode : Json → Option α) : Json → Option (Option α)
  | null => some none
  | value => (decode value).map some

def toBool? : Json → Option Bool
  | bool value => some value
  | _ => none

def toStr? : Json → Option String
  | str value => some value
  | _ => none

/-- Numbers that fit a word of 32 bits. -/
def toWord? : Json → Option UInt32
  | num value => if value < UInt32.size then some (UInt32.ofNat value) else none
  | _ => none

def toList? (decode : Json → Option α) : Json → Option (List α)
  | .arr elements => elements.mapM decode
  | _ => none

/-- One of a fixed set of words, or an object with the word as its only field and no value. -/
def toChoice? (decode : String → Option α) : Json → Option α
  | str word => decode word
  | .obj [(word, null)] => decode word
  | _ => none

def ofWord (word : UInt32) : Json := .num word.toNat

def ofOption (encode : α → Json) : Option α → Json
  | none => null
  | some value => encode value

def ofList (encode : α → Json) (values : List α) : Json := .arr (values.map encode)

def ofStrs (values : List String) : Json := ofList .str values

end ApiDocs.Json
