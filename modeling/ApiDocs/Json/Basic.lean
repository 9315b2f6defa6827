/-!
JSON values and the tokens they are spelled with. Objects keep their fields as written: in order,
with repetitions.
-/

namespace ApiDocs

namespace Json

/-- Values without parts. -/
inductive Scalar where
  | null
  | bool (value : Bool)
  /-- A number written with digits only. -/
  | num (value : Nat)
  /-- Any other number, as written. -/
  | real (literal : String)
  | str (value : String)
  /-- Text with half a surrogate pair: well-formed, but it has no characters. -/
  | unpaired
  deriving DecidableEq

end Json

inductive Json where
  | scalar (value : Json.Scalar)
  | arr (elements : List Json)
  | obj (fields : List (String × Json))

namespace Json

@[match_pattern] abbrev null : Json := scalar .null

@[match_pattern] abbrev bool (value : Bool) : Json := scalar (.bool value)

@[match_pattern] abbrev num (value : Nat) : Json := scalar (.num value)

@[match_pattern] abbrev str (value : String) : Json := scalar (.str value)

inductive Token where
  | beginArray
  | endArray
  | beginObject
  | endObject
  | colon
  | comma
  | scalar (value : Scalar)
  deriving DecidableEq

/-- Puts a comma between the parts of an array or object. -/
def separated : List (List Token) → List Token
  | [] => []
  | [part] => part
  | part :: rest => part ++ Token.comma :: separated rest

mutual

def tokens : Json → List Token
  | .scalar value => [.scalar value]
  | .arr elements => .beginArray :: separated (elementTokens elements) ++ [.endArray]
  | .obj fields => .beginObject :: separated (fieldTokens fields) ++ [.endObject]

def elementTokens : List Json → List (List Token)
  | [] => []
  | element :: rest => element.tokens :: elementTokens rest

def fieldTokens : List (String × Json) → List (List Token)
  | [] => []
  | (name, value) :: rest =>
    (.scalar (.str name) :: .colon :: value.tokens) :: fieldTokens rest

end

end Json

end ApiDocs
