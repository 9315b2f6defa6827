import ApiDocs.TypeText.Token

/-!
The shown form of a type: dotted names are cut to their last segment, unless one of their
qualifiers is to be kept.
-/

namespace ApiDocs.TypeText

namespace Token

/-- The qualifiers of a dotted name: each run of leading segments short of the whole name. -/
def qualifiers (first : List Char) : List (List Char) → List (List Char)
  | [] => []
  | segment :: rest => first :: qualifiers (first ++ '.' :: segment) rest

def isKept (keep : String → Bool) (first : List Char) (rest : List (List Char)) : Bool :=
  (qualifiers first rest).any fun qualifier => keep (String.ofList qualifier)

/-- The text shown for a token. -/
def shown (keep : String → Bool) : Token → List Char
  | chain first rest =>
    if isKept keep first rest then source (chain first rest) else rest.getLastD first
  | token => token.source

end Token

/-- Cuts every dotted name to its last segment, unless `keep` holds of one of its qualifiers. -/
def stripNamespaces (keep : String → Bool) (text : String) : String :=
  String.ofList ((tokens text.toList).flatMap (Token.shown keep))

/-- The final form of a type text: without surrounding white space and namespaces. -/
def display (keep : String → Bool) (raw : String) : String := stripNamespaces keep (Text.trim raw)

end ApiDocs.TypeText
