import ApiDocs.Pattern.Syntax

/-!
Patterns, which pick names by a search in them.
-/

namespace ApiDocs

/-- A search expression together with its written form. -/
structure Pattern where
  source : String
  expr : Pattern.Expr
  deriving DecidableEq

namespace Pattern

/-- Turns the text of a pattern into a pattern, or says why it is none. What is found depends on the text
alone, so every notation for regular search has an expression that is found in the same texts. -/
abbrev Compiler := String → Except String Pattern

/-- Reads the common notation: classes, groups, switches, repetitions and edges. Classes named by a
property, parts that match bytes and limits on the size of a pattern are not part of it. -/
def read (source : String) : Option Pattern :=
  (Expr.read source).map fun expr => ⟨source, expr⟩

/-- The compiler for the common notation. -/
def compile : Compiler := fun source =>
  match read source with
  | some pattern => .ok pattern
  | none => .error "no search expression"

/-- The pattern is found somewhere in the text. -/
def isMatch (pattern : Pattern) (text : String) : Bool := pattern.expr.isFoundIn text

def anyMatch (patterns : List Pattern) (text : String) : Bool :=
  patterns.any (·.isMatch text)

end Pattern

end ApiDocs
