import ApiDocs.ShownType

/-!
Signatures of callables as documents show them.
-/

namespace ApiDocs

structure ParameterDoc where
  name : String
  type : String
  optional : Bool
  defaultValue : Option String
  deriving DecidableEq

structure Signature where
  typeParameters : List String
  parameters : List ParameterDoc
  returnType : String
  deriving DecidableEq

def Declaration.shownTypeParameters (decl : Declaration) : List String :=
  decl.typeParameters.map Text.trim

namespace Program

def parameterDoc (program : Program) (keep : String → Bool) (id : DeclId) :
    Except Fault ParameterDoc := do
  let decl ← program.declaration id
  return {
    name := if decl.rest then "..." ++ decl.name else decl.name
    type := ← program.declaredType keep id
    optional := decl.question || decl.initializer.isSome
    defaultValue := decl.initializer.map Text.trim }

def signature (program : Program) (keep : String → Bool) (decl : Declaration) :
    Except Fault Signature := do
  return {
    typeParameters := decl.shownTypeParameters
    parameters := ← decl.parameters.mapM (program.parameterDoc keep)
    returnType := decl.returnType keep }

end Program

end ApiDocs
