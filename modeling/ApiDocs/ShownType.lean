import ApiDocs.Program.Export
import ApiDocs.TypeText.Strip

/-!
The types that documents show for declarations. `keep` picks the qualifiers that stay.
-/

namespace ApiDocs

namespace Declaration

/-- The return type of a callable: as written, else as inferred, else by whether it returns. -/
def returnType (keep : String → Bool) (decl : Declaration) : String :=
  TypeText.display keep <|
    ((decl.typeAnnotation <|> decl.inferredReturnType).getD
      (if decl.returnsValue then "any" else "void"))

/-- The type of a value: as written, else as inferred. -/
def valueType (keep : String → Bool) (decl : Declaration) : String :=
  TypeText.display keep ((decl.typeAnnotation <|> decl.inferredType).getD "any")

/-- The parameter that gives a set accessor its type. -/
def accessorParameter? (decl : Declaration) : Option DeclId :=
  if decl.kind = .setAccessor then decl.parameters.head? else none

/-- The type of a declaration that does not take it from another one. -/
def ownType (keep : String → Bool) (decl : Declaration) : String :=
  if decl.kind.isCallable || decl.kind = .getAccessor then decl.returnType keep
  else decl.valueType keep

end Declaration

namespace Program

/-- The declaration that gives this one its type: a set accessor has that of its parameter. -/
def typeGiver (program : Program) (id : DeclId) : Except Fault Declaration := do
  let chain ← Trail.follow program.declSource (fun decl => .ok decl.accessorParameter?) [] id
  match chain.getLast? with
  | some (last, decl) =>
    if decl.accessorParameter?.isSome then throw (.endlessAccessor last) else return decl
  | none => throw (.endlessAccessor id)

def declaredType (program : Program) (keep : String → Bool) (id : DeclId) : Except Fault String := do
  return (← program.typeGiver id).ownType keep

end Program

end ApiDocs
