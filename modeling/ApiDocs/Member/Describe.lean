import ApiDocs.Member.Layout

/-!
What documents say about members.
-/

namespace ApiDocs.Program

/-- The type, parameters and type parameters of a member. `ownerName` is what a constructor makes
and what an enum member is, unless they say otherwise. -/
def memberSignature (program : Program) (keep : String → Bool) (member : ClassifiedMember)
    (decl : Declaration) (ownerName : String) :
    Except Fault (String × Option (List ParameterDoc) × List String) := do
  match member.kind with
  | .method | .callSignature | .constructSignature =>
    let signature ← program.signature keep decl
    return (signature.returnType, some signature.parameters, signature.typeParameters)
  | .constructor =>
    let signature ← program.signature keep decl
    let made := if decl.typeAnnotation.isSome then signature.returnType else ownerName
    return (made, some signature.parameters, signature.typeParameters)
  | .enumMember =>
    return ((decl.inferredType.map (TypeText.display keep)).getD ownerName, none, [])
  | .property | .getAccessor | .setAccessor =>
    return (← program.declaredType keep member.decl, none, [])

def describeMember (program : Program) (keep : String → Bool) (ownerName : String)
    (member : ClassifiedMember) : Except Fault Member := do
  let decl ← program.declaration member.decl
  let (returnType, parameters, typeParameters) ←
    program.memberSignature keep member decl ownerName
  return {
    name := member.name
    kind := member.kind
    access := member.access
    isStatic := member.isStatic
    optional := decl.question
    returnType
    parameters
    typeParameters
    content := decl.docComment
    location := ← program.locationOf decl }

end ApiDocs.Program
