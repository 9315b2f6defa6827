import ApiDocs.Signature

/-!
Members of classes, interfaces and enums.
-/

namespace ApiDocs

inductive Access where
  | public_
  | protected_
  | private_
  deriving DecidableEq

/-- The access that modifiers give; the strictest one wins. -/
def Access.ofModifiers (modifiers : Modifiers) : Access :=
  if covers modifiers Modifiers.private_ then .private_
  else if covers modifiers Modifiers.protected_ then .protected_
  else .public_

inductive MemberKind where
  | property
  | method
  | constructor
  | getAccessor
  | setAccessor
  | enumMember
  | callSignature
  | constructSignature
  deriving DecidableEq

def MemberKind.ofDecl? : DeclKind → Option MemberKind
  | .property => some property
  | .method => some method
  | .constructor => some constructor
  | .getAccessor => some getAccessor
  | .setAccessor => some setAccessor
  | .enumMember => some enumMember
  | .callSignature => some callSignature
  | .constructSignature => some constructSignature
  | _ => none

structure SourceLocation where
  fileName : String
  startLine : UInt32
  endLine : UInt32
  deriving DecidableEq

/-- What a document says about a member, apart from whose member it is. -/
structure Member where
  name : String
  kind : MemberKind
  access : Access
  isStatic : Bool
  optional : Bool
  returnType : String
  /-- Only callable members have them. -/
  parameters : Option (List ParameterDoc)
  typeParameters : List String
  content : Option String
  location : Option SourceLocation
  deriving DecidableEq

def Member.isCallable (member : Member) : Bool := member.parameters.isSome

def Program.locationOf (program : Program) (decl : Declaration) :
    Except Fault (Option SourceLocation) := do
  match decl.lines with
  | none => return none
  | some lines =>
    let file ← program.file decl.file
    return some { fileName := file.name, startLine := lines.start, endLine := lines.stop }

end ApiDocs
