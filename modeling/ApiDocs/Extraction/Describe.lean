import ApiDocs.Doc.Basic
import ApiDocs.Member.Describe
import ApiDocs.Module.Identity

/-!
What documents say about an export. A description does not depend on which module exports the
symbol, nor on where its document stands.
-/

namespace ApiDocs

/-- What kind of thing is described; its members stand beside it. -/
inductive ExportForm where
  | class_ (typeParameters heritage : List String) (isAbstract : Bool)
  | interface (typeParameters heritage : List String) (callMember newMember : Option Member)
  | function (signature : Signature)
  | enum
  | variable_ (keyword : VarKeyword) (returnType : String)
  | typeAlias (typeParameters : List String) (definition : Option String)
  | unknown
  deriving DecidableEq

structure Description where
  /-- A fitting declaration was found. -/
  resolved : Bool := false
  content : Option String := none
  location : Option SourceLocation := none
  /-- The id of the module that the described symbol belongs to. -/
  owningModule : Option String := none
  members : List Member := []
  form : ExportForm := .unknown
  deriving DecidableEq

/-- The kind of declaration that describes a symbol with these flags. Earlier kinds win, so a class
that is a namespace as well is described as a class. -/
def exportKind? (flags : SymbolFlags) : Option DeclKind :=
  if meets flags SymbolFlags.function then some .function
  else if meets flags SymbolFlags.class_ then some .class_
  else if meets flags SymbolFlags.interface then some .interface
  else if meets flags SymbolFlags.enum then some .enum
  else if meets flags SymbolFlags.typeAlias then some .typeAlias
  else if meets flags SymbolFlags.variable_ then some .variable_
  else none

/-- A namespace that is nothing else besides. -/
def isNamespaceOnly (flags : SymbolFlags) : Bool :=
  meets flags SymbolFlags.module && (exportKind? flags).isNone

namespace Program

/-- A signature that an interface has itself, as a member of the given name. -/
def signatureMember (program : Program) (keep : String → Bool) (ownerName name : String)
    (kind : MemberKind) (decl : Option DeclId) : Except Fault (Option Member) :=
  match decl with
  | none => .ok none
  | some decl => do
    return some (← program.describeMember keep ownerName
      { decl, name, kind, access := .public_, isStatic := false, source := .declared })

/-- The members and the form of a symbol by its declarations of one kind, of which the first is
`primary`. -/
def describeForm (program : Program) (options : Options) (name : String) (kind : DeclKind)
    (primary : Declaration) (primaryId : DeclId) (decls : List DeclId) :
    Except Fault (List Member × ExportForm) := do
  let keep := options.keeps
  match kind with
  | .class_ =>
    let layout ← program.layout options decls
    let members ← layout.ordered.mapM (program.describeMember keep name)
    return (members, .class_ primary.shownTypeParameters primary.heritage
      (covers primary.modifiers Modifiers.abstract))
  | .interface =>
    let layout ← program.layout options decls
    let members ← layout.ordered.mapM (program.describeMember keep name)
    let callMember ←
      program.signatureMember keep name "call" .callSignature layout.callSignature
    let newMember ←
      program.signatureMember keep name "new" .constructSignature layout.constructSignature
    return (members, .interface primary.shownTypeParameters primary.heritage callMember newMember)
  | .enum =>
    let layout ← program.layout options decls
    let members ← layout.ordered.mapM (program.describeMember keep name)
    return (members, .enum)
  | .function => return ([], .function (← program.signature keep primary))
  | .typeAlias =>
    return ([], .typeAlias primary.shownTypeParameters
      (primary.typeAnnotation.map (TypeText.display keep)))
  | _ =>
    return ([], .variable_ (primary.varKeyword.getD .var)
      (← program.declaredType keep primaryId))

/-- Describes the symbol behind an export; without a fitting declaration it is unknown. -/
def describe (program : Program) (options : Options) (target : Option SymbolId) :
    Except Fault Description := do
  match target with
  | none => return {}
  | some id =>
    let symbol ← program.symbol id
    match exportKind? symbol.flags with
    | none => return {}
    | some kind =>
      let decls ← symbol.declarations.mapM program.identified
      match decls.filter (·.2.kind = kind) with
      | [] => return {}
      | (primaryId, primary) :: rest =>
        let (members, form) ← program.describeForm options symbol.name kind primary primaryId
          (primaryId :: rest.map (·.1))
        return {
          resolved := true
          content := primary.docComment
          location := ← program.locationOf primary
          owningModule := ← program.owningModuleId options.baseDir id
          members
          form }

end Program

end ApiDocs
