import ApiDocs.Member.Basic
import ApiDocs.Options

/-!
Which members an owner has, and in which order. The members of all declarations of the owner are
taken together; overloads and pairs of accessors count once. A constructor parameter with an access
modifier is a property as well.
-/

namespace ApiDocs

inductive MemberSource where
  | declared
  /-- A constructor parameter that is a property. -/
  | parameter
  deriving DecidableEq

structure ClassifiedMember where
  decl : DeclId
  name : String
  kind : MemberKind
  access : Access
  isStatic : Bool
  source : MemberSource
  deriving DecidableEq

/-- The members in order, and the signatures that an interface has itself. -/
structure MemberLayout where
  ordered : List ClassifiedMember
  callSignature : Option DeclId
  constructSignature : Option DeclId
  deriving DecidableEq

/-- The option to hide private members applies to this name and access. -/
def Options.hides (options : Options) (name : String) (access : Access) : Bool :=
  options.hidePrivate && (access = .private_ || name.toList.head? == some '_')

/-- A member declaration in the list of an owner. -/
structure ListedMember where
  /-- The owner is a class. -/
  ofClass : Bool
  id : DeclId
  decl : Declaration

namespace ListedMember

/-- The name a member is known by; all constructors have the same. -/
def name (member : ListedMember) : String :=
  if member.decl.kind = .constructor then "constructor" else member.decl.name

def isStatic (member : ListedMember) : Bool := covers member.decl.modifiers Modifiers.static

/-- Members with the same key are one member. -/
def key (member : ListedMember) : String × Bool := (member.name, member.isStatic)

def access (member : ListedMember) : Access := .ofModifiers member.decl.modifiers

/-- The kind of a member that stands in the list of members. -/
def kind? (member : ListedMember) : Option MemberKind :=
  match MemberKind.ofDecl? member.decl.kind with
  | some .callSignature => none
  | some .constructSignature => none
  | kind => kind

def isHidden (options : Options) (member : ListedMember) : Bool :=
  member.ofClass && member.decl.kind != .constructor && options.hides member.name member.access

def classified? (member : ListedMember) : Option ClassifiedMember :=
  member.kind?.map fun kind => {
    decl := member.id
    name := member.name
    kind
    access := member.access
    isStatic := member.isStatic
    source := .declared }

end ListedMember

/-- The first value of each key, in order, except for the keys in `seen`. -/
def firstOfEachKey [DecidableEq κ] (key : α → κ) (seen : List κ) : List α → List α
  | [] => []
  | value :: rest =>
    if key value ∈ seen then firstOfEachKey key seen rest
    else value :: firstOfEachKey key (key value :: seen) rest

/-- The members that are shown: one for each key, without the hidden ones, which use up their key
nonetheless. -/
def shownMembers (options : Options) (listed : List ListedMember) : List ListedMember :=
  (firstOfEachKey ListedMember.key [] (listed.filter (·.kind?.isSome))).filter
    (!·.isHidden options)

/-- The property that a constructor parameter stands for. -/
def parameterProperty? (options : Options) (id : DeclId) (decl : Declaration) :
    Option ClassifiedMember :=
  let access := Access.ofModifiers decl.modifiers
  if meets decl.modifiers Modifiers.parameterProperty && !options.hides decl.name access then
    some {
      decl := id
      name := decl.name
      kind := .property
      access
      isStatic := false
      source := .parameter }
  else none

namespace Program

/-- A declaration together with its id. -/
def identified (program : Program) (id : DeclId) : Except Fault (DeclId × Declaration) := do
  return (id, ← program.declaration id)

def membersOf (program : Program) (owner : DeclId) : Except Fault (List ListedMember) := do
  let ownerDecl ← program.declaration owner
  ownerDecl.members.mapM fun id =>
    return ⟨ownerDecl.kind = .class_, id, ← program.declaration id⟩

/-- The members of all owners in order. -/
def listMembers (program : Program) (owners : List DeclId) : Except Fault (List ListedMember) := do
  return (← owners.mapM program.membersOf).flatten

/-- The properties among the parameters of a constructor; other members have none. -/
def parameterProperties (program : Program) (options : Options) (member : ListedMember) :
    Except Fault (List ClassifiedMember) := do
  if member.decl.kind = .constructor then
    let parameters ← member.decl.parameters.mapM program.identified
    return parameters.filterMap fun (id, decl) => parameterProperty? options id decl
  else return []

/-- Puts the parameter properties after their constructor, or after all declared members. -/
def arrange (sorted : Bool) (members : List (ListedMember × List ClassifiedMember)) :
    List ClassifiedMember :=
  if sorted then
    members.flatMap fun (member, properties) => member.classified?.toList ++ properties
  else members.filterMap (·.1.classified?) ++ members.flatMap (·.2)

def layout (program : Program) (options : Options) (owners : List DeclId) :
    Except Fault MemberLayout := do
  let listed ← program.listMembers owners
  let members ← (shownMembers options listed).mapM fun member => do
    return (member, ← program.parameterProperties options member)
  return {
    ordered := arrange options.sortMembers members
    callSignature := (listed.find? (·.decl.kind = .callSignature)).map (·.id)
    constructSignature := (listed.find? (·.decl.kind = .constructSignature)).map (·.id) }

end Program

end ApiDocs
