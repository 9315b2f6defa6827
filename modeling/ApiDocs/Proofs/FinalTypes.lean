import ApiDocs.Proofs.MemberSources
import ApiDocs.Proofs.TypeTokens

/-! The types in documents. All of them are in their final form, except that a constructor and an enum
member of which no type is known have the name of the symbol that they belong to. -/

namespace ApiDocs.Proofs.FinalTypes

open Blocks Descriptions MemberBlocks MemberSources Provenance TypeTokens

section Types

def parameterTypes (member : Member) : List String := (member.parameters.getD []).map (·.type)

def memberTypes (member : Member) : List String := member.returnType :: parameterTypes member

/-- The types in the document of an export, apart from those of its members. -/
def shownTypes : ExportKind → List String
  | .function signature => signature.returnType :: signature.parameters.map (·.type)
  | .variable_ _ returnType => [returnType]
  | .typeAlias _ definition => definition.toList
  | .interface _ _ _ callMember newMember =>
    (callMember.toList ++ newMember.toList).flatMap fun member => memberTypes member.toMember
  | _ => []

def formTypes : ExportForm → List String
  | .function signature => signature.returnType :: signature.parameters.map (·.type)
  | .variable_ _ returnType => [returnType]
  | .typeAlias _ definition => definition.toList
  | .interface _ _ callMember newMember => (callMember.toList ++ newMember.toList).flatMap memberTypes
  | _ => []

theorem shownTypes_placedKind (description : Description) (id : DocId) :
    shownTypes (description.placedKind id) = formTypes description.form := by
  unfold Description.placedKind
  cases description.form with
  | interface typeParameters heritage callMember newMember =>
    cases callMember <;> cases newMember <;> rfl
  | _ => rfl

/-- No type is known of a constructor without an annotation and of an enum member without an inferred
type. -/
def untyped (kind : MemberKind) (decl : Declaration) : Bool :=
  match kind with
  | .constructor => decl.typeAnnotation.isNone
  | .enumMember => decl.inferredType.isNone
  | _ => false

variable {program : Program} {options : Options} {keep : String → Bool}

theorem final_returnType (decl : Declaration) : Final keep (decl.returnType keep) :=
  final_display keep _

theorem final_declaredType {id : DeclId} {type : String} (typed : program.declaredType keep id = .ok type) :
    Final keep type := by
  obtain ⟨giver, _, built⟩ := bind_ok_iff.mp typed
  cases built
  unfold Declaration.ownType
  split
  · exact final_returnType giver
  · exact final_display keep _

theorem final_parameterDoc {id : DeclId} {doc : ParameterDoc}
    (described : program.parameterDoc keep id = .ok doc) : Final keep doc.type := by
  obtain ⟨decl, _, rest⟩ := bind_ok_iff.mp described
  obtain ⟨type, typed, built⟩ := bind_ok_iff.mp rest
  cases built
  exact final_declaredType typed

theorem final_signature {decl : Declaration} {signature : Signature}
    (signed : program.signature keep decl = .ok signature) :
    Final keep signature.returnType ∧ ∀ type ∈ signature.parameters.map (·.type), Final keep type := by
  obtain ⟨parameters, listed, built⟩ := bind_ok_iff.mp signed
  cases built
  refine ⟨final_returnType decl, ?_⟩
  intro type inside
  obtain ⟨doc, member, rfl⟩ := List.mem_map.mp inside
  obtain ⟨id, _, described⟩ := exists_related (mapM_ok_iff.mp listed) member
  exact final_parameterDoc described

/-- The types of a member are final, except for a type that is not known. -/
structure Typed (keep : String → Bool) (ownerName : String) (decl : Declaration) (member : Member) : Prop where
  parameters : ∀ type ∈ parameterTypes member, Final keep type
  known : untyped member.kind decl = false → Final keep member.returnType
  unknown : untyped member.kind decl = true → member.returnType = ownerName

theorem typed_memberSignature {classified : ClassifiedMember} {decl : Declaration} {ownerName : String}
    {signature : String × Option (List ParameterDoc) × List String}
    (signed : program.memberSignature keep classified decl ownerName = .ok signature) :
    (∀ type ∈ (signature.2.1.getD []).map (·.type), Final keep type) ∧
      (untyped classified.kind decl = false → Final keep signature.1) ∧
      (untyped classified.kind decl = true → signature.1 = ownerName) := by
  unfold Program.memberSignature at signed
  cases kind : classified.kind with
  | method | callSignature | constructSignature =>
    simp only [kind] at signed
    obtain ⟨shown, made, built⟩ := bind_ok_iff.mp signed
    cases built
    obtain ⟨returns, parameters⟩ := final_signature made
    exact ⟨parameters, fun _ => returns, by simp [untyped]⟩
  | constructor =>
    simp only [kind] at signed
    obtain ⟨shown, made, built⟩ := bind_ok_iff.mp signed
    cases built
    obtain ⟨returns, parameters⟩ := final_signature made
    refine ⟨parameters, ?_, ?_⟩
    · intro annotated
      have isSome : decl.typeAnnotation.isSome = true := by simpa [untyped] using annotated
      simp only [if_pos isSome]
      exact returns
    · intro bare
      have isNone : ¬ decl.typeAnnotation.isSome = true := by simpa [untyped] using bare
      simp only [if_neg isNone]
  | enumMember =>
    simp only [kind] at signed
    cases signed
    refine ⟨by simp, ?_, ?_⟩
    · intro inferred
      obtain ⟨raw, same⟩ : ∃ raw, decl.inferredType = some raw := by
        simpa [untyped, Option.isSome_iff_exists] using inferred
      rw [same]
      exact final_display keep raw
    · intro unknown
      rw [show decl.inferredType = none by simpa [untyped] using unknown]
      rfl
  | property | getAccessor | setAccessor =>
    simp only [kind] at signed
    obtain ⟨type, typed, built⟩ := bind_ok_iff.mp signed
    cases built
    exact ⟨by simp, fun _ => final_declaredType typed, by simp [untyped]⟩

theorem typed_describeMember {ownerName : String} {classified : ClassifiedMember} {member : Member}
    (described : program.describeMember keep ownerName classified = .ok member) :
    ∃ decl, program.declaration classified.decl = .ok decl ∧ Typed keep ownerName decl member := by
  obtain ⟨decl, found, rest⟩ := bind_ok_iff.mp described
  obtain ⟨signature, signed, rest⟩ := bind_ok_iff.mp rest
  obtain ⟨location, _, built⟩ := bind_ok_iff.mp rest
  cases built
  obtain ⟨parameters, known, unknown⟩ := typed_memberSignature signed
  exact ⟨decl, found, parameters, known, unknown⟩

/-- The signatures that an interface has itself have a type. -/
theorem final_signatureMember {ownerName name : String} {kind : MemberKind}
    (signature : isSignature kind = true) {decl : Option DeclId} {result : Option Member}
    (given : program.signatureMember keep ownerName name kind decl = .ok result) :
    ∀ type ∈ result.toList.flatMap memberTypes, Final keep type := by
  cases decl with
  | none =>
    cases given
    simp
  | some decl =>
    obtain ⟨member, described, built⟩ := bind_ok_iff.mp given
    cases built
    obtain ⟨entry, _, typed⟩ := typed_describeMember described
    have same : member.kind = kind := (copied_of_describeMember described).kind
    -- Of both signatures a type is always shown, so the exception does not arise.
    have known : untyped member.kind entry = false := by
      rw [same]
      cases kind <;> first | rfl | cases signature
    simpa [memberTypes] using And.intro (typed.known known) typed.parameters

theorem final_formed {name : String} {kind : DeclKind} {primary : Declaration} {primaryId : DeclId}
    {decls : List DeclId} {members : List Member} {form : ExportForm}
    (formed : Formed program options name primary primaryId decls kind members form) :
    ∀ type ∈ formTypes form, Final options.keeps type := by
  cases formed with
  | class_ | enum => simp [formTypes]
  | interface laid described call new =>
    simp only [formTypes, List.flatMap_append, List.forall_mem_append]
    exact ⟨final_signatureMember rfl call, final_signatureMember rfl new⟩
  | function signed =>
    obtain ⟨returns, parameters⟩ := final_signature signed
    exact List.forall_mem_cons.mpr ⟨returns, parameters⟩
  | typeAlias =>
    intro type inside
    obtain ⟨raw, _, rfl⟩ := Option.map_eq_some_iff.mp (Option.mem_toList.mp inside)
    exact final_display _ raw
  | variable_ typed => exact List.forall_mem_singleton.mpr (final_declaredType typed)

theorem final_describe {target : Option SymbolId} {description : Description}
    (described : program.describe options target = .ok description) :
    ∀ type ∈ formTypes description.form, Final options.keeps type := by
  cases described_of_describe described with
  | nothing | kindless | undeclared => simp [formTypes]
  | declared found fitting listed chosen formed located owned =>
    exact final_formed (formed_of_describeForm formed)

end Types

section Extraction

variable {program : Program} {options : Options} {names : List String} {docs : DocSet}

/-- The declaration of the member at this offset in the layout of the symbol. -/
def LaidAt (program : Program) (options : Options) (symbol : Symbol) (offset : Nat) (decl : Declaration) :
    Prop :=
  ∃ kind decls layout classified, exportKind? symbol.flags = some kind ∧
    symbol.declarations.mapM program.identified = .ok decls ∧
    program.layout options ((decls.filter (·.2.kind = kind)).map (·.1)) = .ok layout ∧
    layout.ordered[offset]? = some classified ∧ program.declaration classified.decl = .ok decl

theorem typed_describe {target : Option SymbolId} {description : Description} {offset : Nat} {member : Member}
    (described : program.describe options target = .ok description)
    (listed : description.members[offset]? = some member) :
    ∃ id symbol decl, target = some id ∧ program.symbol id = .ok symbol ∧
      LaidAt program options symbol offset decl ∧ Typed options.keeps symbol.name decl member := by
  have members := (describe_members described).1
  cases owner : formOwner? description.form with
  | none =>
    rw [owner] at members
    rw [show description.members = [] from members] at listed
    cases listed
  | some kind =>
    rw [owner] at members
    obtain ⟨id, symbol, decls, layout, same, found, fitting, identified, laid, ordered⟩ := members
    have related := mapM_ok_iff.mp ordered
    have inside : offset < layout.ordered.length := by
      rw [related.length_eq]
      exact (List.getElem?_eq_some_iff.mp listed).1
    have here := List.getElem?_eq_getElem inside
    obtain ⟨decl, declared, typed⟩ := typed_describeMember (related_at related here listed)
    exact ⟨id, symbol, decl, same, found, ⟨kind, decls, layout, _, fitting, identified, laid, here, declared⟩,
      typed⟩

/-- Every type in a document is in its final form, whichever way it got there. Only a member of which no
type is known has the declared name of the symbol behind the export instead. -/
theorem extract_final_types (returned : program.extract options names = .ok docs) :
    (∀ (index : Nat) doc, docs.docs[index]? = some (.export_ doc) →
        ∀ type ∈ shownTypes doc.kind, Final options.keeps type) ∧
      ∀ (index : Nat) member, docs.docs[index]? = some (.member member) →
        (∀ type ∈ parameterTypes member.toMember, Final options.keeps type) ∧
          ∃ module export_ place doc offset target symbol decl,
            MadeFor program options names docs module export_ place doc ∧ member.owner = docAt place ∧
            export_.target = some target ∧ program.symbol target = .ok symbol ∧
            index = place + 1 + offset ∧ LaidAt program options symbol offset decl ∧
            if untyped member.kind decl then member.returnType = symbol.name
            else Final options.keeps member.returnType := by
  constructor
  · intro index doc found
    obtain ⟨_, _, description, _, described, same⟩ := exists_description returned found
    rw [same, shownTypes_placedKind]
    exact final_describe described
  · intro index member found
    obtain ⟨module, export_, place, doc, description, offset, madeFor, described, position, listed, owner⟩ :=
      exists_source returned found
    obtain ⟨target, symbol, decl, aimed, known, laid, typed⟩ := typed_describe described listed
    refine ⟨typed.parameters, module, export_, place, doc, offset, target, symbol, decl, madeFor, owner,
      aimed, known, position, laid, ?_⟩
    split
    next unknown => exact typed.unknown unknown
    next known => exact typed.known (by simpa using known)

/-- A class whose constructor has no annotation, an enum whose member has no type, and a function. -/
def annotated : Program where
  files := #[{ name := "a", moduleSymbol := some ⟨0⟩ }]
  symbols := #[
    { name := "a", flags := SymbolFlags.valueModule, exports := [⟨1⟩, ⟨2⟩, ⟨3⟩] },
    { name := "C", flags := SymbolFlags.class_, declarations := [⟨0⟩], parent := some ⟨0⟩ },
    { name := "ns.E", flags := SymbolFlags.regularEnum, declarations := [⟨3⟩], parent := some ⟨0⟩ },
    { name := "f", flags := SymbolFlags.function, declarations := [⟨5⟩], parent := some ⟨0⟩ }]
  declarations := #[
    { kind := .class_, file := ⟨0⟩, name := "C", members := [⟨1⟩] },
    { kind := .constructor, file := ⟨0⟩, name := "", parameters := [⟨2⟩] },
    { kind := .parameter, file := ⟨0⟩, name := "scope", typeAnnotation := some " ng.Scope | 'a.b' " },
    { kind := .enum, file := ⟨0⟩, name := "E", members := [⟨4⟩] },
    { kind := .enumMember, file := ⟨0⟩, name := "first" },
    { kind := .function, file := ⟨0⟩, name := "f", typeAnnotation := some "Rx.Observable<ng.Scope>" }]

def keeping : Options := { keepNamespaces := (Pattern.read "^Rx$").toList }

def annotatedDocs : DocSet := (annotated.extract keeping ["a"]).toOption.getD {}

/-- The member of the enum has a type that is not in its final form. -/
theorem extract_final_types_annotated :
    annotated.extract keeping ["a"] = .ok annotatedDocs ∧
      (∃ function, annotatedDocs.docs[5]? = some (.export_ function) ∧
        shownTypes function.kind = ["Rx.Observable<Scope>"] ∧
        ∀ type ∈ shownTypes function.kind, Final keeping.keeps type) ∧
      (∃ maker, annotatedDocs.docs[2]? = some (.member maker) ∧ maker.returnType = "C" ∧
        parameterTypes maker.toMember = ["Scope | 'a.b'"] ∧
        ∀ type ∈ parameterTypes maker.toMember, Final keeping.keeps type) ∧
      ∃ first, annotatedDocs.docs[4]? = some (.member first) ∧ first.returnType = "ns.E" ∧
        ¬ Final keeping.keeps first.returnType := by
  have returned : annotated.extract keeping ["a"] = .ok annotatedDocs := by decide +kernel
  obtain ⟨exports, members⟩ := extract_final_types returned
  obtain ⟨function, shown, types⟩ : ∃ function, annotatedDocs.docs[5]? = some (.export_ function) ∧
      shownTypes function.kind = ["Rx.Observable<Scope>"] :=
    ⟨(annotatedDocs.exports[2]?).get (by decide +kernel), by decide +kernel, by decide +kernel⟩
  obtain ⟨maker, made, name, parameters⟩ : ∃ maker, annotatedDocs.docs[2]? = some (.member maker) ∧
      maker.returnType = "C" ∧ parameterTypes maker.toMember = ["Scope | 'a.b'"] :=
    ⟨(annotatedDocs.members[0]?).get (by decide +kernel), by decide +kernel, by decide +kernel, by decide +kernel⟩
  obtain ⟨first, listed, owner⟩ : ∃ first, annotatedDocs.docs[4]? = some (.member first) ∧
      first.returnType = "ns.E" :=
    ⟨(annotatedDocs.members[1]?).get (by decide +kernel), by decide +kernel, by decide +kernel⟩
  refine ⟨returned, ⟨function, shown, types, exports 5 function shown⟩,
    ⟨maker, made, name, parameters, (members 2 maker made).1⟩, first, listed, owner, ?_⟩
  intro final
  have stripped := final.stripped
  rw [owner] at stripped
  revert stripped
  decide +kernel

end Extraction

end ApiDocs.Proofs.FinalTypes
