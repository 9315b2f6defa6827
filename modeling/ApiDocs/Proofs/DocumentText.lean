import ApiDocs.Doc.Json
import ApiDocs.Proofs.JsonText
import Mathlib.Data.List.Nodup

/-! The text of documents. Every part of a document has a form that no other value shares and whose
objects have no key twice, so a text stands for one list of documents only, in either layout. -/

namespace ApiDocs.Proofs.DocumentText

open Json JsonText

/-- No object inside the value has a key twice. -/
inductive DistinctKeys : Json → Prop where
  | scalar (value : Scalar) : DistinctKeys (.scalar value)
  | arr {elements} (each : ∀ element ∈ elements, DistinctKeys element) : DistinctKeys (.arr elements)
  | obj {fields} (names : (fields.map (·.1)).Nodup) (each : ∀ field ∈ fields, DistinctKeys field.2) :
      DistinctKeys (.obj fields)

/-- A value whose text stands for it, and in which every key leads to one field. -/
structure Clear (value : Json) : Prop where
  exact : Exact value
  distinct : DistinctKeys value

/-- Different values have different forms, and all forms are clear. -/
structure Faithful {α : Type} (encode : α → Json) : Prop where
  injective : Function.Injective encode
  clear : ∀ value, Clear (encode value)

section Formats

variable {α : Type} {encode : α → Json}

theorem clear_arr {elements : List Json} (each : ∀ element ∈ elements, Clear element) :
    Clear (.arr elements) :=
  ⟨.arr fun element member => (each element member).exact,
    .arr fun element member => (each element member).distinct⟩

theorem clear_obj {fields : List (String × Json)} (names : (fields.map (·.1)).Nodup)
    (each : ∀ field ∈ fields, Clear field.2) : Clear (.obj fields) :=
  ⟨.obj fun field member => (each field member).exact,
    .obj names fun field member => (each field member).distinct⟩

theorem faithful_str : Faithful Json.str := by
  refine ⟨?_, fun value => ⟨.str value, .scalar _⟩⟩
  intro first last same
  cases same
  rfl

theorem faithful_bool : Faithful Json.bool := by
  refine ⟨?_, fun value => ⟨.bool value, .scalar _⟩⟩
  intro first last same
  cases same
  rfl

theorem faithful_word : Faithful ofWord := by
  refine ⟨?_, fun value => ⟨.num value.toNat, .scalar _⟩⟩
  intro first last same
  simp only [ofWord, Json.scalar.injEq, Scalar.num.injEq] at same
  exact UInt32.toNat_inj.mp same

theorem faithful_docId : Faithful DocId.toJson := by
  refine ⟨?_, fun id => faithful_word.clear id.index⟩
  intro first last same
  cases first
  cases last
  exact congrArg DocId.mk (faithful_word.injective same)

/-- A value that is written as a word of its own. -/
theorem faithful_spelled {word : α → String} (apart : Function.Injective word) :
    Faithful fun value => Json.str (word value) :=
  ⟨faithful_str.injective.comp apart, fun value => faithful_str.clear (word value)⟩

theorem faithful_access : Faithful fun access : Access => Json.str access.word := by
  apply faithful_spelled
  intro first last same
  cases first <;> cases last <;> simp_all [Access.word]

theorem faithful_memberKind : Faithful fun kind : MemberKind => Json.str kind.word := by
  apply faithful_spelled
  intro first last same
  cases first <;> cases last <;> simp_all [MemberKind.word]

theorem faithful_varKeyword : Faithful fun keyword : VarKeyword => Json.str keyword.word := by
  apply faithful_spelled
  intro first last same
  cases first <;> cases last <;> simp_all [VarKeyword.word]

theorem faithful_list (faithful : Faithful encode) : Faithful (ofList encode) := by
  constructor
  · intro first last same
    exact List.map_injective_iff.mpr faithful.injective (Json.arr.inj same)
  · intro values
    apply clear_arr
    intro element member
    obtain ⟨value, _, rfl⟩ := List.mem_map.mp member
    exact faithful.clear value

theorem faithful_option (faithful : Faithful encode) (given : ∀ value, encode value ≠ .null) :
    Faithful (ofOption encode) := by
  constructor
  · intro first last same
    cases first with
    | none =>
      cases last with
      | none => rfl
      | some value => exact absurd same.symm (given value)
    | some value =>
      cases last with
      | none => exact absurd same (given value)
      | some other => exact congrArg some (faithful.injective same)
  · intro value
    cases value with
    | none => exact ⟨.null, .scalar _⟩
    | some value => exact faithful.clear value

theorem faithful_text? : Faithful (ofOption Json.str) := faithful_option faithful_str (by simp)

theorem faithful_texts : Faithful ofStrs := faithful_list faithful_str

theorem faithful_docId? : Faithful (ofOption DocId.toJson) :=
  faithful_option faithful_docId (by simp [DocId.toJson, ofWord])

theorem faithful_docIds : Faithful (ofList DocId.toJson) := faithful_list faithful_docId

end Formats

section Records

theorem faithful_location : Faithful SourceLocation.toJson := by
  constructor
  · intro first last same
    simp only [SourceLocation.toJson, Json.obj.injEq, List.cons.injEq, Prod.mk.injEq, true_and,
      and_true] at same
    obtain ⟨fileName, startLine, endLine⟩ := same
    cases first
    cases last
    cases faithful_str.injective fileName
    cases faithful_word.injective startLine
    cases faithful_word.injective endLine
    rfl
  · intro location
    apply clear_obj
    · simp only [List.map_cons, List.map_nil]
      decide
    · simp only [List.forall_mem_cons]
      exact ⟨faithful_str.clear _, faithful_word.clear _, faithful_word.clear _, by simp⟩

theorem faithful_location? : Faithful (ofOption SourceLocation.toJson) :=
  faithful_option faithful_location (by simp [SourceLocation.toJson])

theorem faithful_parameter : Faithful ParameterDoc.toJson := by
  constructor
  · intro first last same
    simp only [ParameterDoc.toJson, Json.obj.injEq, List.cons.injEq, Prod.mk.injEq, true_and,
      and_true] at same
    obtain ⟨name, type, optional, defaultValue⟩ := same
    cases first
    cases last
    cases faithful_str.injective name
    cases faithful_str.injective type
    cases faithful_bool.injective optional
    cases faithful_text?.injective defaultValue
    rfl
  · intro parameter
    apply clear_obj
    · simp only [List.map_cons, List.map_nil]
      decide
    · simp only [List.forall_mem_cons]
      exact ⟨faithful_str.clear _, faithful_str.clear _, faithful_bool.clear _, faithful_text?.clear _,
        by simp⟩

theorem faithful_parameters : Faithful (ofList ParameterDoc.toJson) := faithful_list faithful_parameter

theorem faithful_parameters? : Faithful (ofOption (ofList ParameterDoc.toJson)) :=
  faithful_option faithful_parameters (by simp [ofList])

theorem faithful_member : Faithful MemberDoc.toJson := by
  constructor
  · intro first last same
    simp only [MemberDoc.toJson, Json.obj.injEq, List.cons.injEq, Prod.mk.injEq, true_and,
      and_true] at same
    obtain ⟨name, owner, kind, access, isStatic, optional, returnType, parameters, typeParameters,
      content, location⟩ := same
    obtain ⟨⟨_⟩, _⟩ := first
    obtain ⟨⟨_⟩, _⟩ := last
    cases faithful_str.injective name
    cases faithful_docId.injective owner
    cases faithful_memberKind.injective kind
    cases faithful_access.injective access
    cases faithful_bool.injective isStatic
    cases faithful_bool.injective optional
    cases faithful_str.injective returnType
    cases faithful_parameters?.injective parameters
    cases faithful_texts.injective typeParameters
    cases faithful_text?.injective content
    cases faithful_location?.injective location
    rfl
  · intro member
    apply clear_obj
    · simp only [List.map_cons, List.map_nil]
      decide
    · simp only [List.forall_mem_cons]
      exact ⟨faithful_str.clear _, faithful_str.clear _, faithful_docId.clear _,
        faithful_memberKind.clear _, faithful_access.clear _, faithful_bool.clear _,
        faithful_bool.clear _, faithful_str.clear _, faithful_parameters?.clear _,
        faithful_texts.clear _, faithful_text?.clear _, faithful_location?.clear _, by simp⟩

theorem faithful_member? : Faithful (ofOption MemberDoc.toJson) :=
  faithful_option faithful_member (by simp [MemberDoc.toJson])

theorem faithful_module : Faithful ModuleDoc.toJson := by
  constructor
  · intro first last same
    simp only [ModuleDoc.toJson, Json.obj.injEq, List.cons.injEq, Prod.mk.injEq, true_and,
      and_true] at same
    obtain ⟨id, name, fileName, exports⟩ := same
    cases first
    cases last
    cases faithful_str.injective id
    cases faithful_str.injective name
    cases faithful_str.injective fileName
    cases faithful_docIds.injective exports
    rfl
  · intro module
    apply clear_obj
    · simp only [List.map_cons, List.map_nil]
      decide
    · simp only [List.forall_mem_cons]
      exact ⟨faithful_str.clear _, faithful_str.clear _, faithful_str.clear _, faithful_str.clear _,
        faithful_docIds.clear _, by simp⟩

end Records

section Exports

theorem fields_injective : Function.Injective Signature.fields := by
  intro first last same
  simp only [Signature.fields, List.cons.injEq, Prod.mk.injEq, true_and, and_true] at same
  obtain ⟨typeParameters, parameters, returnType⟩ := same
  cases first
  cases last
  cases faithful_texts.injective typeParameters
  cases faithful_parameters.injective parameters
  cases faithful_str.injective returnType
  rfl

/-- Two kinds with the same name have the same fields only if they are the same. -/
theorem kind_eq {first last : ExportKind} (named : first.docType = last.docType)
    (same : first.fields = last.fields) : first = last := by
  cases first with
  | class_ =>
    cases last with
    | class_ =>
      simp only [ExportKind.fields, List.cons.injEq, Prod.mk.injEq, true_and, and_true] at same
      obtain ⟨typeParameters, heritage, isAbstract, constructor, members, statics⟩ := same
      cases faithful_texts.injective typeParameters
      cases faithful_texts.injective heritage
      cases faithful_bool.injective isAbstract
      cases faithful_docId?.injective constructor
      cases faithful_docIds.injective members
      cases faithful_docIds.injective statics
      rfl
    | interface | function | enum | variable_ | typeAlias | unknown => simp [ExportKind.docType] at named
  | interface =>
    cases last with
    | interface =>
      simp only [ExportKind.fields, List.cons.injEq, Prod.mk.injEq, true_and, and_true] at same
      obtain ⟨typeParameters, heritage, members, callMember, newMember⟩ := same
      cases faithful_texts.injective typeParameters
      cases faithful_texts.injective heritage
      cases faithful_docIds.injective members
      cases faithful_member?.injective callMember
      cases faithful_member?.injective newMember
      rfl
    | class_ | function | enum | variable_ | typeAlias | unknown => simp [ExportKind.docType] at named
  | function =>
    cases last with
    | function => exact congrArg ExportKind.function (fields_injective same)
    | class_ | interface | enum | variable_ | typeAlias | unknown => simp [ExportKind.docType] at named
  | enum =>
    cases last with
    | enum =>
      simp only [ExportKind.fields, List.cons.injEq, Prod.mk.injEq, true_and, and_true] at same
      exact congrArg ExportKind.enum (faithful_docIds.injective same)
    | class_ | interface | function | variable_ | typeAlias | unknown =>
      simp [ExportKind.docType] at named
  | variable_ =>
    cases last with
    | variable_ =>
      simp only [ExportKind.fields, List.cons.injEq, Prod.mk.injEq, true_and, and_true] at same
      obtain ⟨keyword, returnType⟩ := same
      cases faithful_varKeyword.injective keyword
      cases faithful_str.injective returnType
      rfl
    | class_ | interface | function | enum | typeAlias | unknown => simp [ExportKind.docType] at named
  | typeAlias =>
    cases last with
    | typeAlias =>
      simp only [ExportKind.fields, List.cons.injEq, Prod.mk.injEq, true_and, and_true] at same
      obtain ⟨typeParameters, definition⟩ := same
      cases faithful_texts.injective typeParameters
      cases faithful_text?.injective definition
      rfl
    | class_ | interface | function | enum | variable_ | unknown => simp [ExportKind.docType] at named
  | unknown =>
    cases last with
    | unknown => rfl
    | class_ | interface | function | enum | variable_ | typeAlias => simp [ExportKind.docType] at named

theorem clear_fields (kind : ExportKind) : ∀ field ∈ kind.fields, Clear field.2 := by
  cases kind with
  | class_ =>
    simp only [ExportKind.fields, List.forall_mem_cons]
    exact ⟨faithful_texts.clear _, faithful_texts.clear _, faithful_bool.clear _,
      faithful_docId?.clear _, faithful_docIds.clear _, faithful_docIds.clear _, by simp⟩
  | interface =>
    simp only [ExportKind.fields, List.forall_mem_cons]
    exact ⟨faithful_texts.clear _, faithful_texts.clear _, faithful_docIds.clear _,
      faithful_member?.clear _, faithful_member?.clear _, by simp⟩
  | function =>
    simp only [ExportKind.fields, Signature.fields, List.forall_mem_cons]
    exact ⟨faithful_texts.clear _, faithful_parameters.clear _, faithful_str.clear _, by simp⟩
  | enum =>
    simp only [ExportKind.fields, List.forall_mem_cons]
    exact ⟨faithful_docIds.clear _, by simp⟩
  | variable_ =>
    simp only [ExportKind.fields, List.forall_mem_cons]
    exact ⟨faithful_varKeyword.clear _, faithful_str.clear _, by simp⟩
  | typeAlias =>
    simp only [ExportKind.fields, List.forall_mem_cons]
    exact ⟨faithful_texts.clear _, faithful_text?.clear _, by simp⟩
  | unknown => simp [ExportKind.fields]

/-- The fields of a kind stand beside those of every export, and none of them clash. -/
theorem faithful_export : Faithful ExportDoc.toJson := by
  constructor
  · intro first last same
    simp only [ExportDoc.toJson, Json.obj.injEq, List.cons_append, List.nil_append, List.cons.injEq,
      Prod.mk.injEq, true_and] at same
    obtain ⟨name, module, moduleId, declaredIn, content, location, docType, fields⟩ := same
    cases first
    cases last
    cases faithful_str.injective name
    cases faithful_docId.injective module
    cases faithful_str.injective moduleId
    cases faithful_text?.injective declaredIn
    cases faithful_text?.injective content
    cases faithful_location?.injective location
    cases kind_eq (faithful_str.injective docType) fields
    rfl
  · intro doc
    apply clear_obj
    · cases kind : doc.kind
      all_goals
        simp only [ExportKind.fields, Signature.fields, List.map_append, List.map_cons, List.map_nil]
        decide
    · refine List.forall_mem_append.mpr ⟨?_, clear_fields doc.kind⟩
      simp only [List.forall_mem_cons]
      exact ⟨faithful_str.clear _, faithful_docId.clear _, faithful_str.clear _, faithful_text?.clear _,
        faithful_text?.clear _, faithful_location?.clear _, faithful_str.clear _, by simp⟩

end Exports

section Documents

/-- Documents of modules and members begin with their type, those of exports with their name. -/
theorem faithful_doc : Faithful Doc.toJson := by
  constructor
  · intro first last same
    cases first with
    | module doc =>
      cases last with
      | module other => exact congrArg Doc.module (faithful_module.injective same)
      | export_ other | member other =>
        simp [Doc.toJson, ModuleDoc.toJson, ExportDoc.toJson, MemberDoc.toJson] at same
    | export_ doc =>
      cases last with
      | export_ other => exact congrArg Doc.export_ (faithful_export.injective same)
      | module other | member other =>
        simp [Doc.toJson, ModuleDoc.toJson, ExportDoc.toJson, MemberDoc.toJson] at same
    | member doc =>
      cases last with
      | member other => exact congrArg Doc.member (faithful_member.injective same)
      | module other | export_ other =>
        simp [Doc.toJson, ModuleDoc.toJson, ExportDoc.toJson, MemberDoc.toJson] at same
  · intro doc
    cases doc with
    | module doc => exact faithful_module.clear doc
    | export_ doc => exact faithful_export.clear doc
    | member doc => exact faithful_member.clear doc

theorem faithful_docSet : Faithful DocSet.toJson := by
  refine ⟨?_, fun set => (faithful_list faithful_doc).clear set.docs.toList⟩
  intro first last same
  cases first
  cases last
  exact congrArg DocSet.mk (Array.toList_inj.mp ((faithful_list faithful_doc).injective same))

theorem read_write_docSet (set : DocSet) (layout : Layout) :
    Json.read (set.write layout) = some set.toJson :=
  read_write (faithful_docSet.clear set).exact layout

/-- Documents are known from their text in either layout, and both layouts stand for the same value,
in which no object has a key twice. -/
theorem write_unambiguous :
    (∀ layout : Layout, Function.Injective fun set : DocSet => set.write layout) ∧
    ∀ set : DocSet, ∃ value, DistinctKeys value ∧
      ∀ layout : Layout, Json.read (set.write layout) = some value := by
  constructor
  · intro layout first last same
    have read := read_write_docSet first layout
    rw [show first.write layout = last.write layout from same, read_write_docSet last layout] at read
    exact faithful_docSet.injective (Option.some.inj read).symm
  · intro set
    exact ⟨set.toJson, (faithful_docSet.clear set).distinct, read_write_docSet set⟩

end Documents

end ApiDocs.Proofs.DocumentText
