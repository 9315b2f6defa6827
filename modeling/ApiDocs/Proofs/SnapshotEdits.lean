import ApiDocs.Proofs.Snapshots
import Mathlib.Logic.Relation

/-! Snapshots that were edited. The fields of a record may stand in any order, those with their default
may be missing, and unknown ones may stand between them: a program is loaded from such a snapshot as from
the one that was saved. -/

namespace ApiDocs.Proofs.SnapshotEdits

open Json JsonText Snapshots

section Formats

/-- How a value is made up, as far as it may be edited: a record has fields with their names, the value
that each has if it is left out, and their own formats. -/
inductive Format where
  | plain
  | list (element : Format)
  | record (fields : List (String × Option Json × Format))

abbrev Field := String × Option Json × Format

/-- A field that must be given. -/
def must (name : String) (format : Format := .plain) : Field := (name, none, format)

/-- A field that may be left out if it has its default. -/
def may (name : String) (default : Json) (format : Format := .plain) : Field := (name, some default, format)

def lineRangeFields : List Field := [must "start", must "end"]

def declarationFields : List Field :=
  [must "kind", must "file", must "name", may "modifiers" (.str ""), may "question" (.bool false),
    may "rest" (.bool false), may "type_annotation" .null, may "initializer" .null,
    may "type_parameters" (.arr []), may "parameters" (.arr []), may "members" (.arr []),
    may "heritage" (.arr []), may "body" .null, may "var_keyword" .null, may "returns_value" (.bool false),
    may "doc_comment" .null, may "lines" .null (.record lineRangeFields), may "symbol" .null]

def declarationEntryFields : List Field :=
  [must "decl" (.record declarationFields), may "inferred_type" .null, may "inferred_return_type" .null]

def symbolFields : List Field :=
  [must "name", must "flags", may "declarations" (.arr []), may "parent" .null]

def symbolEntryFields : List Field :=
  [must "symbol" (.record symbolFields), may "exports" (.arr []), may "alias_of" .null]

def fileFields : List Field := [must "name", may "module_symbol" .null, may "statements" (.arr [])]

def programFields : List Field :=
  [may "files" (.arr []) (.list (.record fileFields)),
    may "symbols" (.arr []) (.list (.record symbolEntryFields)),
    may "declarations" (.arr []) (.list (.record declarationEntryFields))]

/-- A single edit of a value, in one of its records. -/
inductive Edit : Format → Json → Json → Prop where
  | reorder {fields : List Field} {before after : List (String × Json)} (same : before.Perm after) :
      Edit (.record fields) (.obj before) (.obj after)
  | add {fields : List Field} {name : String} (unknown : name ∉ fields.map (·.1)) (value : Json)
      (before after : List (String × Json)) :
      Edit (.record fields) (.obj (before ++ after)) (.obj (before ++ (name, value) :: after))
  | leaveOut {fields : List Field} {name : String} {default : Json} {format : Format}
      (known : (name, some default, format) ∈ fields) (before after : List (String × Json)) :
      Edit (.record fields) (.obj (before ++ (name, default) :: after)) (.obj (before ++ after))
  | inField {fields : List Field} {name : String} {default : Option Json} {format : Format}
      {old new : Json} (known : (name, default, format) ∈ fields) (edit : Edit format old new)
      (before after : List (String × Json)) :
      Edit (.record fields) (.obj (before ++ (name, old) :: after)) (.obj (before ++ (name, new) :: after))
  | inElement {format : Format} {old new : Json} (edit : Edit format old new) (before after : List Json) :
      Edit (.list format) (.arr (before ++ old :: after)) (.arr (before ++ new :: after))

/-- Any number of edits. -/
def Edited (format : Format) : Json → Json → Prop := Relation.ReflTransGen (Edit format)

end Formats

section Readings

variable {α β : Type}

/-- What the first reading gives, the second gives too. -/
def Settles (first second : Option α) : Prop := ∀ value, first = some value → second = some value

theorem Settles.refl (reading : Option α) : Settles reading reading := fun _ given => given

theorem Settles.bind {first second : Option α} {next next' : α → Option β} (settles : Settles first second)
    (rest : ∀ value, Settles (next value) (next' value)) : Settles (first >>= next) (second >>= next') := by
  intro result given
  obtain ⟨value, read, others⟩ := Option.bind_eq_some_iff.mp given
  exact Option.bind_eq_some_iff.mpr ⟨value, settles value read, rest value result others⟩

/-- An edit of a value that can be read does not change what it is read as. -/
def Keeps (format : Format) (decode : Json → Option α) : Prop :=
  ∀ before after, Edit format before after → Settles (decode before) (decode after)

theorem keeps_plain (decode : Json → Option α) : Keeps .plain decode := by
  intro before after edit
  cases edit

theorem keeps_list {format : Format} {decode : Json → Option α} (keeps : Keeps format decode) :
    Keeps (.list format) (toList? decode) := by
  intro before after edit
  cases edit with
  | inElement edit earlier later =>
    rw [toList?, toList?, List.mapM_append, List.mapM_append, List.mapM_cons, List.mapM_cons]
    refine .bind (.refl _) fun _ => .bind (.bind ?_ fun _ => .refl _) fun _ => .refl _
    exact keeps _ _ edit

theorem keeps_nullable {fields : List Field} {decode : Json → Option α} (keeps : Keeps (.record fields) decode) :
    Keeps (.record fields) (nullable decode) := by
  intro before after edit value given
  obtain ⟨earlier, rfl⟩ : ∃ earlier, before = .obj earlier := by cases edit <;> exact ⟨_, rfl⟩
  obtain ⟨later, rfl⟩ : ∃ later, after = .obj later := by cases edit <;> exact ⟨_, rfl⟩
  obtain ⟨read, found, rfl⟩ := Option.map_eq_some_iff.mp given
  exact Option.map_eq_some_iff.mpr ⟨read, keeps _ _ edit read found, rfl⟩

/-- What an edit may do to a single field: it takes it away if it has its default, or edits its value. -/
inductive SlotEdit : Field → Option Json → Option Json → Prop where
  | kept (field : Field) (slot : Option Json) : SlotEdit field slot slot
  | leftOut (name : String) (default : Json) (format : Format) :
      SlotEdit (name, some default, format) (some default) none
  | edited {format : Format} {old new : Json} (name : String) (default : Option Json)
      (edit : Edit format old new) : SlotEdit (name, default, format) (some old) (some new)

theorem required_settles {format : Format} {decode : Json → Option α} {name : String}
    {slot later : Option Json} (keeps : Keeps format decode) (edit : SlotEdit (must name format) slot later) :
    Settles (required decode slot) (required decode later) := by
  cases edit with
  | kept => exact .refl _
  | edited _ _ edit => exact keeps _ _ edit

theorem withDefault_settles {format : Format} {decode : Json → Option α} {name : String} {written : Json}
    {slot later : Option Json} {default : α} (reads : decode written = some default)
    (keeps : Keeps format decode) (edit : SlotEdit (may name written format) slot later) :
    Settles (withDefault default decode slot) (withDefault default decode later) := by
  cases edit with
  | kept => exact .refl _
  | leftOut =>
    intro value given
    exact reads.symm.trans given
  | edited _ _ edit => exact keeps _ _ edit

/-- A value without parts that must be given. -/
theorem given_settles {decode : Json → Option α} {name : String} {slot later : Option Json}
    (edit : SlotEdit (must name) slot later) : Settles (required decode slot) (required decode later) :=
  required_settles (keeps_plain decode) edit

/-- A value without parts that may be left out. -/
theorem optional_settles {decode : Json → Option α} {name : String} {written : Json} {slot later : Option Json}
    {default : α} (reads : decode written = some default) (edit : SlotEdit (may name written) slot later) :
    Settles (withDefault default decode slot) (withDefault default decode later) :=
  withDefault_settles reads (keeps_plain decode) edit

end Readings

section Records

/-- The edits of the fields of a record, one by one. -/
inductive SlotEdits : List Field → List (Option Json) → List (Option Json) → Prop where
  | nil : SlotEdits [] [] []
  | cons {field : Field} {fields : List Field} {slot later : Option Json}
      {slots laterSlots : List (Option Json)} (edit : SlotEdit field slot later)
      (edits : SlotEdits fields slots laterSlots) :
      SlotEdits (field :: fields) (slot :: slots) (later :: laterSlots)

def schemaOf (fields : List Field) : Schema := fields.map fun field => [field.1]

/-- The values of the fields with the name. -/
def named (name : String) (fields : List (String × Json)) : List Json :=
  (fields.filter fun entry => [name].contains entry.1).map (·.2)

theorem named_append (name : String) (first last : List (String × Json)) :
    named name (first ++ last) = named name first ++ named name last := by
  rw [named, List.filter_append, List.map_append]
  rfl

theorem named_cons_self (name : String) (value : Json) (fields : List (String × Json)) :
    named name ((name, value) :: fields) = value :: named name fields := by
  simp [named]

theorem named_cons_of_ne {name other : String} (different : other ≠ name) (value : Json)
    (fields : List (String × Json)) : named name ((other, value) :: fields) = named name fields := by
  simp [named, different]

/-- A field of an object can be read if it is given at most once. -/
theorem field_eq_some_iff {fields : List (String × Json)} {name : String} {slot : Option Json} :
    Json.field fields [name] = some slot ↔ named name fields = slot.toList := by
  rw [Json.field]
  split
  · next absent =>
    have nowhere : named name fields = [] := congrArg (List.map Prod.snd) absent
    cases slot <;> simp [nowhere]
  · next other value single =>
    have once : named name fields = [value] := congrArg (List.map Prod.snd) single
    cases slot <;> simp [once]
  · next absent single =>
    refine iff_of_false (by simp) fun listed => ?_
    have few : (named name fields).length ≤ 1 := by
      rw [listed]
      cases slot <;> simp
    rw [named, List.length_map] at few
    rcases Nat.le_one_iff_eq_zero_or_eq_one.mp few with zero | one
    · exact absent (List.length_eq_zero_iff.mp zero)
    · obtain ⟨⟨other, value⟩, alone⟩ := List.length_eq_one_iff.mp one
      exact single other value alone

/-- A name that occurs once in a list occurs nowhere but at the place singled out. -/
theorem named_single {name : String} {value : Json} {before after : List (String × Json)}
    {slot : Option Json} (single : named name (before ++ (name, value) :: after) = slot.toList) :
    slot = some value ∧ named name before = [] ∧ named name after = [] := by
  rw [named_append, named_cons_self] at single
  cases slot with
  | none => simp at single
  | some found =>
    rcases List.append_eq_singleton_iff.mp single with ⟨none, same⟩ | ⟨_, impossible⟩
    · obtain ⟨rfl, noneToo⟩ := List.cons.inj same
      exact ⟨rfl, none, noneToo⟩
    · cases impossible

theorem slot_edit {fields : List Field} (distinct : (fields.map (·.1)).Nodup)
    {before after : List (String × Json)} (edit : Edit (.record fields) (.obj before) (.obj after))
    {field : Field} (member : field ∈ fields) {slot : Option Json}
    (given : Json.field before [field.1] = some slot) :
    ∃ later, Json.field after [field.1] = some later ∧ SlotEdit field slot later := by
  rw [field_eq_some_iff] at given
  simp only [field_eq_some_iff]
  generalize whole : Json.obj before = old at edit
  generalize wholeAfter : Json.obj after = new at edit
  cases edit with
  | reorder same =>
    cases whole
    cases wholeAfter
    refine ⟨slot, ?_, .kept field slot⟩
    have permuted : (named field.1 before).Perm (named field.1 after) := (same.filter _).map _
    rw [given] at permuted
    cases slot with
    | none => exact (List.nil_perm.mp permuted)
    | some value => exact (List.singleton_perm.mp permuted).symm
  | @add _ name unknown value earlier later =>
    cases whole
    cases wholeAfter
    have different : name ≠ field.1 := by
      rintro rfl
      exact unknown (List.mem_map_of_mem member)
    refine ⟨slot, ?_, .kept field slot⟩
    rw [named_append, named_cons_of_ne different, ← named_append, given]
  | @leaveOut _ name default format known earlier later =>
    cases whole
    cases wholeAfter
    by_cases same : name = field.1
    · obtain rfl := List.inj_on_of_nodup_map distinct known member same
      obtain ⟨rfl, nowhere, nowhereToo⟩ := named_single given
      exact ⟨none, by rw [named_append, nowhere, nowhereToo]; rfl, .leftOut name default format⟩
    · refine ⟨slot, ?_, .kept field slot⟩
      rw [← given, named_append, named_append, named_cons_of_ne same]
  | @inField _ name default format old new known inner earlier later =>
    cases whole
    cases wholeAfter
    by_cases same : name = field.1
    · obtain rfl := List.inj_on_of_nodup_map distinct known member same
      obtain ⟨rfl, nowhere, nowhereToo⟩ := named_single given
      refine ⟨some new, ?_, .edited name default inner⟩
      rw [named_append, named_cons_self, nowhere, nowhereToo]
      rfl
    · refine ⟨slot, ?_, .kept field slot⟩
      rw [← given, named_append, named_append, named_cons_of_ne same, named_cons_of_ne same]

theorem mapM_field_edits {fields : List Field} {before after : List (String × Json)}
    (each : ∀ field ∈ fields, ∀ slot, Json.field before [field.1] = some slot →
      ∃ later, Json.field after [field.1] = some later ∧ SlotEdit field slot later)
    {given : List (Option Json)} (read : (schemaOf fields).mapM (Json.field before) = some given) :
    ∃ later, (schemaOf fields).mapM (Json.field after) = some later ∧ SlotEdits fields given later := by
  induction fields generalizing given with
  | nil =>
    cases read
    exact ⟨[], rfl, .nil⟩
  | cons field fields ih =>
    rw [schemaOf, List.map_cons, List.mapM_cons] at read
    obtain ⟨slot, found, rest⟩ := Option.bind_eq_some_iff.mp read
    obtain ⟨slots, others, joined⟩ := Option.bind_eq_some_iff.mp rest
    cases joined
    obtain ⟨later, foundToo, edit⟩ := each field List.mem_cons_self slot found
    obtain ⟨laterSlots, othersToo, edits⟩ := ih (fun field member => each field (.tail _ member)) others
    refine ⟨later :: laterSlots, ?_, .cons edit edits⟩
    rw [schemaOf, List.map_cons, List.mapM_cons, foundToo]
    exact Option.bind_eq_some_iff.mpr ⟨later, rfl, Option.bind_eq_some_iff.mpr ⟨laterSlots, othersToo, rfl⟩⟩

theorem slots_edits {fields : List Field} (distinct : (fields.map (·.1)).Nodup) {before after : Json}
    (edit : Edit (.record fields) before after) {given : List (Option Json)}
    (read : slots (schemaOf fields) before = some given) :
    ∃ later, slots (schemaOf fields) after = some later ∧ SlotEdits fields given later := by
  obtain ⟨old, rfl⟩ : ∃ old, before = .obj old := by cases edit <;> exact ⟨_, rfl⟩
  obtain ⟨new, rfl⟩ : ∃ new, after = .obj new := by cases edit <;> exact ⟨_, rfl⟩
  exact mapM_field_edits (fun field member slot => slot_edit distinct edit member) read

/-- A record that is read from its slots is read the same if each slot is. -/
theorem keeps_record {α : Type} {fields : List Field} (schema : Schema) {decode : Json → Option α}
    (same : schemaOf fields = schema) (distinct : (fields.map (·.1)).Nodup)
    (fails : ∀ json, slots schema json = none → decode json = none)
    (settles : ∀ before after given later, slots schema before = some given →
      slots schema after = some later → SlotEdits fields given later → Settles (decode before) (decode after)) :
    Keeps (.record fields) decode := by
  subst same
  intro before after edit
  cases read : slots (schemaOf fields) before with
  | none =>
    rw [fails before read]
    intro value impossible
    cases impossible
  | some given =>
    obtain ⟨later, readToo, edits⟩ := slots_edits distinct edit read
    exact settles before after given later read readToo edits

end Records

section Programs

theorem keeps_file : Keeps (.record fileFields) SourceFile.ofJson := by
  refine keeps_record SourceFile.schema rfl (by decide) (fun json none => by rw [SourceFile.ofJson, none]) ?_
  intro before after given later read readToo edits
  obtain _ | ⟨name, _ | ⟨moduleSymbol, _ | ⟨statements, _ | _⟩⟩⟩ := edits
  rw [SourceFile.ofJson, SourceFile.ofJson, read, readToo]
  refine .bind (given_settles name) fun _ => ?_
  refine .bind (optional_settles rfl moduleSymbol) fun _ => ?_
  exact .bind (optional_settles rfl statements) fun _ => .refl _

theorem keeps_lineRange : Keeps (.record lineRangeFields) LineRange.ofJson := by
  refine keeps_record LineRange.schema rfl (by decide) (fun json none => by rw [LineRange.ofJson, none]) ?_
  intro before after given later read readToo edits
  obtain _ | ⟨start, _ | ⟨stop, _ | _⟩⟩ := edits
  rw [LineRange.ofJson, LineRange.ofJson, read, readToo]
  refine .bind (given_settles start) fun _ => ?_
  exact .bind (given_settles stop) fun _ => .refl _

theorem keeps_declaration : Keeps (.record declarationFields) Declaration.ofJson := by
  refine keeps_record Declaration.schema rfl (by decide) (fun json none => by rw [Declaration.ofJson, none]) ?_
  intro before after given later read readToo edits
  obtain _ | ⟨kind, _ | ⟨file, _ | ⟨name, _ | ⟨modifiers, _ | ⟨question, _ | ⟨rest, _ | ⟨annotated,
    _ | ⟨initializer, _ | ⟨typeParameters, _ | ⟨parameters, _ | ⟨members, _ | ⟨heritage, _ | ⟨body,
    _ | ⟨varKeyword, _ | ⟨returnsValue, _ | ⟨docComment, _ | ⟨lines, _ | ⟨symbol,
    _ | _⟩⟩⟩⟩⟩⟩⟩⟩⟩⟩⟩⟩⟩⟩⟩⟩⟩⟩ := edits
  rw [Declaration.ofJson, Declaration.ofJson, read, readToo]
  refine .bind (given_settles kind) fun _ => ?_
  refine .bind (given_settles file) fun _ => ?_
  refine .bind (given_settles name) fun _ => ?_
  refine .bind (optional_settles (by decide) modifiers) fun _ => ?_
  refine .bind (optional_settles rfl question) fun _ => ?_
  refine .bind (optional_settles rfl rest) fun _ => ?_
  refine .bind (optional_settles rfl annotated) fun _ => ?_
  refine .bind (optional_settles rfl initializer) fun _ => ?_
  refine .bind (optional_settles rfl typeParameters) fun _ => ?_
  refine .bind (optional_settles rfl parameters) fun _ => ?_
  refine .bind (optional_settles rfl members) fun _ => ?_
  refine .bind (optional_settles rfl heritage) fun _ => ?_
  refine .bind (optional_settles rfl body) fun _ => ?_
  refine .bind (optional_settles rfl varKeyword) fun _ => ?_
  refine .bind (optional_settles rfl returnsValue) fun _ => ?_
  refine .bind (optional_settles rfl docComment) fun _ => ?_
  refine .bind (withDefault_settles rfl (keeps_nullable keeps_lineRange) lines) fun _ => ?_
  exact .bind (optional_settles rfl symbol) fun _ => .refl _

theorem keeps_declarationEntry : Keeps (.record declarationEntryFields) Declaration.ofEntry := by
  refine keeps_record Declaration.entrySchema rfl (by decide)
    (fun json none => by rw [Declaration.ofEntry, none]) ?_
  intro before after given later read readToo edits
  obtain _ | ⟨decl, _ | ⟨inferredType, _ | ⟨inferredReturnType, _ | _⟩⟩⟩ := edits
  rw [Declaration.ofEntry, Declaration.ofEntry, read, readToo]
  refine .bind (required_settles keeps_declaration decl) fun _ => ?_
  refine .bind (optional_settles rfl inferredType) fun _ => ?_
  exact .bind (optional_settles rfl inferredReturnType) fun _ => .refl _

theorem keeps_symbol : Keeps (.record symbolFields) Symbol.ofJson := by
  refine keeps_record Symbol.schema rfl (by decide) (fun json none => by rw [Symbol.ofJson, none]) ?_
  intro before after given later read readToo edits
  obtain _ | ⟨name, _ | ⟨flags, _ | ⟨declarations, _ | ⟨parent, _ | _⟩⟩⟩⟩ := edits
  rw [Symbol.ofJson, Symbol.ofJson, read, readToo]
  refine .bind (given_settles name) fun _ => ?_
  refine .bind (given_settles flags) fun _ => ?_
  refine .bind (optional_settles rfl declarations) fun _ => ?_
  exact .bind (optional_settles rfl parent) fun _ => .refl _

theorem keeps_symbolEntry : Keeps (.record symbolEntryFields) Symbol.ofEntry := by
  refine keeps_record Symbol.entrySchema rfl (by decide) (fun json none => by rw [Symbol.ofEntry, none]) ?_
  intro before after given later read readToo edits
  obtain _ | ⟨symbol, _ | ⟨exports, _ | ⟨aliasOf, _ | _⟩⟩⟩ := edits
  rw [Symbol.ofEntry, Symbol.ofEntry, read, readToo]
  refine .bind (required_settles keeps_symbol symbol) fun _ => ?_
  refine .bind (optional_settles rfl exports) fun _ => ?_
  exact .bind (optional_settles rfl aliasOf) fun _ => .refl _

theorem keeps_program : Keeps (.record programFields) Program.ofJson := by
  refine keeps_record Program.schema rfl (by decide) (fun json none => by rw [Program.ofJson, none]) ?_
  intro before after given later read readToo edits
  obtain _ | ⟨files, _ | ⟨symbols, _ | ⟨declarations, _ | _⟩⟩⟩ := edits
  rw [Program.ofJson, Program.ofJson, read, readToo]
  refine .bind (withDefault_settles rfl (keeps_list keeps_file) files) fun _ => ?_
  refine .bind (withDefault_settles rfl (keeps_list keeps_symbolEntry) symbols) fun _ => ?_
  exact .bind (withDefault_settles rfl (keeps_list keeps_declarationEntry) declarations) fun _ => .refl _

/-- However a saved program is edited, it is read back from the edited value. -/
theorem ofJson_edited {program : Program} {json : Json}
    (edited : Edited (.record programFields) program.toJson json) : Program.ofJson json = some program := by
  induction edited with
  | refl => exact codes_program.reads program
  | tail _ edit ih => exact keeps_program _ _ edit program ih

/-- A program without a defect is loaded from every text of the edited value, and such texts exist: the
layouts of the writer are some, as long as what was added is exact. -/
theorem load_edited {program : Program} {json : Json} (sound : program.check = .ok ())
    (edited : Edited (.record programFields) program.toJson json) :
    (∀ text, Json.read text = some json → Program.load text = .ok program) ∧
      (Exact json → ∀ layout, Program.load (json.write layout) = .ok program) := by
  have loaded : ∀ text, Json.read text = some json → Program.load text = .ok program := by
    intro text written
    have form := ofJson_edited edited
    simp [Program.load, Program.accept, written, form, sound]
  exact ⟨loaded, fun exact layout => loaded _ (read_write exact layout)⟩

/-- A file and a class that takes its first three lines. -/
def page : Program where
  files := #[{ name := "a.ts" }]
  declarations := #[{ kind := .class_, file := ⟨0⟩, name := "C", lines := some ⟨1, 3⟩ }]

/-- The page without its symbols, the statements of its file and the modifiers of its class, with the bounds
of the lines exchanged and a version at the end. -/
def editedPage : Json :=
  .obj [
    ("files", .arr [.obj [("name", .str "a.ts"), ("module_symbol", .null)]]),
    ("declarations", .arr [.obj [
      ("decl", .obj [
        ("kind", .str "class"),
        ("file", .num 0),
        ("name", .str "C"),
        ("question", .bool false),
        ("rest", .bool false),
        ("type_annotation", .null),
        ("initializer", .null),
        ("type_parameters", .arr []),
        ("parameters", .arr []),
        ("members", .arr []),
        ("heritage", .arr []),
        ("body", .null),
        ("var_keyword", .null),
        ("returns_value", .bool false),
        ("doc_comment", .null),
        ("lines", .obj [("end", .num 3), ("start", .num 1)]),
        ("symbol", .null)]),
      ("inferred_type", .null),
      ("inferred_return_type", .null)]]),
    ("version", .num 2)]

theorem page_edited : Edited (.record programFields) page.toJson editedPage := by
  have files : programFields[0] ∈ programFields := List.getElem_mem _
  have symbols : programFields[1] ∈ programFields := List.getElem_mem _
  have declarations : programFields[2] ∈ programFields := List.getElem_mem _
  have decl : declarationEntryFields[0] ∈ declarationEntryFields := List.getElem_mem _
  have modifiers : declarationFields[3] ∈ declarationFields := List.getElem_mem _
  have lines : declarationFields[16] ∈ declarationFields := List.getElem_mem _
  have statements : fileFields[2] ∈ fileFields := List.getElem_mem _
  refine .head (.leaveOut symbols [_] [_]) ?_
  refine .head (.inField files (.inElement (.leaveOut statements [_, _] []) [] []) [] [_]) ?_
  refine .head (.inField declarations (.inElement
    (.inField decl (.leaveOut modifiers [_, _, _] _) [] [_, _]) [] []) [_] []) ?_
  refine .head (.inField declarations (.inElement
    (.inField decl (.inField lines (.reorder (.swap _ _ _)) [_, _, _, _, _, _, _, _, _, _, _, _, _, _, _] _)
      [] [_, _]) [] []) [_] []) ?_
  exact .single (.add (by decide) (.num 2) [_, _] [])

theorem exact_arr_iff {elements : List Json} : Exact (.arr elements) ↔ ∀ element ∈ elements, Exact element :=
  ⟨fun | .arr each => each, .arr⟩

theorem exact_obj_iff {fields : List (String × Json)} :
    Exact (.obj fields) ↔ ∀ field ∈ fields, Exact field.2 :=
  ⟨fun | .obj each => each, .obj⟩

theorem exact_editedPage : Exact editedPage := by
  simp [editedPage, exact_obj_iff, exact_arr_iff, Exact.null, Exact.bool, Exact.num, Exact.str]

theorem load_edited_page :
    page.check = .ok () ∧ Edited (.record programFields) page.toJson editedPage ∧
      Program.load (editedPage.write .compact) = .ok page := by
  have sound : page.check = .ok () := by decide
  have loaded := (load_edited sound page_edited).1
  exact ⟨sound, page_edited, loaded _ (read_write exact_editedPage .compact)⟩

end Programs

end ApiDocs.Proofs.SnapshotEdits
