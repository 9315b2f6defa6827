import ApiDocs.Program.Snapshot
import ApiDocs.Proofs.FlagWords
import ApiDocs.Proofs.JsonText
import Mathlib.Data.List.Nodup

/-! Saved programs. Every part of a program is read back from the value that is written for it, so
what is saved is loaded unchanged, or refused for the defect that it had before. -/

namespace ApiDocs.Proofs.Snapshots

open Json JsonText FlagWords

/-- What is written has an exact text and is read back. -/
structure Codes {α : Type} (encode : α → Json) (decode : Json → Option α) : Prop where
  reads : ∀ value, decode (encode value) = some value
  exact : ∀ value, Exact (encode value)

section Formats

variable {α : Type} {encode : α → Json} {decode : Json → Option α}

theorem codes_str : Codes Json.str toStr? := ⟨fun _ => rfl, .str⟩

theorem codes_bool : Codes Json.bool toBool? := ⟨fun _ => rfl, .bool⟩

theorem toWord?_ofWord (word : UInt32) : toWord? (ofWord word) = some word := by
  have small : word.toNat < UInt32.size := word.toNat_lt_size
  simp [toWord?, ofWord, small]

theorem codes_word : Codes ofWord toWord? := ⟨toWord?_ofWord, fun word => .num word.toNat⟩

/-- Ids of all tables are written as the words that they wrap. -/
theorem codes_wrapped {index : α → UInt32} {wrap : UInt32 → α} (same : ∀ id, wrap (index id) = id) :
    Codes (fun id => ofWord (index id)) (fun json => (toWord? json).map wrap) := by
  refine ⟨fun id => ?_, fun id => codes_word.exact (index id)⟩
  rw [toWord?_ofWord, Option.map_some, same]

theorem codes_fileId : Codes FileId.toJson FileId.ofJson := codes_wrapped fun _ => rfl

theorem codes_symbolId : Codes SymbolId.toJson SymbolId.ofJson := codes_wrapped fun _ => rfl

theorem codes_declId : Codes DeclId.toJson DeclId.ofJson := codes_wrapped fun _ => rfl

theorem codes_declKind :
    Codes (fun kind : DeclKind => Json.str kind.word) (toChoice? DeclKind.ofWord?) := by
  refine ⟨fun kind => ?_, fun kind => .str kind.word⟩
  cases kind <;> rfl

theorem codes_varKeyword :
    Codes (fun keyword : VarKeyword => Json.str keyword.word) (toChoice? VarKeyword.ofWord?) := by
  refine ⟨fun keyword => ?_, fun keyword => .str keyword.word⟩
  cases keyword <;> rfl

theorem codes_flags {width : Nat} {names : FlagText.Names width} (sound : WellNamed names) :
    Codes (fun word => Json.str (FlagText.write names word)) (flagsOfJson names) :=
  ⟨fun word => FlagWords.read_write sound word, fun word => .str (FlagText.write names word)⟩

theorem codes_list (codes : Codes encode decode) : Codes (ofList encode) (toList? decode) := by
  constructor
  · intro values
    have each : (values.map encode).mapM decode = some (values.map id) := by
      rw [List.mapM_map]
      exact mapM_eq_map fun value _ => codes.reads value
    rw [ofList, toList?, each, List.map_id]
  · intro values
    apply Exact.arr
    intro element member
    obtain ⟨value, _, rfl⟩ := List.mem_map.mp member
    exact codes.exact value

theorem codes_option (codes : Codes encode decode) (given : ∀ value, encode value ≠ .null) :
    Codes (ofOption encode) (nullable decode) := by
  constructor
  · intro value
    cases value with
    | none => rfl
    | some value =>
      rw [ofOption, nullable, codes.reads value]
      · rfl
      · exact given value
  · intro value
    cases value with
    | none => exact .null
    | some value => exact codes.exact value

theorem field_distinct {fields : List (String × Json)} (distinct : (fields.map (·.1)).Nodup)
    {entry : String × Json} (member : entry ∈ fields) :
    field fields [entry.1] = some (some entry.2) := by
  obtain ⟨before, behind, rfl⟩ := List.append_of_mem member
  simp only [List.map_append, List.map_cons, List.nodup_append, List.nodup_cons] at distinct
  obtain ⟨_, ⟨notBehind, _⟩, apart⟩ := distinct
  -- The name stands at one place only, so the look-up neither misses it nor finds it twice.
  have noneBefore : before.filter (fun other => [entry.1].contains other.1) = [] := by
    apply List.filter_eq_nil_iff.mpr
    intro other inside
    have different := apart other.1 (List.mem_map.mpr ⟨other, inside, rfl⟩) entry.1 List.mem_cons_self
    simpa using different
  have noneBehind : behind.filter (fun other => [entry.1].contains other.1) = [] := by
    apply List.filter_eq_nil_iff.mpr
    intro other inside
    have different : other.1 ≠ entry.1 := fun same => notBehind (List.mem_map.mpr ⟨other, inside, same⟩)
    simpa using different
  have only : (before ++ entry :: behind).filter (fun other => [entry.1].contains other.1) = [entry] := by
    rw [List.filter_append, List.filter_cons, noneBefore, noneBehind]
    simp
  rw [field, only]

/-- A record that is written as an object with all its fields has a value in every slot. -/
theorem slots_obj {schema : Schema} (distinct : schema.Nodup) {fields : List (String × Json)}
    (named : fields.map (fun entry => [entry.1]) = schema) :
    slots schema (.obj fields) = some (fields.map fun entry => some entry.2) := by
  subst named
  have names : (fields.map (·.1)).Nodup := by
    apply List.Nodup.of_map fun name => [name]
    simpa [Function.comp_def] using distinct
  rw [slots, List.mapM_map]
  exact mapM_eq_map fun entry member => field_distinct names member

end Formats

section Records

theorem codes_lineRange : Codes LineRange.toJson LineRange.ofJson := by
  have distinct : LineRange.schema.Nodup := by decide
  constructor
  · intro lines
    rw [LineRange.ofJson, LineRange.toJson, slots_obj distinct]
    · simp [required, toWord?_ofWord]
    · rfl
  · intro lines
    apply Exact.obj
    simp only [List.forall_mem_cons]
    exact ⟨codes_word.exact _, codes_word.exact _, by simp⟩

theorem codes_text : Codes (ofOption Json.str) (nullable toStr?) := codes_option codes_str (by simp)

theorem codes_texts : Codes ofStrs (toList? toStr?) := codes_list codes_str

theorem codes_symbol? : Codes (ofOption SymbolId.toJson) (nullable SymbolId.ofJson) :=
  codes_option codes_symbolId (by simp [SymbolId.toJson, ofWord])

theorem codes_symbols : Codes (ofList SymbolId.toJson) (toList? SymbolId.ofJson) :=
  codes_list codes_symbolId

theorem codes_decls : Codes (ofList DeclId.toJson) (toList? DeclId.ofJson) := codes_list codes_declId

theorem codes_varKeyword? :
    Codes (ofOption fun keyword : VarKeyword => Json.str keyword.word)
      (nullable (toChoice? VarKeyword.ofWord?)) :=
  codes_option codes_varKeyword (by simp)

theorem codes_lineRange? : Codes (ofOption LineRange.toJson) (nullable LineRange.ofJson) :=
  codes_option codes_lineRange (by simp [LineRange.toJson])

theorem declaration_ofJson_toJson (decl : Declaration) :
    Declaration.ofJson decl.toJson =
      some { decl with inferredType := none, inferredReturnType := none } := by
  have distinct : Declaration.schema.Nodup := by decide
  rw [Declaration.ofJson, Declaration.toJson, slots_obj distinct]
  · simp only [List.map_cons, List.map_nil, required, withDefault, Option.bind_eq_bind, Option.bind_some,
      codes_declKind.reads, codes_fileId.reads, codes_str.reads, (codes_flags wellNamed_modifiers).reads,
      codes_bool.reads, codes_text.reads, codes_texts.reads, codes_decls.reads, codes_symbol?.reads,
      codes_varKeyword?.reads, codes_lineRange?.reads]
    rfl
  · rfl

theorem exact_declaration (decl : Declaration) : Exact decl.toJson := by
  apply Exact.obj
  simp only [List.forall_mem_cons]
  exact ⟨.str _, codes_fileId.exact _, .str _, .str _, .bool _, .bool _, codes_text.exact _,
    codes_text.exact _, codes_texts.exact _, codes_decls.exact _, codes_decls.exact _,
    codes_texts.exact _, codes_symbol?.exact _, codes_varKeyword?.exact _, .bool _,
    codes_text.exact _, codes_lineRange?.exact _, codes_symbol?.exact _, by simp⟩

theorem codes_declaration : Codes Declaration.toEntry Declaration.ofEntry := by
  have distinct : Declaration.entrySchema.Nodup := by decide
  constructor
  · intro decl
    rw [Declaration.ofEntry, Declaration.toEntry, slots_obj distinct]
    · simp only [List.map_cons, List.map_nil, required, withDefault, Option.bind_eq_bind,
        Option.bind_some, declaration_ofJson_toJson, codes_text.reads]
      rfl
    · rfl
  · intro decl
    apply Exact.obj
    simp only [List.forall_mem_cons]
    exact ⟨exact_declaration decl, codes_text.exact _, codes_text.exact _, by simp⟩

theorem symbol_ofJson_toJson (symbol : Symbol) :
    Symbol.ofJson symbol.toJson = some { symbol with exports := [], aliasOf := none } := by
  have distinct : Symbol.schema.Nodup := by decide
  rw [Symbol.ofJson, Symbol.toJson, slots_obj distinct]
  · simp only [List.map_cons, List.map_nil, required, withDefault, Option.bind_eq_bind, Option.bind_some,
      codes_str.reads, (codes_flags wellNamed_symbolFlags).reads, codes_decls.reads, codes_symbol?.reads]
    rfl
  · rfl

theorem codes_symbol : Codes Symbol.toEntry Symbol.ofEntry := by
  have distinct : Symbol.entrySchema.Nodup := by decide
  constructor
  · intro symbol
    rw [Symbol.ofEntry, Symbol.toEntry, slots_obj distinct]
    · simp only [List.map_cons, List.map_nil, required, withDefault, Option.bind_eq_bind,
        Option.bind_some, symbol_ofJson_toJson, codes_symbols.reads, codes_symbol?.reads]
      rfl
    · rfl
  · intro symbol
    have alone : Exact symbol.toJson := by
      apply Exact.obj
      simp only [List.forall_mem_cons]
      exact ⟨.str _, .str _, codes_decls.exact _, codes_symbol?.exact _, by simp⟩
    apply Exact.obj
    simp only [List.forall_mem_cons]
    exact ⟨alone, codes_symbols.exact _, codes_symbol?.exact _, by simp⟩

theorem codes_file : Codes SourceFile.toJson SourceFile.ofJson := by
  have distinct : SourceFile.schema.Nodup := by decide
  constructor
  · intro file
    rw [SourceFile.ofJson, SourceFile.toJson, slots_obj distinct]
    · simp only [List.map_cons, List.map_nil, required, withDefault, Option.bind_eq_bind,
        Option.bind_some, codes_str.reads, codes_symbol?.reads, codes_symbols.reads]
      rfl
    · rfl
  · intro file
    apply Exact.obj
    simp only [List.forall_mem_cons]
    exact ⟨.str _, codes_symbol?.exact _, codes_symbols.exact _, by simp⟩

theorem codes_program : Codes Program.toJson Program.ofJson := by
  have distinct : Program.schema.Nodup := by decide
  have files := codes_list codes_file
  have symbols := codes_list codes_symbol
  have declarations := codes_list codes_declaration
  constructor
  · intro program
    rw [Program.ofJson, Program.toJson, slots_obj distinct]
    · simp only [List.map_cons, List.map_nil, withDefault, Option.bind_eq_bind, Option.bind_some,
        files.reads, symbols.reads, declarations.reads]
      rfl
    · rfl
  · intro program
    apply Exact.obj
    simp only [List.forall_mem_cons]
    exact ⟨files.exact _, symbols.exact _, declarations.exact _, by simp⟩

end Records

/-- What is loaded has passed the check. -/
theorem checked_of_load {text : String} {program : Program} (loaded : Program.load text = .ok program) :
    program.check = .ok () := by
  rw [Program.load, Program.accept] at loaded
  cases form : Json.read text >>= Program.ofJson with
  | none =>
    rw [form] at loaded
    cases loaded
  | some other =>
    cases checked : other.check with
    | error defect => simp [form, checked] at loaded
    | ok _ =>
      simp only [form, checked, Except.ok.injEq] at loaded
      rw [← loaded, checked]

/-- A program that was saved is loaded as it was if it passes the check, and is refused with the
defect that the check finds otherwise. -/
theorem load_save (program : Program) :
    Program.load program.save =
      match program.check with
      | .ok () => .ok program
      | .error defect => .error (.unsound defect) := by
  have text : Json.read program.save = some program.toJson :=
    JsonText.read_write (codes_program.exact program) .indented
  have form : Program.ofJson program.toJson = some program := codes_program.reads program
  cases checked : program.check with
  | ok _ => simp [Program.load, Program.accept, text, form, checked]
  | error defect => simp [Program.load, Program.accept, text, form, checked]

end ApiDocs.Proofs.Snapshots
