import ApiDocs.Program.Builder
import ApiDocs.Proofs.References
import Mathlib.Logic.Relation

/-! Edits of programs. All that the builder does comes down to adding an entry to a table and to
changing an entry so that it refers to more. Nothing is taken away, so what could be looked up before
can be looked up afterwards. -/

namespace ApiDocs.Proofs.Edits

open References Build

/-- The declaration as it is stored for the symbol that it binds. -/
def attached (symbol : Option SymbolId) (decl : Declaration) : Declaration :=
  { decl with symbol, inferredType := none, inferredReturnType := none }

/-- The id of the next declaration. -/
def nextDecl (program : Program) : DeclId := ⟨UInt32.ofNat program.declarations.size⟩

/-- The symbol with one more declaration, whose flags it gains. -/
def boundBy (id : DeclId) (decl : Declaration) (entry : Symbol) : Symbol :=
  { entry with flags := entry.flags ||| decl.symbolFlags, declarations := entry.declarations ++ [id] }

/-- The program with one more declaration, of which its symbol knows. -/
def attach (program : Program) (symbol : Option SymbolId) (decl : Declaration) : Program where
  files := program.files
  symbols := match symbol with
    | none => program.symbols
    | some owner => program.symbols.modify owner.index.toNat (boundBy (nextDecl program) decl)
  declarations := program.declarations.push (attached symbol decl)

/-- Whatever an entry refers to after a change, it did before or it can be looked up. -/
def Grounded (program : Program) (before after : List Reference) : Prop :=
  ∀ reference ∈ after, reference ∈ before ∨ program.holds reference

/-- One edit. New symbols have flags that are allowed; flags and declarations of a symbol change
with a new declaration only, and its parent never changes. -/
inductive Edit (allowed : SymbolFlags → Prop) (program : Program) : Program → Prop where
  | file (name : String) : Edit allowed program { program with files := program.files.push { name } }
  | symbol (name : String) {flags : SymbolFlags} (fits : allowed flags) {parent : Option SymbolId}
      (held : TargetHeld program parent) :
      Edit allowed program { program with symbols := program.symbols.push { name, flags, parent } }
  | declaration (symbol : Option SymbolId) (decl : Declaration)
      (held : ∀ reference ∈ (attached symbol decl).references, program.holds reference) :
      Edit allowed program (attach program symbol decl)
  | changeFile (index : Nat) (change : SourceFile → SourceFile)
      (grounded : ∀ entry, Grounded program entry.references (change entry).references) :
      Edit allowed program { program with files := program.files.modify index change }
  | changeSymbol (index : Nat) (change : Symbol → Symbol)
      (keeps : ∀ entry, (change entry).flags = entry.flags ∧
        (change entry).declarations = entry.declarations ∧ (change entry).parent = entry.parent)
      (grounded : ∀ entry, Grounded program entry.references (change entry).references) :
      Edit allowed program { program with symbols := program.symbols.modify index change }
  | changeDeclaration (index : Nat) (change : Declaration → Declaration)
      (keeps : ∀ entry, (change entry).symbol = entry.symbol ∧
        (change entry).symbolFlags = entry.symbolFlags)
      (grounded : ∀ entry, Grounded program entry.references (change entry).references) :
      Edit allowed program { program with declarations := program.declarations.modify index change }

/-- The program comes from the other one by edits. -/
abbrev Edited (allowed : SymbolFlags → Prop) : Program → Program → Prop :=
  Relation.ReflTransGen (Edit allowed)

section References

variable {allowed : SymbolFlags → Prop} {program after : Program}

theorem size_attach_symbols (program : Program) (symbol : Option SymbolId) (decl : Declaration) :
    (attach program symbol decl).symbols.size = program.symbols.size := by
  cases symbol with
  | none => rfl
  | some owner => simp [attach]

theorem Edit.size_le (edit : Edit allowed program after) (table : Table) :
    program.size table ≤ after.size table := by
  cases edit with
  | declaration symbol decl held =>
    cases table with
    | file => exact Nat.le_refl _
    | symbol => exact Nat.le_of_eq (size_attach_symbols program symbol decl).symm
    | declaration => simp [Program.size, attach]
  | _ => cases table <;> simp [Program.size]

theorem Edit.holds (edit : Edit allowed program after) {reference : Reference}
    (held : program.holds reference) : after.holds reference := by
  have wider := edit.size_le reference.table
  have inside := of_decide_eq_true held
  exact decide_eq_true (Nat.lt_of_lt_of_le inside wider)

/-- What every edit keeps, edits keep. -/
theorem edited_keeps (invariant : Program → Prop) (edits : Edited allowed program after)
    (step : ∀ before next, Edit allowed before next → invariant before → invariant next)
    (start : invariant program) : invariant after := by
  induction edits with
  | refl => exact start
  | tail _ edit ih => exact step _ _ edit ih

theorem edits_hold (edits : Edited allowed program after) {reference : Reference}
    (held : program.holds reference) : after.holds reference :=
  edited_keeps (·.holds reference) edits (fun _ _ edit => edit.holds) held

/-- A change of one entry, read backwards. -/
theorem getElem?_modify_cases {α : Type} {entries : Array α} {index place : Nat} {change : α → α}
    {entry : α} (found : (entries.modify index change)[place]? = some entry) :
    ∃ old, entries[place]? = some old ∧ (entry = change old ∨ entry = old) := by
  rw [Array.getElem?_modify] at found
  split at found
  · obtain ⟨old, there, rfl⟩ := Option.map_eq_some_iff.mp found
    exact ⟨old, there, .inl rfl⟩
  · exact ⟨entry, found, .inr rfl⟩

theorem mem_modify {α : Type} {entries : Array α} {index : Nat} {change : α → α} {entry : α}
    (member : entry ∈ entries.modify index change) :
    ∃ old ∈ entries, entry = change old ∨ entry = old := by
  obtain ⟨place, found⟩ := Array.getElem?_of_mem member
  obtain ⟨old, there, same⟩ := getElem?_modify_cases found
  exact ⟨old, Array.mem_of_getElem? there, same⟩

/-- A reference in the changed table is one of the old table or can be looked up. -/
theorem mem_modify_references {α : Type} {entries : Array α} {index : Nat} {change : α → α}
    {references : α → List Reference}
    (grounded : ∀ entry, Grounded program (references entry) (references (change entry)))
    {entry : α} (member : entry ∈ entries.modify index change) {reference : Reference}
    (listed : reference ∈ references entry) :
    (∃ old ∈ entries, reference ∈ references old) ∨ program.holds reference := by
  obtain ⟨old, inside, rfl | rfl⟩ := mem_modify member
  · exact (grounded old reference listed).imp (fun before => ⟨old, inside, before⟩) id
  · exact .inl ⟨entry, inside, listed⟩

theorem holds_of_size (table : Table) {index : Nat} (inside : index < program.size table) :
    program.holds ⟨table, UInt32.ofNat index⟩ := by
  apply decide_eq_true
  rw [UInt32.toNat_ofNat']
  exact Nat.lt_of_le_of_lt (Nat.mod_le _ _) inside

theorem grounded_boundBy (program : Program) (symbol : Option SymbolId) (decl : Declaration)
    (entry : Symbol) :
    Grounded (attach program symbol decl) entry.references
      (boundBy (nextDecl program) decl entry).references := by
  intro reference own
  have stored : (attach program symbol decl).holds (.decl (nextDecl program)) :=
    holds_of_size .declaration (by simp [Program.size, attach])
  simp only [Symbol.references, boundBy, List.map_append, List.mem_append, List.map_cons,
    List.map_nil, List.mem_singleton] at own ⊢
  rcases own with (((own | rfl) | own) | own) | own
  · exact .inl (.inl (.inl (.inl own)))
  · exact .inr stored
  · exact .inl (.inl (.inl (.inr own)))
  · exact .inl (.inl (.inr own))
  · exact .inl (.inr own)

/-- A reference after an edit is an old one or can be looked up. -/
theorem Edit.references (edit : Edit allowed program after) {reference : Reference}
    (listed : reference ∈ after.references) : reference ∈ program.references ∨ after.holds reference := by
  have wider := fun held : program.holds reference => edit.holds held
  rw [mem_references] at listed ⊢
  cases edit with
  | file name =>
    rcases listed with ⟨file, member, own⟩ | rest
    · rcases Array.mem_push.mp member with member | rfl
      · exact .inl (.inl ⟨file, member, own⟩)
      · simp [SourceFile.references] at own
    · exact .inl (.inr rest)
  | @symbol name flags fits parent held =>
    rcases listed with files | ⟨symbol, member, own⟩ | decls
    · exact .inl (.inl files)
    · rcases Array.mem_push.mp member with member | rfl
      · exact .inl (.inr (.inl ⟨symbol, member, own⟩))
      · simp only [Symbol.references, List.map_nil, List.nil_append, Option.toList_none,
          List.append_nil, List.mem_map] at own
        obtain ⟨id, isParent, rfl⟩ := own
        exact .inr (wider (held id isParent))
    · exact .inl (.inr (.inr decls))
  | declaration symbol decl held =>
    rcases listed with files | ⟨entry, member, own⟩ | ⟨entry, member, own⟩
    · exact .inl (.inl files)
    · cases symbol with
      | none => exact .inl (.inr (.inl ⟨entry, member, own⟩))
      | some owner =>
        exact (mem_modify_references (grounded_boundBy _ _ decl) member own).imp (.inr ∘ .inl) id
    · rcases Array.mem_push.mp member with member | rfl
      · exact .inl (.inr (.inr ⟨entry, member, own⟩))
      · exact .inr (wider (held reference own))
  | changeFile index change grounded =>
    rcases listed with ⟨file, member, own⟩ | rest
    · exact (mem_modify_references grounded member own).imp .inl wider
    · exact .inl (.inr rest)
  | changeSymbol index change keeps grounded =>
    rcases listed with files | ⟨symbol, member, own⟩ | decls
    · exact .inl (.inl files)
    · exact (mem_modify_references grounded member own).imp (.inr ∘ .inl) wider
    · exact .inl (.inr (.inr decls))
  | changeDeclaration index change keeps grounded =>
    rcases listed with files | symbols | ⟨decl, member, own⟩
    · exact .inl (.inl files)
    · exact .inl (.inr (.inl symbols))
    · exact (mem_modify_references grounded member own).imp (.inr ∘ .inr) wider

theorem Edit.closed (edit : Edit allowed program after) (closed : Closed program) : Closed after := by
  intro reference listed
  obtain old | held := edit.references listed
  · exact edit.holds (closed reference old)
  · exact held

theorem edited_closed (edits : Edited allowed program after) (closed : Closed program) :
    Closed after :=
  edited_keeps Closed edits (fun _ _ edit => edit.closed) closed

end References

section Runs

variable {allowed : SymbolFlags → Prop} {program after : Program} {α β : Type}

/-- The operation returns, its edits are allowed, and its value and the program that it leaves meet
the postcondition. -/
def Runs (allowed : SymbolFlags → Prop) (program : Program) (action : Build α)
    (post : α → Program → Prop) : Prop :=
  ∃ value after, action.run.run program = (.ok value, after) ∧ Edited allowed program after ∧
    post value after

theorem Runs.pure {value : α} {post : α → Program → Prop} (holds : post value program) :
    Runs allowed program (Pure.pure value) post :=
  ⟨value, program, rfl, .refl, holds⟩

theorem run_get (next : Program → Build α) :
    (get >>= next : Build α).run.run program = (next program).run.run program := rfl

theorem run_bind {action : Build α} {value : α} (ran : action.run.run program = (.ok value, after))
    (next : α → Build β) : (action >>= next).run.run program = (next value).run.run after := by
  have joined : (action >>= next).run.run program =
      action.run.run program >>= fun result => (ExceptT.bindCont next result.1).run result.2 := rfl
  rw [joined, ran]
  rfl

theorem Runs.bind {action : Build α} {next : α → Build β} {post : α → Program → Prop}
    {result : β → Program → Prop} (first : Runs allowed program action post)
    (rest : ∀ value after, Edited allowed program after → post value after →
      Runs allowed after (next value) result) : Runs allowed program (action >>= next) result := by
  obtain ⟨value, middle, ran, edits, holds⟩ := first
  obtain ⟨last, after, ranOn, editsOn, done⟩ := rest value middle edits holds
  refine ⟨last, after, ?_, edits.trans editsOn, done⟩
  rw [run_bind ran]
  exact ranOn

/-- An operation may look at the program before it goes on. -/
theorem Runs.get {next : Program → Build α} {post : α → Program → Prop}
    (rest : Runs allowed program (next program) post) : Runs allowed program (get >>= next) post := rest

theorem Runs.ask {answer : Except Fault α} {value : α} {next : α → Build β}
    {post : β → Program → Prop} (found : answer = .ok value)
    (rest : Runs allowed program (next value) post) :
    Runs allowed program (ExceptT.mk (Pure.pure answer) >>= next) post := by
  rw [found]
  exact rest

theorem Runs.edit {action : Build α} {value : α} {post : α → Program → Prop}
    (ran : action.run.run program = (.ok value, after)) (edit : Edit allowed program after)
    (holds : post value after) : Runs allowed program action post :=
  ⟨value, after, ran, .single edit, holds⟩

section Tables

variable {file : FileId} {symbol : SymbolId} {decl : DeclId}

theorem modifyFile_runs {change : SourceFile → SourceFile} (held : program.holds (.file file))
    (grounded : ∀ entry, Grounded program entry.references (change entry).references) :
    Runs allowed program (modifyFile file change) fun _ _ => True := by
  have inside : file.index.toNat < program.files.size := of_decide_eq_true held
  have ran : (modifyFile file change).run.run program =
      (.ok (), { program with files := program.files.modify file.index.toNat change }) := by
    rw [modifyFile, run_get, if_pos inside]
    rfl
  exact .edit ran (.changeFile _ change grounded) trivial

theorem modifySymbol_run (held : program.holds (.symbol symbol)) (change : Symbol → Symbol) :
    (modifySymbol symbol change).run.run program =
      (.ok (), { program with symbols := program.symbols.modify symbol.index.toNat change }) := by
  have inside : symbol.index.toNat < program.symbols.size := of_decide_eq_true held
  rw [modifySymbol, run_get, if_pos inside]
  rfl

theorem modifySymbol_runs {change : Symbol → Symbol} (held : program.holds (.symbol symbol))
    (keeps : ∀ entry, (change entry).flags = entry.flags ∧
      (change entry).declarations = entry.declarations ∧ (change entry).parent = entry.parent)
    (grounded : ∀ entry, Grounded program entry.references (change entry).references) :
    Runs allowed program (modifySymbol symbol change) fun _ _ => True :=
  .edit (modifySymbol_run held change) (.changeSymbol _ change keeps grounded) trivial

theorem modifyDeclaration_runs {change : Declaration → Declaration} (held : program.holds (.decl decl))
    (keeps : ∀ entry, (change entry).symbol = entry.symbol ∧
      (change entry).symbolFlags = entry.symbolFlags)
    (grounded : ∀ entry, Grounded program entry.references (change entry).references) :
    Runs allowed program (modifyDeclaration decl change) fun _ _ => True := by
  have inside : decl.index.toNat < program.declarations.size := of_decide_eq_true held
  have ran : (modifyDeclaration decl change).run.run program =
      (.ok (), { program with
        declarations := program.declarations.modify decl.index.toNat change }) := by
    rw [modifyDeclaration, run_get, if_pos inside]
    rfl
  exact .edit ran (.changeDeclaration _ change keeps grounded) trivial

end Tables

section Operations

variable {name : String} {parent : Option SymbolId} {decl : Declaration}

theorem addFile_runs (name : String) :
    Runs allowed program (addFile name) fun id after => after.holds (.file id) := by
  refine .edit rfl (.file name) ?_
  exact holds_of_size .file (by simp [Program.size])

theorem addSymbol_runs {flags : SymbolFlags} (fits : allowed flags) (held : TargetHeld program parent) :
    Runs allowed program (addSymbol name flags parent) fun id after => after.holds (.symbol id) := by
  refine .edit rfl (.symbol name fits held) ?_
  exact holds_of_size .symbol (by simp [Program.size])

theorem addDeclaration_runs {symbol : Option SymbolId}
    (held : ∀ reference ∈ (attached symbol decl).references, program.holds reference) :
    Runs allowed program (addDeclaration symbol decl) fun id after => after.holds (.decl id) := by
  have ran : (addDeclaration symbol decl).run.run program =
      (.ok (nextDecl program), attach program symbol decl) := by
    cases symbol with
    | none => rfl
    | some owner =>
      have known : program.holds (.symbol owner) :=
        held (.symbol owner) (by simp [Declaration.references, attached])
      rw [addDeclaration, run_get]
      exact run_bind (modifySymbol_run known _) _
  refine .edit ran (.declaration symbol decl held) ?_
  exact holds_of_size .declaration (by simp [Program.size, attach])

end Operations

end Runs

end ApiDocs.Proofs.Edits
