import ApiDocs.Proofs.Edits

/-! Calls of the builder. A call whose ids can be looked up returns, and it changes the program by
edits only. So does a sequence of calls in which every id is allocated before the call that uses it. -/

namespace ApiDocs.Proofs.BuilderCalls

open References Edits Build

/-- A call of the builder with its arguments. -/
inductive Call where
  | addFile (name : String)
  | addModuleFile (name : String)
  | addSymbol (name : String) (flags : SymbolFlags) (parent : Option SymbolId)
  | addDeclaration (symbol : Option SymbolId) (decl : Declaration)
  | declare (parent : Option SymbolId) (decl : Declaration)
  | mergeDeclaration (symbol : SymbolId) (decl : Declaration)
  | addMember (owner : DeclId) (decl : Declaration)
  | addParameter (callable : DeclId) (decl : Declaration)
  | addStatement (file : FileId) (symbol : SymbolId)
  | addExport (module export_ : SymbolId)
  | addAlias (module : SymbolId) (file : FileId) (name : String) (target : Option SymbolId)
  | setBody (decl : DeclId) (body : SymbolId)
  | setInferredType (decl : DeclId) (type : String)
  | setInferredReturnType (decl : DeclId) (type : String)
  deriving DecidableEq

namespace Call

def build : Call → Build Unit
  | addFile name => discard (Build.addFile name)
  | addModuleFile name => discard (Build.addModuleFile name)
  | addSymbol name flags parent => discard (Build.addSymbol name flags parent)
  | addDeclaration symbol decl => discard (Build.addDeclaration symbol decl)
  | declare parent decl => discard (Build.declare parent decl)
  | mergeDeclaration symbol decl => discard (Build.mergeDeclaration symbol decl)
  | addMember owner decl => discard (Build.addMember owner decl)
  | addParameter callable decl => discard (Build.addParameter callable decl)
  | addStatement file symbol => Build.addStatement file symbol
  | addExport module export_ => Build.addExport module export_
  | addAlias module file name target => discard (Build.addAlias module file name target)
  | setBody decl body => Build.setBody decl body
  | setInferredType decl type => Build.setInferredType decl type
  | setInferredReturnType decl type => Build.setInferredReturnType decl type

/-- All ids among the arguments, also those inside a declaration. The symbol that a declaration
names is no argument, as it is replaced. -/
def references : Call → List Reference
  | addFile _ | addModuleFile _ => []
  | addSymbol _ _ parent => parent.toList.map .symbol
  | addDeclaration symbol decl | declare symbol decl =>
    symbol.toList.map .symbol ++ (attached none decl).references
  | mergeDeclaration symbol decl => .symbol symbol :: (attached none decl).references
  | addMember owner decl => .decl owner :: (attached none decl).references
  | addParameter callable decl => .decl callable :: (attached none decl).references
  | addStatement file symbol => [.file file, .symbol symbol]
  | addExport module export_ => [.symbol module, .symbol export_]
  | addAlias module file _ target => .symbol module :: .file file :: target.toList.map .symbol
  | setBody decl body => [.decl decl, .symbol body]
  | setInferredType decl _ | setInferredReturnType decl _ => [.decl decl]

/-- The flags of the symbol that the call adds are allowed. -/
def Fits (allowed : SymbolFlags → Prop) : Call → Prop
  | addSymbol _ flags _ => allowed flags
  | _ => True

end Call

section Operations

variable {allowed : SymbolFlags → Prop} {program : Program} {name : String}
  {symbol module : SymbolId} {file : FileId} {parent : Option SymbolId} {decl : Declaration}

/-- What the declaration refers to by itself can be looked up. -/
def OwnHeld (program : Program) (decl : Declaration) : Prop :=
  ∀ reference ∈ (attached none decl).references, program.holds reference

theorem attached_held (own : OwnHeld program decl) (held : TargetHeld program parent) :
    ∀ reference ∈ (attached parent decl).references, program.holds reference := by
  intro reference listed
  rcases List.mem_append.mp listed with before | named
  · exact own reference (List.mem_append_left _ before)
  · obtain ⟨id, same, rfl⟩ := List.mem_map.mp named
    exact held id same

theorem edited_own {after : Program} (edits : Edited allowed program after)
    (own : OwnHeld program decl) : OwnHeld after decl :=
  fun reference listed => edits_hold edits (own reference listed)

theorem edited_target {after : Program} (edits : Edited allowed program after)
    (held : TargetHeld program parent) : TargetHeld after parent :=
  fun id same => edits_hold edits (held id same)

theorem declare_runs (empty : allowed 0) (held : TargetHeld program parent)
    (own : OwnHeld program decl) :
    Runs allowed program (declare parent decl) fun result after =>
      after.holds (.symbol result.1) ∧ after.holds (.decl result.2) := by
  refine (addSymbol_runs empty held).bind fun symbol between edits known => ?_
  refine (addDeclaration_runs (attached_held (edited_own edits own) (targetHeld_some.mpr known))).bind
    fun id after more stored => ?_
  exact .pure ⟨edits_hold more known, stored⟩

/-- A declaration without parameters, members and body refers to its file only. -/
theorem ownHeld_bare {kind : DeclKind} (held : program.holds (.file file)) :
    OwnHeld program { kind, file, name } := by
  intro reference listed
  simp only [attached, Declaration.references, List.map_nil, Option.toList_none, List.append_nil,
    List.mem_singleton] at listed
  rw [listed]
  exact held

theorem addModuleFile_runs (empty : allowed 0) (name : String) :
    Runs allowed program (addModuleFile name) fun _ _ => True := by
  refine (addFile_runs name).bind fun file second _ heldFile => ?_
  refine (addSymbol_runs empty targetHeld_none).bind fun symbol third edits held => ?_
  have knownFile := edits_hold edits heldFile
  refine Runs.bind
    (addDeclaration_runs (attached_held (ownHeld_bare knownFile) (targetHeld_some.mpr held)))
    fun _ fourth more _ => ?_
  have known := edits_hold more held
  refine Runs.bind (modifyFile_runs (edits_hold more knownFile) ?_) fun _ _ _ _ => .pure trivial
  intro entry reference listed
  simp only [SourceFile.references] at listed ⊢
  grind

/-- The symbol of a stored declaration can be looked up. -/
theorem symbol_held (closed : Closed program) {id : DeclId} {entry : Declaration}
    (found : program.declaration id = .ok entry) : TargetHeld program entry.symbol := by
  intro owner bound
  apply closed
  apply mem_references.mpr
  refine .inr (.inr ⟨entry, Array.mem_of_getElem? (declaration_ok_iff.mp found), ?_⟩)
  exact List.mem_append_right _ (List.mem_map.mpr ⟨owner, bound, rfl⟩)

theorem addMember_runs (empty : allowed 0) (closed : Closed program) {owner : DeclId}
    (held : program.holds (.decl owner)) (own : OwnHeld program decl) :
    Runs allowed program (addMember owner decl) fun _ _ => True := by
  obtain ⟨entry, found, _⟩ := declaration_returns closed held
  refine .get (.ask found ?_)
  refine (declare_runs empty (symbol_held closed found) own).bind
    fun ⟨_, id⟩ after edits ⟨_, stored⟩ => ?_
  refine Runs.bind (modifyDeclaration_runs (edits_hold edits held) (fun _ => ⟨rfl, rfl⟩) ?_)
    fun _ _ _ _ => .pure trivial
  intro entry reference listed
  simp only [Declaration.references] at listed ⊢
  grind

theorem addParameter_runs {callable : DeclId} (held : program.holds (.decl callable))
    (own : OwnHeld program decl) :
    Runs allowed program (addParameter callable decl) fun _ _ => True := by
  refine (addDeclaration_runs own).bind fun id after edits stored => ?_
  refine Runs.bind (modifyDeclaration_runs (edits_hold edits held) (fun _ => ⟨rfl, rfl⟩) ?_)
    fun _ _ _ _ => .pure trivial
  intro entry reference listed
  simp only [Declaration.references] at listed ⊢
  grind

theorem addStatement_runs (heldFile : program.holds (.file file))
    (held : program.holds (.symbol symbol)) :
    Runs allowed program (addStatement file symbol) fun _ _ => True := by
  refine modifyFile_runs heldFile fun entry reference listed => ?_
  simp only [SourceFile.references] at listed ⊢
  grind

theorem addExport_runs (held : program.holds (.symbol module))
    (known : program.holds (.symbol symbol)) :
    Runs allowed program (addExport module symbol) fun _ _ => True := by
  refine modifySymbol_runs held (fun _ => ⟨rfl, rfl, rfl⟩) fun entry reference listed => ?_
  simp only [Symbol.references] at listed ⊢
  grind

theorem addAlias_runs (empty : allowed 0) {target : Option SymbolId}
    (held : program.holds (.symbol module)) (heldFile : program.holds (.file file)) (known : TargetHeld program target) :
    Runs allowed program (addAlias module file name target) fun _ _ => True := by
  refine (declare_runs empty (targetHeld_some.mpr held) (ownHeld_bare heldFile)).bind
    fun ⟨id, _⟩ between edits ⟨stored, _⟩ => ?_
  refine Runs.bind (modifySymbol_runs stored (fun _ => ⟨rfl, rfl, rfl⟩) ?_) fun _ after more _ => ?_
  · intro entry reference listed
    have aimed := edited_target edits known
    simp only [TargetHeld, SymbolsHeld, Symbol.references] at aimed listed ⊢
    grind
  · exact (addExport_runs (edits_hold (edits.trans more) held) (edits_hold more stored)).bind
      fun _ _ _ _ => .pure trivial

theorem setBody_runs {id : DeclId} (held : program.holds (.decl id))
    (known : program.holds (.symbol symbol)) :
    Runs allowed program (setBody id symbol) fun _ _ => True := by
  refine modifyDeclaration_runs held (fun _ => ⟨rfl, rfl⟩) fun entry reference listed => ?_
  simp only [Declaration.references] at listed ⊢
  grind

end Operations

section Sequences

variable {allowed : SymbolFlags → Prop} {program : Program}

theorem targetHeld_of_references {target : Option SymbolId}
    (held : ∀ reference ∈ target.toList.map .symbol, program.holds reference) :
    TargetHeld program target :=
  fun id inside => held _ (List.mem_map.mpr ⟨id, inside, rfl⟩)

theorem discard_runs {α : Type} {action : Build α} {post : α → Program → Prop}
    (runs : Runs allowed program action post) :
    Runs allowed program (discard action) fun _ _ => True := by
  obtain ⟨value, after, ran, edits, _⟩ := runs
  refine ⟨(), after, ?_, edits, trivial⟩
  exact run_bind ran fun _ => Pure.pure ()

/-- A call whose ids can be looked up returns, and what it does are edits. -/
theorem call_runs (empty : allowed 0) (closed : Closed program) {call : Call} (fits : call.Fits allowed)
    (held : ∀ reference ∈ call.references, program.holds reference) :
    Runs allowed program call.build fun _ _ => True := by
  cases call with
  | addFile name => exact discard_runs (addFile_runs name)
  | addModuleFile name => exact discard_runs (addModuleFile_runs empty name)
  | addSymbol name flags parent =>
    exact discard_runs (addSymbol_runs fits (targetHeld_of_references held))
  | addDeclaration symbol decl =>
    obtain ⟨known, own⟩ := List.forall_mem_append.mp held
    exact discard_runs (addDeclaration_runs (attached_held own (targetHeld_of_references known)))
  | declare parent decl =>
    obtain ⟨known, own⟩ := List.forall_mem_append.mp held
    exact discard_runs (declare_runs empty (targetHeld_of_references known) own)
  | mergeDeclaration symbol decl =>
    obtain ⟨known, own⟩ := List.forall_mem_cons.mp held
    exact discard_runs (addDeclaration_runs (attached_held own (targetHeld_some.mpr known)))
  | addMember owner decl =>
    obtain ⟨known, own⟩ := List.forall_mem_cons.mp held
    exact discard_runs (addMember_runs empty closed known own)
  | addParameter callable decl =>
    obtain ⟨known, own⟩ := List.forall_mem_cons.mp held
    exact discard_runs (addParameter_runs known own)
  | addStatement file symbol =>
    obtain ⟨heldFile, known⟩ := List.forall_mem_cons.mp held
    exact addStatement_runs heldFile (known _ List.mem_cons_self)
  | addExport module export_ =>
    obtain ⟨heldModule, known⟩ := List.forall_mem_cons.mp held
    exact addExport_runs heldModule (known _ List.mem_cons_self)
  | addAlias module file name target =>
    obtain ⟨heldModule, rest⟩ := List.forall_mem_cons.mp held
    obtain ⟨heldFile, known⟩ := List.forall_mem_cons.mp rest
    exact discard_runs (addAlias_runs empty heldModule heldFile (targetHeld_of_references known))
  | setBody decl body =>
    obtain ⟨heldDecl, known⟩ := List.forall_mem_cons.mp held
    exact setBody_runs heldDecl (known _ List.mem_cons_self)
  | setInferredType decl type | setInferredReturnType decl type =>
    exact modifyDeclaration_runs (held _ List.mem_cons_self) (fun _ => ⟨rfl, rfl⟩)
      fun _ _ listed => .inl listed

/-- Every id among the arguments is allocated before the call that has it. -/
def Allocated (program : Program) : List Call → Prop
  | [] => True
  | call :: calls => (∀ reference ∈ call.references, program.holds reference) ∧
      Allocated (call.build.run.run program).2 calls

instance Allocated.decidable : (program : Program) → (calls : List Call) →
    Decidable (Allocated program calls)
  | _, [] => isTrue trivial
  | program, call :: calls =>
    have := Allocated.decidable (call.build.run.run program).2 calls
    inferInstanceAs (Decidable (_ ∧ _))

def buildAll (calls : List Call) : Build Unit := calls.forM Call.build

/-- A sequence of calls returns, and what it does are edits. -/
theorem buildAll_runs (empty : allowed 0) (closed : Closed program) {calls : List Call}
    (fits : ∀ call ∈ calls, call.Fits allowed) (allocated : Allocated program calls) :
    Runs allowed program (buildAll calls) fun _ _ => True := by
  induction calls generalizing program with
  | nil => exact .pure trivial
  | cons call calls ih =>
    obtain ⟨held, later⟩ := allocated
    obtain ⟨fitsFirst, fitsRest⟩ := List.forall_mem_cons.mp fits
    obtain ⟨_, middle, ran, edits, _⟩ := call_runs empty closed fitsFirst held
    rw [ran] at later
    obtain ⟨_, after, ranOn, editsOn, _⟩ := ih (edited_closed edits closed) fitsRest later
    refine ⟨(), after, ?_, edits.trans editsOn, trivial⟩
    exact (run_bind ran _).trans ranOn

end Sequences

end ApiDocs.Proofs.BuilderCalls
