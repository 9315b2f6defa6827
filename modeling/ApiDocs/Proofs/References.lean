import ApiDocs.Extraction
import ApiDocs.Program.Validity
import ApiDocs.Proofs.Trails

/-! Stored indices. In a program that passes its check every look-up of a stored index finds an entry
whose indices can be looked up in turn, so collecting, naming and walking modules always return. -/

namespace ApiDocs.Proofs.References

open Trails

theorem mem_references {program : Program} {reference : Reference} :
    reference ∈ program.references ↔
      (∃ file ∈ program.files, reference ∈ file.references) ∨
        (∃ symbol ∈ program.symbols, reference ∈ symbol.references) ∨
        ∃ decl ∈ program.declarations, reference ∈ decl.references := by
  simp [Program.references]

/-- Every stored index points into its table. -/
def Closed (program : Program) : Prop :=
  ∀ reference ∈ program.references, program.holds reference

theorem closed_iff_find? {program : Program} :
    Closed program ↔ program.references.find? (!program.holds ·) = none := by
  simp [Closed]

theorem closed_of_check {program : Program} (accepted : program.check = .ok ()) : Closed program := by
  unfold Program.check at accepted
  split at accepted
  · cases accepted
  next clean => exact closed_iff_find?.mpr clean

def SymbolsHeld (program : Program) (ids : List SymbolId) : Prop :=
  ∀ id ∈ ids, program.holds (.symbol id)

def DeclsHeld (program : Program) (ids : List DeclId) : Prop :=
  ∀ id ∈ ids, program.holds (.decl id)

/-- The symbol can be looked up, if there is one. -/
def TargetHeld (program : Program) (target : Option SymbolId) : Prop :=
  SymbolsHeld program target.toList

@[simp] theorem targetHeld_none {program : Program} : TargetHeld program none := by
  simp [TargetHeld, SymbolsHeld]

@[simp] theorem targetHeld_some {program : Program} {id : SymbolId} :
    TargetHeld program (some id) ↔ program.holds (.symbol id) := by
  simp [TargetHeld, SymbolsHeld]

structure FileHeld (program : Program) (file : SourceFile) : Prop where
  module : TargetHeld program file.moduleSymbol
  statements : SymbolsHeld program file.statements

structure SymbolHeld (program : Program) (symbol : Symbol) : Prop where
  declarations : DeclsHeld program symbol.declarations
  exports : SymbolsHeld program symbol.exports
  parent : TargetHeld program symbol.parent
  aliasOf : TargetHeld program symbol.aliasOf

structure DeclHeld (program : Program) (decl : Declaration) : Prop where
  file : program.holds (.file decl.file)
  parameters : DeclsHeld program decl.parameters
  members : DeclsHeld program decl.members
  body : TargetHeld program decl.body

section LookUps

variable {program : Program}

theorem file_ok_iff {id : FileId} {file : SourceFile} :
    program.file id = .ok file ↔ program.files[id.index.toNat]? = some file := by
  unfold Program.file
  split <;> simp_all

theorem symbol_ok_iff {id : SymbolId} {symbol : Symbol} :
    program.symbol id = .ok symbol ↔ program.symbols[id.index.toNat]? = some symbol := by
  unfold Program.symbol
  split <;> simp_all

theorem declaration_ok_iff {id : DeclId} {decl : Declaration} :
    program.declaration id = .ok decl ↔ program.declarations[id.index.toNat]? = some decl := by
  unfold Program.declaration
  split <;> simp_all

variable (closed : Closed program)

include closed

theorem file_returns {id : FileId} (held : program.holds (.file id)) :
    Returns (FileHeld program) (program.file id) := by
  have inside : id.index.toNat < program.files.size := of_decide_eq_true held
  have stored : ∀ reference ∈ program.files[id.index.toNat].references, program.holds reference := by
    intro reference member
    exact closed reference (mem_references.mpr (.inl ⟨_, Array.getElem_mem inside, member⟩))
  simp only [SourceFile.references, List.mem_append, List.mem_map] at stored
  refine ⟨program.files[id.index.toNat], by simp [Program.file, inside], ?_, ?_⟩
  · exact fun id member => stored _ (.inl ⟨id, member, rfl⟩)
  · exact fun id member => stored _ (.inr ⟨id, member, rfl⟩)

theorem symbol_returns {id : SymbolId} (held : program.holds (.symbol id)) :
    Returns (SymbolHeld program) (program.symbol id) := by
  have inside : id.index.toNat < program.symbols.size := of_decide_eq_true held
  have stored : ∀ reference ∈ program.symbols[id.index.toNat].references, program.holds reference := by
    intro reference member
    exact closed reference (mem_references.mpr (.inr (.inl ⟨_, Array.getElem_mem inside, member⟩)))
  simp only [Symbol.references, List.mem_append, List.mem_map] at stored
  refine ⟨program.symbols[id.index.toNat], by simp [Program.symbol, inside], ?_, ?_, ?_, ?_⟩
  · exact fun id member => stored _ (.inl (.inl (.inl ⟨id, member, rfl⟩)))
  · exact fun id member => stored _ (.inl (.inl (.inr ⟨id, member, rfl⟩)))
  · exact fun id member => stored _ (.inl (.inr ⟨id, member, rfl⟩))
  · exact fun id member => stored _ (.inr ⟨id, member, rfl⟩)

theorem declaration_returns {id : DeclId} (held : program.holds (.decl id)) :
    Returns (DeclHeld program) (program.declaration id) := by
  have inside : id.index.toNat < program.declarations.size := of_decide_eq_true held
  have stored : ∀ reference ∈ program.declarations[id.index.toNat].references,
      program.holds reference := by
    intro reference member
    exact closed reference (mem_references.mpr (.inr (.inr ⟨_, Array.getElem_mem inside, member⟩)))
  simp only [Declaration.references, List.cons_append, List.mem_cons, List.mem_append,
    List.mem_map] at stored
  refine ⟨program.declarations[id.index.toNat], by simp [Program.declaration, inside], ?_, ?_, ?_, ?_⟩
  · exact stored _ (.inl rfl)
  · exact fun id member => stored _ (.inr (.inl (.inl (.inl ⟨id, member, rfl⟩))))
  · exact fun id member => stored _ (.inr (.inl (.inl (.inr ⟨id, member, rfl⟩))))
  · exact fun id member => stored _ (.inr (.inl (.inr ⟨id, member, rfl⟩)))

/-- A trail of symbols returns if the symbols on the way lead to ones that can be looked up. -/
theorem trail_returns {next : Symbol → Except Fault (Option SymbolId)}
    (leads : ∀ symbol, SymbolHeld program symbol → Returns (TargetHeld program) (next symbol))
    {id : SymbolId} (held : program.holds (.symbol id)) :
    Returns (fun chain => ∀ pair ∈ chain, program.holds (.symbol pair.1) ∧ SymbolHeld program pair.2)
      (Trail.follow program.symbolSource next [] id) := by
  have step : ∀ id : SymbolId, program.holds (.symbol id) → Returns
      (fun symbol => Returns (fun successor => ∀ id, successor = some id → program.holds (.symbol id))
        (next symbol)) (program.symbolSource.get id) := by
    intro id held
    refine (symbol_returns closed held).weaken fun symbol _ inside => ?_
    refine (leads symbol inside).weaken fun successor _ good id same => ?_
    exact good id (by simp [same])
  refine (follow_returns (fun id => program.holds (.symbol id)) step [] id held).weaken ?_
  intro chain _ all pair member
  obtain ⟨held, found⟩ := all pair member
  obtain ⟨symbol, again, inside⟩ := symbol_returns closed held
  rw [show program.symbol pair.1 = .ok pair.2 from found] at again
  cases again
  exact ⟨held, inside⟩

end LookUps

section Modules

variable {program : Program} (closed : Closed program)

include closed

theorem resolveAlias_returns {id : SymbolId} (held : program.holds (.symbol id)) :
    Returns (TargetHeld program) (program.resolveAlias id) := by
  refine (trail_returns closed ?_ held).bind fun chain _ all => ?_
  · intro symbol inside
    refine .pure ?_
    split
    · exact inside.aliasOf
    · exact targetHeld_none
  split
  next last symbol ended =>
    refine .pure ?_
    split
    · exact targetHeld_none
    · exact targetHeld_some.mpr (all _ (List.mem_of_getLast? ended)).1
  · exact .pure targetHeld_none

theorem resolveExports_returns {id : SymbolId} (held : program.holds (.symbol id)) :
    Returns (fun exports => ∀ export_ ∈ exports, TargetHeld program export_.target)
      (program.resolveExports id) := by
  refine (symbol_returns closed held).bind fun symbol _ inside => .mapM fun id member => ?_
  refine (symbol_returns closed (inside.exports id member)).bind fun _ _ _ => ?_
  refine (resolveAlias_returns closed (inside.exports id member)).bind fun target _ known => ?_
  exact .pure known

theorem sourceFileName?_returns {ids : List DeclId} (held : DeclsHeld program ids) :
    Returns (fun _ => True) (program.sourceFileName? ids) := by
  induction ids with
  | nil => exact .pure trivial
  | cons id rest ih =>
    refine (declaration_returns closed (held id List.mem_cons_self)).bind fun decl _ inside => ?_
    split
    · exact (file_returns closed inside.file).bind fun _ _ _ => .pure trivial
    · exact ih fun id member => held id (List.mem_cons_of_mem _ member)

theorem nameOfModule_returns (base : String) {symbol : Symbol} (inside : SymbolHeld program symbol) :
    Returns (fun _ => True) (program.nameOfModule base symbol) := by
  refine (sourceFileName?_returns closed inside.declarations).bind fun name _ _ => ?_
  split <;> exact .pure trivial

theorem outerModule_returns {symbol : Symbol} (inside : SymbolHeld program symbol) :
    Returns (TargetHeld program) (program.outerModule symbol) := by
  refine (sourceFileName?_returns closed inside.declarations).bind fun name _ _ => ?_
  split
  · exact .pure targetHeld_none
  · exact .pure inside.parent

theorem moduleId_returns (base : String) {id : SymbolId} (held : program.holds (.symbol id)) :
    Returns (fun _ => True) (program.moduleId base id) := by
  refine (trail_returns closed (fun _ => outerModule_returns closed) held).bind fun chain _ all => ?_
  exact (Returns.mapM fun pair member => nameOfModule_returns closed base (all pair member).2).bind
    fun _ _ _ => .pure trivial

theorem nearestModule_returns {id : SymbolId} (held : program.holds (.symbol id)) :
    Returns (TargetHeld program) (program.nearestModule id) := by
  refine (trail_returns closed ?_ held).bind fun chain _ all => ?_
  · intro symbol inside
    refine .pure ?_
    split
    · exact targetHeld_none
    · exact inside.parent
  split
  next last symbol ended =>
    refine .pure ?_
    split
    · exact targetHeld_some.mpr (all _ (List.mem_of_getLast? ended)).1
    · exact targetHeld_none
  · exact .pure targetHeld_none

theorem moduleAround_returns {symbol : Symbol} (inside : SymbolHeld program symbol) :
    Returns (TargetHeld program) (program.moduleAround symbol) := by
  have held := inside.parent
  unfold Program.moduleAround
  split
  next parent same => exact nearestModule_returns closed (targetHeld_some.mp (same ▸ held))
  · exact .pure targetHeld_none

theorem fileModuleId?_returns (base : String) {symbol : Symbol} (inside : SymbolHeld program symbol) :
    Returns (fun _ => True) (program.fileModuleId? base symbol) := by
  have held := inside.declarations
  unfold Program.fileModuleId?
  split
  · exact .pure trivial
  next first rest same =>
    rw [same] at held
    refine (declaration_returns closed (held first List.mem_cons_self)).bind fun decl _ inside => ?_
    refine (file_returns closed inside.file).bind fun file _ inside => ?_
    have held := inside.module
    split
    next module same =>
      refine (moduleId_returns closed base (targetHeld_some.mp (same ▸ held))).bind ?_
      exact fun _ _ _ => .pure trivial
    · exact .pure trivial

theorem owningModuleId_returns (base : String) {id : SymbolId} (held : program.holds (.symbol id)) :
    Returns (fun _ => True) (program.owningModuleId base id) := by
  refine (symbol_returns closed held).bind fun symbol _ inside => ?_
  refine (moduleAround_returns closed inside).bind fun around _ held => ?_
  split
  next module =>
    refine (moduleId_returns closed base (targetHeld_some.mp held)).bind ?_
    exact fun _ _ _ => .pure trivial
  · exact fileModuleId?_returns closed base inside

theorem firstFileName_returns {ids : List DeclId} (held : DeclsHeld program ids) :
    Returns (fun _ => True) (program.firstFileName ids) := by
  cases ids with
  | nil => exact .pure trivial
  | cons first rest =>
    refine (declaration_returns closed (held first List.mem_cons_self)).bind fun decl _ inside => ?_
    exact (file_returns closed inside.file).bind fun _ _ _ => .pure trivial

theorem moduleHead_returns (base : String) {id : SymbolId} (held : program.holds (.symbol id)) :
    Returns (fun _ => True) (program.moduleHead base id) := by
  refine (symbol_returns closed held).bind fun symbol _ inside => ?_
  refine (firstFileName_returns closed inside.declarations).bind fun _ _ _ => ?_
  refine (moduleId_returns closed base held).bind fun _ _ _ => ?_
  exact (nameOfModule_returns closed base inside).bind fun _ _ _ => .pure trivial

end Modules

section Collection

variable {program : Program}

/-- A file is found in its table, also if there are more files than indices. -/
theorem held_of_findFile? {name : String} {id : FileId} (found : program.findFile? name = some id) :
    program.holds (.file id) := by
  obtain ⟨index, located, rfl⟩ := Option.map_eq_some_iff.mp found
  have inside := (Array.findIdx?_eq_some_iff_getElem.mp located).1
  refine decide_eq_true ?_
  exact Nat.lt_of_le_of_lt (Nat.mod_le index UInt32.size) inside

variable (closed : Closed program)

include closed

theorem soleBody_returns {symbol : Symbol} (inside : SymbolHeld program symbol) :
    Returns (TargetHeld program) (program.soleBody symbol) := by
  have held := inside.declarations
  unfold Program.soleBody
  split
  next only _ same =>
    rw [same] at held
    refine (declaration_returns closed (held only List.mem_cons_self)).bind fun decl _ inside => ?_
    refine .pure ?_
    split
    · exact inside.body
    · exact targetHeld_none
  · exact .pure targetHeld_none

theorem closestExporting_returns {id : SymbolId} (held : program.holds (.symbol id)) :
    Returns (fun closest => program.holds (.symbol closest)) (program.closestExporting id) := by
  refine (trail_returns closed (fun _ => soleBody_returns closed) held).bind fun chain _ all => ?_
  refine .pure ?_
  cases ended : chain.getLast? with
  | none => exact held
  | some last => exact (all last (List.mem_of_getLast? ended)).1

theorem modulesOfFile_returns {id : FileId} (held : program.holds (.file id)) :
    Returns (fun modules => ∀ module ∈ modules, program.holds (.symbol module.symbol))
      (program.modulesOfFile id) := by
  refine (file_returns closed held).bind fun file _ inside => ?_
  have known := inside.module
  split
  next symbol same =>
    refine .pure fun module member => ?_
    cases List.mem_singleton.mp member
    exact targetHeld_some.mp (same ▸ known)
  · refine .mapM fun symbol member => ?_
    exact (closestExporting_returns closed (inside.statements symbol member)).bind
      fun _ _ held => .pure held

theorem modulesNamed_returns {name : String} (found : (program.findFile? name).isSome) :
    Returns (fun modules => ∀ module ∈ modules, program.holds (.symbol module.symbol))
      (program.modulesNamed name) := by
  obtain ⟨file, located⟩ := Option.isSome_iff_exists.mp found
  obtain ⟨modules, returned, held⟩ := modulesOfFile_returns closed (held_of_findFile? located)
  exact ⟨modules, by simp [Program.modulesNamed, located, returned, Except.mapError], held⟩

/-- A request that names no missing file finds modules that can be looked up. -/
theorem collectModules_returns {names : List String}
    (found : names.find? (fun name => (program.findFile? name).isNone) = none) :
    Returns (fun modules => ∀ module ∈ modules, program.holds (.symbol module.symbol))
      (program.collectModules names) := by
  have each : ∀ name ∈ names, (program.findFile? name).isSome := fun name member => by
    simpa [Option.isSome_iff_ne_none] using List.find?_eq_none.mp found name member
  refine (Returns.mapM fun name member => modulesNamed_returns closed (each name member)).bind ?_
  intro modules _ all
  refine .pure fun module member => ?_
  obtain ⟨listed, inside, member⟩ := List.mem_flatten.mp member
  exact all listed inside module member

/-- A request with missing files fails with the first of them. -/
theorem collectModules_missing {names : List String} {name : String}
    (missing : names.find? (fun name => (program.findFile? name).isNone) = some name) :
    program.collectModules names = .error (.missingSourceFile name) := by
  obtain ⟨absent, earlier, later, rfl, present⟩ := List.find?_eq_some_iff_append.mp missing
  have each : ∀ name ∈ earlier, (program.findFile? name).isSome := fun name member => by
    simpa [Option.isSome_iff_ne_none] using present name member
  obtain ⟨modules, returned, _⟩ :=
    Returns.mapM fun name member => modulesNamed_returns closed (each name member)
  have failed : program.modulesNamed name = .error (.missingSourceFile name) := by
    simp [Program.modulesNamed, Option.isNone_iff_eq_none.mp absent]
  simp [Program.collectModules, returned, failed, bind, Except.bind]

theorem collectModules_held {names : List String} {collected : List CollectedModule}
    (found : program.collectModules names = .ok collected) :
    SymbolsHeld program (collected.map (·.symbol)) := by
  cases missing : names.find? (fun name => (program.findFile? name).isNone) with
  | some name =>
    rw [collectModules_missing closed missing] at found
    cases found
  | none =>
    have held := collectModules_returns closed missing
    rw [found, Returns.ok_iff] at held
    simpa [SymbolsHeld] using held

end Collection

section Walk

variable {program : Program}

/-- What is visited on a walk can be looked up. -/
def VisitHeld (program : Program) : Visit → Prop
  | .meet _ export_ => TargetHeld program export_.target
  | _ => True

def TaskHeld (program : Program) : Task → Prop
  | .walk id => program.holds (.symbol id)
  | .visit visit => VisitHeld program visit

variable (closed : Closed program)

include closed

theorem taskOf_returns (head : ModuleHead) {export_ : ResolvedExport}
    (held : TargetHeld program export_.target) :
    Returns (TaskHeld program) (program.taskOf head export_) := by
  unfold Program.taskOf
  split
  · exact .pure held
  next target same =>
    have known := targetHeld_some.mp (same ▸ held)
    refine (symbol_returns closed known).bind fun symbol _ _ => .pure ?_
    split
    · exact known
    · exact held

theorem retainedExports_returns (options : Options) {id : SymbolId} (held : program.holds (.symbol id)) :
    Returns (fun exports => ∀ export_ ∈ exports, TargetHeld program export_.target)
      (program.retainedExports options id) := by
  refine (resolveExports_returns closed held).bind fun exports _ all => .pure ?_
  exact fun export_ member => all export_ (List.mem_of_mem_filter member)

theorem enterModule_returns (options : Options) {id : SymbolId} (held : program.holds (.symbol id)) :
    Returns (fun entered => ∀ task ∈ entered.2, TaskHeld program task)
      (program.enterModule options id) := by
  refine (moduleHead_returns closed options.baseDir held).bind fun head _ _ => ?_
  refine (retainedExports_returns closed options held).bind fun exports _ all => ?_
  exact (Returns.mapM fun export_ member => taskOf_returns closed head (all export_ member)).bind
    fun tasks _ all => .pure all

theorem pending_held {options : Options} {id : SymbolId} {head : ModuleHead} {tasks rest : List Task}
    (opened : program.enterModule options id = .ok (head, tasks))
    (held : ∀ task ∈ .walk id :: rest, TaskHeld program task) :
    ∀ task ∈ tasks ++ .visit (.leave head) :: rest, TaskHeld program task := by
  have entered := enterModule_returns closed options (held (.walk id) List.mem_cons_self)
  simp only [opened, Returns.ok_iff] at entered
  intro task member
  rcases List.mem_append.mp member with given | member
  · exact entered task given
  · rcases List.mem_cons.mp member with rfl | waiting
    · trivial
    · exact held task (List.mem_cons_of_mem _ waiting)

/-- A walk from tasks that can be looked up returns, and so can all that it visits. -/
theorem walk_returns (options : Options) (visited : List SymbolId) (pending : List Task)
    (held : ∀ task ∈ pending, TaskHeld program task) :
    Returns (fun result => ∀ visit ∈ result.1, VisitHeld program visit)
      (program.walk options visited pending) := by
  fun_induction Program.walk program options visited pending with
  | case1 visited => simp
  | case2 visited visit rest fault failed ih =>
    rw [← failed]
    exact ih fun task member => held task (List.mem_cons_of_mem _ member)
  | case3 visited visit rest visits after walked ih =>
    have inside := ih fun task member => held task (List.mem_cons_of_mem _ member)
    have first := held (.visit visit) List.mem_cons_self
    simp only [walked, Returns.ok_iff] at inside
    simp only [Returns.ok_iff, List.forall_mem_cons]
    exact ⟨first, inside⟩
  | case4 visited id rest known ih => exact ih fun task member => held task (List.mem_cons_of_mem _ member)
  | case5 visited id rest fresh fault failed =>
    have entered := enterModule_returns closed options (held (.walk id) List.mem_cons_self)
    simp [failed] at entered
  | case6 visited id rest fresh head tasks opened fault failed ih =>
    rw [← failed]
    exact ih (pending_held closed opened held)
  | case7 visited id rest fresh head tasks opened visits after walked ih =>
    have inside := ih (pending_held closed opened held)
    simp only [walked, Returns.ok_iff] at inside
    simp only [Returns.ok_iff, List.forall_mem_cons]
    exact ⟨trivial, inside⟩

end Walk

section Members

variable {program : Program}

/-- A declaration can be looked up, and so can the indices in it. -/
def EntryHeld (program : Program) (id : DeclId) (decl : Declaration) : Prop :=
  program.holds (.decl id) ∧ DeclHeld program decl

structure LayoutHeld (program : Program) (layout : MemberLayout) : Prop where
  ordered : ∀ member ∈ layout.ordered, program.holds (.decl member.decl)
  callSignature : DeclsHeld program layout.callSignature.toList
  constructSignature : DeclsHeld program layout.constructSignature.toList

theorem mem_of_mem_firstOfEachKey {α κ : Type} [DecidableEq κ] {key : α → κ} {seen : List κ}
    {values : List α} {value : α} (member : value ∈ firstOfEachKey key seen values) : value ∈ values := by
  induction values generalizing seen with
  | nil => cases member
  | cons first rest ih =>
    unfold firstOfEachKey at member
    split at member
    · exact List.mem_cons_of_mem _ (ih member)
    · rcases List.mem_cons.mp member with rfl | member
      · exact List.mem_cons_self
      · exact List.mem_cons_of_mem _ (ih member)

theorem mem_of_mem_shownMembers {options : Options} {listed : List ListedMember}
    {member : ListedMember} (shown : member ∈ shownMembers options listed) : member ∈ listed :=
  List.mem_of_mem_filter (mem_of_mem_firstOfEachKey (List.mem_of_mem_filter shown))

theorem decl_of_classified? {member : ListedMember} {classified : ClassifiedMember}
    (known : member.classified? = some classified) : classified.decl = member.id := by
  obtain ⟨kind, _, rfl⟩ := Option.map_eq_some_iff.mp known
  rfl

theorem decl_of_parameterProperty? {options : Options} {id : DeclId} {decl : Declaration}
    {property : ClassifiedMember} (given : parameterProperty? options id decl = some property) :
    property.decl = id := by
  simp only [parameterProperty?] at given
  split at given <;> cases given
  rfl

/-- However members are arranged, they are listed members or properties of constructors. -/
theorem mem_arrange {sorted : Bool} {members : List (ListedMember × List ClassifiedMember)}
    {classified : ClassifiedMember} (member : classified ∈ Program.arrange sorted members) :
    ∃ pair ∈ members, pair.1.classified? = some classified ∨ classified ∈ pair.2 := by
  unfold Program.arrange at member
  split at member
  · obtain ⟨pair, inside, place⟩ := List.mem_flatMap.mp member
    refine ⟨pair, inside, ?_⟩
    simpa using place
  · rcases List.mem_append.mp member with declared | given
    · obtain ⟨pair, inside, known⟩ := List.mem_filterMap.mp declared
      exact ⟨pair, inside, .inl known⟩
    · obtain ⟨pair, inside, place⟩ := List.mem_flatMap.mp given
      exact ⟨pair, inside, .inr place⟩

variable (closed : Closed program)

include closed

theorem locationOf_returns {decl : Declaration} (inside : DeclHeld program decl) :
    Returns (fun _ => True) (program.locationOf decl) := by
  unfold Program.locationOf
  split
  · exact .pure trivial
  · exact (file_returns closed inside.file).bind fun _ _ _ => .pure trivial

theorem identified_returns {id : DeclId} (held : program.holds (.decl id)) :
    Returns (fun pair => EntryHeld program pair.1 pair.2) (program.identified id) := by
  apply (declaration_returns closed held).bind
  intro decl _ inside
  exact .pure ⟨held, inside⟩

theorem membersOf_returns {owner : DeclId} (held : program.holds (.decl owner)) :
    Returns (fun listed => ∀ member ∈ listed, EntryHeld program member.id member.decl)
      (program.membersOf owner) := by
  apply (declaration_returns closed held).bind
  intro decl _ inside
  apply Returns.mapM
  intro id member
  apply (declaration_returns closed (inside.members id member)).bind
  intro decl _ known
  exact .pure ⟨inside.members id member, known⟩

theorem listMembers_returns {owners : List DeclId} (held : DeclsHeld program owners) :
    Returns (fun listed => ∀ member ∈ listed, EntryHeld program member.id member.decl)
      (program.listMembers owners) := by
  apply (Returns.mapM fun owner member => membersOf_returns closed (held owner member)).bind
  intro listed _ all
  refine .pure fun member inside => ?_
  obtain ⟨group, place, member⟩ := List.mem_flatten.mp inside
  exact all group place _ member

theorem parameterProperties_returns (options : Options) {member : ListedMember}
    (inside : DeclHeld program member.decl) :
    Returns (fun properties => ∀ property ∈ properties, program.holds (.decl property.decl))
      (program.parameterProperties options member) := by
  unfold Program.parameterProperties
  split
  · apply (Returns.mapM fun id held => identified_returns closed (inside.parameters id held)).bind
    intro parameters _ all
    refine .pure fun property given => ?_
    obtain ⟨⟨id, decl⟩, place, given⟩ := List.mem_filterMap.mp given
    rw [decl_of_parameterProperty? given]
    exact (all _ place).1
  · exact .pure (by simp)

theorem layout_returns (options : Options) {owners : List DeclId} (held : DeclsHeld program owners) :
    Returns (LayoutHeld program) (program.layout options owners) := by
  apply (listMembers_returns closed held).bind
  intro listed _ all
  have each : ∀ member ∈ shownMembers options listed, Returns
      (fun pair => program.holds (.decl pair.1.id) ∧
        ∀ property ∈ pair.2, program.holds (.decl property.decl))
      (program.parameterProperties options member >>= fun properties => pure (member, properties)) := by
    intro member shown
    have inside := all member (mem_of_mem_shownMembers shown)
    apply (parameterProperties_returns closed options inside.2).bind
    intro properties _ known
    exact .pure ⟨inside.1, known⟩
  have first : ∀ test : ListedMember → Bool, DeclsHeld program ((listed.find? test).map (·.id)).toList := by
    intro test id member
    obtain ⟨found, same, rfl⟩ := Option.map_eq_some_iff.mp (Option.mem_toList.mp member)
    exact (all found (List.mem_of_find?_eq_some same)).1
  apply (Returns.mapM each).bind
  intro members _ known
  refine .pure ⟨?_, first _, first _⟩
  intro classified member
  obtain ⟨pair, place, declared | given⟩ := mem_arrange member
  · rw [decl_of_classified? declared]
    exact (known pair place).1
  · exact (known pair place).2 classified given

end Members

end ApiDocs.Proofs.References
