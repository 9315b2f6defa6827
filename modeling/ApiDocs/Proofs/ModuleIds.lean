import ApiDocs.Proofs.Validation
import Mathlib.Data.List.Chain

/-! Ids of modules and the parents of symbols. A file gives its module an id, and every other module has
the id of its parent with its own name behind it; a symbol belongs to the nearest module above it. The
walks that find this out meet no symbol twice, also where parents go round in a circle. -/

namespace ApiDocs.Proofs.ModuleIds

open References Trails ParentChains Validation

/-- The declaration is that of a source file. -/
def isSourceFile (program : Program) (id : DeclId) : Bool :=
  match program.declaration id with
  | .ok decl => decl.kind = .sourceFile
  | .error _ => false

/-- The first declaration of the symbol that is a source file. -/
def fileDecl? (program : Program) (symbol : Symbol) : Option DeclId :=
  symbol.declarations.find? (isSourceFile program)

/-- The walk to the nearest module stops at a module and goes from all other symbols to their parents. -/
def outward (symbol : Symbol) : Except Fault (Option SymbolId) :=
  .ok (if symbol.isModule then none else symbol.parent)

variable {program : Program} {base : String} {id parent : SymbolId} {symbol : Symbol}
  {halts : Symbol → Prop} {next : Symbol → Except Fault (Option SymbolId)}

section Walks

/-- The rule stops at the symbols of one kind and leads from all others to their parents. -/
def LeadsUp (program : Program) (halts : Symbol → Prop) (next : Symbol → Except Fault (Option SymbolId)) :
    Prop :=
  ∀ symbol, SymbolHeld program symbol →
    halts symbol ∧ next symbol = .ok none ∨ ¬ halts symbol ∧ next symbol = .ok symbol.parent

/-- The symbols that a walk to parents visits, all different, each the parent of the one before. It ends
at a symbol where it halts, or that has no parent, or whose parent it has visited. -/
structure Climbs (program : Program) (halts : Symbol → Prop) (start : SymbolId)
    (visited : List (SymbolId × Symbol)) : Prop where
  starts : (visited.map Prod.fst).head? = some start
  found : ∀ pair ∈ visited, program.symbol pair.1 = .ok pair.2
  distinct : (visited.map Prod.fst).Nodup
  linked : visited.IsChain fun child parent => ¬ halts child.2 ∧ child.2.parent = some parent.1
  ends : ∀ last ∈ visited.getLast?, halts last.2 ∨ last.2.parent = none ∨
    ∃ met ∈ visited.map Prod.fst, last.2.parent = some met

theorem LeadsUp.returns (leadsUp : LeadsUp program halts next) (inside : SymbolHeld program symbol) :
    Returns (TargetHeld program) (next symbol) := by
  rcases leadsUp symbol inside with ⟨_, stops⟩ | ⟨_, leads⟩
  · rw [stops]
    exact .pure targetHeld_none
  · rw [leads]
    exact .pure inside.parent

theorem LeadsUp.up (leadsUp : LeadsUp program halts next) (inside : SymbolHeld program symbol)
    (led : next symbol = .ok (some parent)) : ¬ halts symbol ∧ symbol.parent = some parent := by
  rcases leadsUp symbol inside with ⟨_, stops⟩ | ⟨goes, leads⟩
  · cases stops.symm.trans led
  · exact ⟨goes, Except.ok.inj (leads.symm.trans led)⟩

theorem climbs_of_leadsUp (closed : Closed program) (leadsUp : LeadsUp program halts next)
    (held : program.holds (.symbol id)) :
    ∃ visited, Trail.follow program.symbolSource next [] id = .ok visited ∧
      Climbs program halts id visited := by
  obtain ⟨visited, followed, all⟩ := trail_returns closed (fun _ => leadsUp.returns) held
  have visits := follow_ok_iff.mp followed
  refine ⟨visited, followed, visits.starts, visits.found, visits.distinct, ?_, ?_⟩
  · exact visits.linked.imp_of_mem_imp fun child _ member _ => leadsUp.up (all child member).2
  · intro last ended
    have inside := (all last (List.mem_of_getLast? ended)).2
    rcases visits.stops last ended with none | ⟨met, member, some⟩
    · rcases leadsUp last.2 inside with ⟨halted, _⟩ | ⟨_, leads⟩
      · exact .inl halted
      · exact .inr (.inl (Except.ok.inj (leads.symm.trans none)))
    · exact .inr (.inr ⟨met, by simpa using member, (leadsUp.up inside some).2⟩)

/-- In a sound program a walk to parents ends because there is no parent left. -/
theorem ends_of_leadsUp (accepted : program.check = .ok ()) (leadsUp : LeadsUp program halts next)
    (held : program.holds (.symbol id)) :
    ∃ steps final, Ends program.symbolSource next steps id final := by
  obtain ⟨closed, finite⟩ := check_ok_iff.mp accepted
  obtain ⟨symbol, found, inside⟩ := symbol_returns closed held
  have chain := finite symbol (entry_of_found found)
  induction chain generalizing id with
  | @root symbol orphan =>
    have stops : next symbol = .ok none := by
      rcases leadsUp symbol inside with ⟨_, stops⟩ | ⟨_, leads⟩
      · exact stops
      · rw [leads, orphan]
    exact ⟨0, _, .here found stops⟩
  | @child symbol parent above named foundAbove _ ih =>
    have heldAbove := inside.parent
    rw [named, targetHeld_some] at heldAbove
    obtain ⟨again, foundAgain, insideAbove⟩ := symbol_returns closed heldAbove
    cases foundAbove.symm.trans foundAgain
    obtain ⟨steps, final, ends⟩ := ih heldAbove foundAbove insideAbove
    rcases leadsUp symbol inside with ⟨_, stops⟩ | ⟨_, leads⟩
    · exact ⟨0, _, .here found stops⟩
    · exact ⟨steps + 1, final, .link found (leads.trans (congrArg _ named)) ends⟩

end Walks

section Ids

theorem sourceFileName?_cases (closed : Closed program) {ids : List DeclId} (held : DeclsHeld program ids) :
    (∃ first decl file, ids.find? (isSourceFile program) = some first ∧
      program.declaration first = .ok decl ∧ program.file decl.file = .ok file ∧
      program.sourceFileName? ids = .ok (some file.name)) ∨
    ids.find? (isSourceFile program) = none ∧ program.sourceFileName? ids = .ok none := by
  induction ids with
  | nil => exact .inr ⟨rfl, rfl⟩
  | cons id rest ih =>
    obtain ⟨decl, found, inside⟩ := declaration_returns closed (held id List.mem_cons_self)
    have others := ih fun other member => held other (List.mem_cons_of_mem _ member)
    rw [List.find?_cons, Program.sourceFileName?, found]
    by_cases kind : decl.kind = .sourceFile
    · obtain ⟨file, known, _⟩ := file_returns closed inside.file
      refine .inl ⟨id, decl, file, ?_, found, known, ?_⟩
      · simp [isSourceFile, found, kind]
      · simp [kind, known, bind, Except.bind, pure, Except.pure]
    · simpa [isSourceFile, found, kind, bind, Except.bind] using others

theorem outerModule_leadsUp (closed : Closed program) :
    LeadsUp program (fun symbol => (fileDecl? program symbol).isSome) program.outerModule := by
  intro symbol inside
  rcases sourceFileName?_cases closed inside.declarations with ⟨first, _, file, is, _, _, named⟩ | ⟨none, unnamed⟩
  · exact .inl ⟨by simp [fileDecl?, is], by rw [Program.outerModule, named]; rfl⟩
  · exact .inr ⟨by simp [fileDecl?, none], by rw [Program.outerModule, unnamed]; rfl⟩

theorem moduleId_of_trail {visited : List (SymbolId × Symbol)} {names : List String}
    (followed : Trail.follow program.symbolSource program.outerModule [] id = .ok visited)
    (named : List.Forall₂ (fun pair name => program.nameOfModule base pair.2 = .ok name) visited names) :
    program.moduleId base id = .ok ("/".intercalate names.reverse) :=
  bind_ok_iff.mpr ⟨visited, followed, bind_ok_iff.mpr ⟨names, mapM_ok_iff.mpr named, rfl⟩⟩

/-- How the id of a module comes from its file, or else from its parent. -/
structure IdLaw (program : Program) (base : String) (id : SymbolId) (symbol : Symbol) : Prop where
  ofFile : ∀ first, fileDecl? program symbol = some first → ∃ decl file,
    program.declaration first = .ok decl ∧ program.file decl.file = .ok file ∧
    program.moduleId base id = .ok (FileName.moduleId base file.name)
  inside : fileDecl? program symbol = none → ∀ parent, symbol.parent = some parent →
    ∃ outer, program.moduleId base parent = .ok outer ∧
      program.moduleId base id = .ok (outer ++ "/" ++ symbol.name)
  outermost : fileDecl? program symbol = none → symbol.parent = none →
    program.moduleId base id = .ok symbol.name

theorem moduleId_of_stop {name : String} (found : program.symbol id = .ok symbol)
    (stops : program.outerModule symbol = .ok none) (named : program.nameOfModule base symbol = .ok name) :
    program.moduleId base id = .ok name := by
  have single := moduleId_of_trail (follow_stop found stops) (.cons named .nil)
  rwa [List.reverse_singleton, String.intercalate_singleton] at single

theorem moduleId_of_parent {outer name : String} (accepted : program.check = .ok ())
    (found : program.symbol id = .ok symbol) (leads : program.outerModule symbol = .ok (some parent))
    (held : program.holds (.symbol parent)) (above : program.moduleId base parent = .ok outer)
    (named : program.nameOfModule base symbol = .ok name) :
    program.moduleId base id = .ok (outer ++ "/" ++ name) := by
  obtain ⟨steps, final, ends⟩ :=
    ends_of_leadsUp accepted (outerModule_leadsUp (closed_of_check accepted)) held
  obtain ⟨visited, followed, rest⟩ := bind_ok_iff.mp above
  obtain ⟨names, all, joined⟩ := bind_ok_iff.mp rest
  cases joined
  have related := mapM_ok_iff.mp all
  have nonempty : names ≠ [] := by
    rintro rfl
    cases related
    cases (follow_ok_iff.mp followed).starts
  have whole : Trail.follow program.symbolSource program.outerModule [] id = .ok ((id, symbol) :: visited) := by
    rw [follow_link found leads ends, followed]
    rfl
  rw [moduleId_of_trail whole (.cons named related), List.reverse_cons,
    String.intercalate_append_of_ne_nil (by simpa using nonempty) (by simp), String.intercalate_singleton]

theorem idLaw_of_check (base : String) (accepted : program.check = .ok ())
    (found : program.symbol id = .ok symbol) (inside : SymbolHeld program symbol) :
    IdLaw program base id symbol := by
  have closed := closed_of_check accepted
  rcases sourceFileName?_cases closed inside.declarations with
    ⟨first, decl, file, is, declared, known, ofFile⟩ | ⟨none, fileless⟩
  · have stops : program.outerModule symbol = .ok .none := by rw [Program.outerModule, ofFile]; rfl
    have named : program.nameOfModule base symbol = .ok (FileName.moduleId base file.name) := by
      rw [Program.nameOfModule, ofFile]; rfl
    refine ⟨fun other given => ?_, fun absent => ?_, fun absent => ?_⟩
    · cases is.symm.trans given
      exact ⟨decl, file, declared, known, moduleId_of_stop found stops named⟩
    all_goals cases is.symm.trans absent
  · have leads : program.outerModule symbol = .ok symbol.parent := by rw [Program.outerModule, fileless]; rfl
    have named : program.nameOfModule base symbol = .ok symbol.name := by
      rw [Program.nameOfModule, fileless]; rfl
    refine ⟨fun other given => ?_, fun _ parent above => ?_, fun _ alone => ?_⟩
    · cases none.symm.trans given
    · have held := inside.parent
      rw [above, targetHeld_some] at held
      obtain ⟨outer, returned, _⟩ := moduleId_returns closed base held
      exact ⟨outer, returned, moduleId_of_parent accepted found (above ▸ leads) held returned named⟩
    · exact moduleId_of_stop found (alone ▸ leads) named

end Ids

section Owners

/-- So many steps above the symbol stands a module. -/
def ModuleAt (program : Program) (id : SymbolId) (distance : Nat) (module : SymbolId) : Prop :=
  program.ancestor? distance id = some module ∧
    ∃ symbol, program.symbol module = .ok symbol ∧ symbol.isModule = true

/-- The module stands above the symbol, and none stands between them. -/
def NearestAbove (program : Program) (id module : SymbolId) : Prop :=
  ∃ distance, ModuleAt program id (distance + 1) module ∧
    ∀ nearer < distance, ∀ other, ¬ ModuleAt program id (nearer + 1) other

/-- No module stands above the symbol. -/
def NoneAbove (program : Program) (id : SymbolId) : Prop :=
  ∀ distance module, ¬ ModuleAt program id (distance + 1) module

/-- The last symbol, if it is a module. -/
def lastModule (visited : List (SymbolId × Symbol)) : Option SymbolId :=
  (visited.getLast?.filter (·.2.isModule)).map Prod.fst

theorem moduleAt_zero_iff {module : SymbolId} (found : program.symbol id = .ok symbol) :
    ModuleAt program id 0 module ↔ module = id ∧ symbol.isModule = true := by
  constructor
  · rintro ⟨here, again, foundAgain, flagged⟩
    cases here
    cases found.symm.trans foundAgain
    exact ⟨rfl, flagged⟩
  · rintro ⟨rfl, flagged⟩
    exact ⟨rfl, symbol, found, flagged⟩

theorem moduleAt_succ_iff {distance : Nat} {module : SymbolId} (found : program.symbol id = .ok symbol) :
    ModuleAt program id (distance + 1) module ↔
      ∃ parent, symbol.parent = some parent ∧ ModuleAt program parent distance module := by
  unfold ModuleAt
  rw [Program.ancestor?, parent?_of_found found]
  cases symbol.parent <;> simp

/-- What stands above a symbol that is no module stands above its parent or is its parent. -/
theorem moduleAt_iff_of_plain {distance : Nat} {module : SymbolId} (found : program.symbol id = .ok symbol)
    (plain : symbol.isModule = false) :
    ModuleAt program id distance module ↔ ∃ fewer parent, distance = fewer + 1 ∧
      symbol.parent = some parent ∧ ModuleAt program parent fewer module := by
  cases distance with
  | zero => simp [moduleAt_zero_iff found, plain]
  | succ distance => simp [moduleAt_succ_iff found]

theorem outward_leadsUp : LeadsUp program (fun symbol => symbol.isModule = true) outward := by
  intro symbol _
  by_cases flagged : symbol.isModule = true
  · exact .inl ⟨flagged, by simp [outward, flagged]⟩
  · exact .inr ⟨flagged, by simp [outward, flagged]⟩

theorem nearestModule_of_trail {visited : List (SymbolId × Symbol)}
    (followed : Trail.follow program.symbolSource outward [] id = .ok visited) :
    program.nearestModule id = .ok (lastModule visited) := by
  refine bind_ok_iff.mpr ⟨visited, followed, ?_⟩
  unfold lastModule
  cases visited.getLast? with
  | none => rfl
  | some last => cases flagged : last.2.isModule <;> simp [Option.filter, flagged, pure, Except.pure]

/-- A symbol that is no module passes the question on to its parent. -/
theorem nearestModule_of_parent {steps : Nat} {final : SymbolId × Symbol}
    (found : program.symbol id = .ok symbol) (leads : outward symbol = .ok (some parent))
    (ends : Ends program.symbolSource outward steps parent final) :
    program.nearestModule id = program.nearestModule parent := by
  obtain ⟨visited, followed, reached⟩ := follow_of_ends ends [] (by simp)
  have whole : Trail.follow program.symbolSource outward [] id = .ok ((id, symbol) :: visited) := by
    rw [follow_link found leads ends, followed]
    rfl
  rw [nearestModule_of_trail whole, nearestModule_of_trail followed, lastModule, lastModule,
    getLast?_cons_of_some reached, reached]

/-- The walk from a symbol finds the nearest module among it and its ancestors, if there is one. -/
theorem nearestModule_cases {steps : Nat} {final : SymbolId × Symbol}
    (ends : Ends program.symbolSource outward steps id final) :
    (∃ distance module, ModuleAt program id distance module ∧
      (∀ nearer < distance, ∀ other, ¬ ModuleAt program id nearer other) ∧
      program.nearestModule id = .ok (some module)) ∨
    (∀ distance module, ¬ ModuleAt program id distance module) ∧ program.nearestModule id = .ok none := by
  induction ends with
  | @here id symbol found stops =>
    have nearest := nearestModule_of_trail (follow_stop found stops)
    cases flagged : symbol.isModule with
    | true =>
      refine .inl ⟨0, id, (moduleAt_zero_iff found).mpr ⟨rfl, flagged⟩, by simp, ?_⟩
      simpa [lastModule, Option.filter, flagged] using nearest
    | false =>
      have orphan : symbol.parent = none := by simpa [outward, flagged] using stops
      refine .inr ⟨by simp [moduleAt_iff_of_plain found flagged, orphan], ?_⟩
      simpa [lastModule, Option.filter, flagged] using nearest
  | @link steps id symbol parent final found leads rest ih =>
    obtain ⟨flagged, above⟩ : symbol.isModule = false ∧ symbol.parent = some parent := by
      simpa [outward] using leads
    rw [nearestModule_of_parent found leads rest]
    simp only [moduleAt_iff_of_plain found flagged, above]
    rcases ih with ⟨distance, module, stands, first, nearest⟩ | ⟨none, nearest⟩
    · refine .inl ⟨distance + 1, module, ⟨distance, parent, rfl, rfl, stands⟩, ?_, nearest⟩
      rintro nearer before other ⟨fewer, _, rfl, same, standsToo⟩
      cases same
      exact first fewer (by omega) other standsToo
    · refine .inr ⟨?_, nearest⟩
      rintro distance module ⟨fewer, _, rfl, same, stands⟩
      cases same
      exact none fewer module stands

theorem moduleAround_cases (accepted : program.check = .ok ()) (found : program.symbol id = .ok symbol)
    (inside : SymbolHeld program symbol) :
    (∃ module, NearestAbove program id module ∧ program.moduleAround symbol = .ok (some module)) ∨
      NoneAbove program id ∧ program.moduleAround symbol = .ok none := by
  unfold NearestAbove NoneAbove Program.moduleAround
  simp only [moduleAt_succ_iff found]
  have held := inside.parent
  cases above : symbol.parent with
  | none => exact .inr ⟨by simp, rfl⟩
  | some parent =>
    rw [above, targetHeld_some] at held
    obtain ⟨steps, final, ends⟩ := ends_of_leadsUp accepted outward_leadsUp held
    rcases nearestModule_cases ends with ⟨distance, module, stands, first, nearest⟩ | ⟨none, nearest⟩
    · exact .inl ⟨module, ⟨distance, by simpa using stands, by simpa using first⟩, nearest⟩
    · exact .inr ⟨by simpa using none, nearest⟩

/-- The id that a file gives: that of its module, or its own if it has none. -/
def FileNamed (program : Program) (base : String) (file : SourceFile) (text : String) : Prop :=
  (∀ module, file.moduleSymbol = some module → program.moduleId base module = .ok text) ∧
    (file.moduleSymbol = none → text = FileName.moduleId base file.name)

/-- How the owner of a symbol comes from the modules above it, or else from its first declaration. -/
structure OwnerLaw (program : Program) (base : String) (id : SymbolId) (symbol : Symbol) : Prop where
  above : ¬ NoneAbove program id → ∃ module text, NearestAbove program id module ∧
    program.moduleId base module = .ok text ∧ program.owningModuleId base id = .ok (some text)
  ofFile : NoneAbove program id → ∀ first rest, symbol.declarations = first :: rest →
    ∃ decl file text, program.declaration first = .ok decl ∧ program.file decl.file = .ok file ∧
      FileNamed program base file text ∧ program.owningModuleId base id = .ok (some text)
  nowhere : program.owningModuleId base id = .ok none ↔ NoneAbove program id ∧ symbol.declarations = []

theorem fileModuleId?_of_first {first : DeclId} {rest : List DeclId} {decl : Declaration} {file : SourceFile}
    {text : String} (declared : symbol.declarations = first :: rest)
    (found : program.declaration first = .ok decl) (stored : program.file decl.file = .ok file)
    (named : FileNamed program base file text) : program.fileModuleId? base symbol = .ok (some text) := by
  obtain ⟨ofModule, ofName⟩ := named
  cases own : file.moduleSymbol with
  | none => simp [Program.fileModuleId?, declared, found, stored, own, ofName own, bind, Except.bind, pure,
      Except.pure]
  | some module => simp [Program.fileModuleId?, declared, found, stored, own, ofModule module own, bind,
      Except.bind, pure, Except.pure]

theorem exists_fileNamed (base : String) (closed : Closed program) {file : SourceFile}
    (holds : FileHeld program file) : ∃ text, FileNamed program base file text := by
  have held := holds.module
  unfold FileNamed
  cases own : file.moduleSymbol with
  | none => exact ⟨_, by simp, fun _ => rfl⟩
  | some module =>
    rw [own, targetHeld_some] at held
    obtain ⟨text, named, _⟩ := moduleId_returns closed base held
    exact ⟨text, by simp [named], by simp⟩

theorem owningModuleId_of_module {module : SymbolId} {text : String}
    (found : program.symbol id = .ok symbol) (around : program.moduleAround symbol = .ok (some module))
    (named : program.moduleId base module = .ok text) :
    program.owningModuleId base id = .ok (some text) := by
  simp [Program.owningModuleId, found, around, named, bind, Except.bind, pure, Except.pure]

theorem owningModuleId_of_none (found : program.symbol id = .ok symbol)
    (around : program.moduleAround symbol = .ok none) :
    program.owningModuleId base id = program.fileModuleId? base symbol := by
  simp [Program.owningModuleId, found, around, bind, Except.bind]

theorem ownerLaw_of_check (base : String) (accepted : program.check = .ok ())
    (found : program.symbol id = .ok symbol) (inside : SymbolHeld program symbol) :
    OwnerLaw program base id symbol := by
  have closed := closed_of_check accepted
  rcases moduleAround_cases accepted found inside with ⟨module, nearest, around⟩ | ⟨free, around⟩
  · obtain ⟨target, again, held⟩ := moduleAround_returns closed inside
    cases around.symm.trans again
    obtain ⟨text, named, _⟩ := moduleId_returns closed base (targetHeld_some.mp held)
    have owned := owningModuleId_of_module found around named
    have stands : ¬ NoneAbove program id := by
      obtain ⟨distance, stands, _⟩ := nearest
      exact fun free => free distance module stands
    refine ⟨fun _ => ⟨module, text, nearest, named, owned⟩, fun free => absurd free stands, ?_⟩
    simp [owned, stands]
  · have owned : program.owningModuleId base id = program.fileModuleId? base symbol :=
      owningModuleId_of_none found around
    have ofFile : ∀ first rest, symbol.declarations = first :: rest →
        ∃ decl file text, program.declaration first = .ok decl ∧ program.file decl.file = .ok file ∧
          FileNamed program base file text ∧ program.owningModuleId base id = .ok (some text) := by
      intro first rest declared
      obtain ⟨decl, known, holds⟩ := declaration_returns closed (inside.declarations first (by simp [declared]))
      obtain ⟨file, stored, holds⟩ := file_returns closed holds.file
      obtain ⟨text, named⟩ := exists_fileNamed base closed holds
      exact ⟨decl, file, text, known, stored, named,
        owned.trans (fileModuleId?_of_first declared known stored named)⟩
    refine ⟨fun stands => absurd free stands, fun _ => ofFile, fun nowhere => ⟨free, ?_⟩, fun ⟨_, empty⟩ => ?_⟩
    · cases declared : symbol.declarations with
      | nil => rfl
      | cons first rest =>
        obtain ⟨_, _, text, _, _, _, some⟩ := ofFile first rest declared
        cases nowhere.symm.trans some
    · rw [owned, Program.fileModuleId?, empty]
      rfl

end Owners

section Laws

/-- What holds of the walks whether or not the chain of parents ends: the id of a module joins the names
of symbols that are all different, and the search for the owner visits symbols that are all different. -/
structure WalkLaw (program : Program) (base : String) (id : SymbolId) (symbol : Symbol) : Prop where
  named : ∃ visited names, Climbs program (fun symbol => (fileDecl? program symbol).isSome) id visited ∧
    List.Forall₂ (fun pair name => program.nameOfModule base pair.2 = .ok name) visited names ∧
    program.moduleId base id = .ok ("/".intercalate names.reverse)
  around : ∀ parent, symbol.parent = some parent →
    ∃ visited, Climbs program (fun symbol => symbol.isModule = true) parent visited ∧
      program.moduleAround symbol = .ok (lastModule visited)
  owned : ∃ owner, program.owningModuleId base id = .ok owner

theorem walkLaw_of_closed (base : String) (closed : Closed program) (held : program.holds (.symbol id))
    (inside : SymbolHeld program symbol) :
    WalkLaw program base id symbol := by
  refine ⟨?_, fun parent above => ?_, ?_⟩
  · obtain ⟨visited, followed, climbs⟩ := climbs_of_leadsUp closed (outerModule_leadsUp closed) held
    obtain ⟨text, returned, _⟩ := moduleId_returns closed base held
    obtain ⟨again, followedAgain, rest⟩ := bind_ok_iff.mp returned
    cases followed.symm.trans followedAgain
    obtain ⟨names, all, joined⟩ := bind_ok_iff.mp rest
    cases joined
    exact ⟨visited, names, climbs, mapM_ok_iff.mp all, returned⟩
  · have heldAbove := inside.parent
    rw [above, targetHeld_some] at heldAbove
    obtain ⟨visited, followed, climbs⟩ := climbs_of_leadsUp closed outward_leadsUp heldAbove
    refine ⟨visited, climbs, ?_⟩
    rw [Program.moduleAround, above]
    exact nearestModule_of_trail followed
  · obtain ⟨owner, owned, _⟩ := owningModuleId_returns closed base held
    exact ⟨owner, owned⟩

/-- In a sound program the id of a module follows the chain of parents, from the file or the outermost
module on, and a symbol belongs to the nearest module above it or else to its file. In any program whose
indices point into their tables both walks end, and neither visits a symbol twice. -/
theorem moduleId_laws (base : String) (closed : Closed program) (held : program.holds (.symbol id)) :
    ∃ symbol, program.symbol id = .ok symbol ∧
      (program.check = .ok () → IdLaw program base id symbol ∧ OwnerLaw program base id symbol) ∧
      WalkLaw program base id symbol := by
  obtain ⟨symbol, found, inside⟩ := symbol_returns closed held
  refine ⟨symbol, found, fun accepted => ⟨?_, ?_⟩, walkLaw_of_closed base closed held inside⟩
  · exact idLaw_of_check base accepted found inside
  · exact ownerLaw_of_check base accepted found inside

/-- A file under the base directory with a namespace, and in that a class. -/
def library : Program where
  files := #[{ name := "src/a.ts", moduleSymbol := some ⟨0⟩ }]
  symbols := #[
    { name := "\"a\"", flags := SymbolFlags.valueModule, declarations := [⟨0⟩] },
    { name := "shapes", flags := SymbolFlags.namespaceModule, declarations := [⟨1⟩], parent := some ⟨0⟩ },
    { name := "Point", flags := SymbolFlags.class_, declarations := [⟨2⟩], parent := some ⟨1⟩ }]
  declarations := #[
    { kind := .sourceFile, file := ⟨0⟩, name := "src/a.ts" },
    { kind := .namespace_, file := ⟨0⟩, name := "shapes" },
    { kind := .class_, file := ⟨0⟩, name := "Point" }]

/-- Two namespaces that are each other's parents. -/
def entangled : Program where
  symbols := #[
    { name := "outer", flags := SymbolFlags.namespaceModule, parent := some ⟨1⟩ },
    { name := "inner", flags := SymbolFlags.namespaceModule, parent := some ⟨0⟩ }]

/-- The ids of the namespace and of the class's owner come from the file. Where parents go round in a
circle, the walk from one symbol visits the other and stops. -/
theorem moduleId_laws_library :
    (Closed library ∧ library.holds (.symbol ⟨1⟩) ∧ library.holds (.symbol ⟨2⟩) ∧ library.check = .ok () ∧
      library.moduleId "src" ⟨1⟩ = .ok "a/shapes" ∧
      library.owningModuleId "src" ⟨2⟩ = .ok (some "a/shapes")) ∧
    Closed entangled ∧ entangled.holds (.symbol ⟨1⟩) ∧ entangled.check ≠ .ok () ∧
      entangled.moduleId "" ⟨1⟩ = .ok "outer/inner" ∧ ∃ symbol, WalkLaw entangled "" ⟨1⟩ symbol := by
  have accepted : library.check = .ok () := by decide +kernel
  have closed := closed_of_check accepted
  have file : library.moduleId "src" ⟨0⟩ = .ok "a" := by
    obtain ⟨_, found, laws, _⟩ := moduleId_laws "src" closed (show library.holds (.symbol ⟨0⟩) by decide)
    cases (show library.symbol ⟨0⟩ = .ok _ from rfl).symm.trans found
    obtain ⟨_, _, declared, stored, named⟩ := (laws accepted).1.ofFile ⟨0⟩ (by decide)
    cases (show library.declaration ⟨0⟩ = .ok _ from rfl).symm.trans declared
    cases (show library.file ⟨0⟩ = .ok _ from rfl).symm.trans stored
    exact named.trans (by decide)
  have inner : library.moduleId "src" ⟨1⟩ = .ok "a/shapes" := by
    obtain ⟨_, found, laws, _⟩ := moduleId_laws "src" closed (show library.holds (.symbol ⟨1⟩) by decide)
    cases (show library.symbol ⟨1⟩ = .ok _ from rfl).symm.trans found
    obtain ⟨_, above, named⟩ := (laws accepted).1.inside (by decide) ⟨0⟩ rfl
    cases file.symm.trans above
    exact named
  have closedToo : Closed entangled := closed_iff_find?.mpr (by decide +kernel)
  obtain ⟨symbol, _, _, walks⟩ :=
    moduleId_laws "" closedToo (show entangled.holds (.symbol ⟨1⟩) by decide)
  exact ⟨⟨closed, by decide, by decide, accepted, inner, by decide +kernel⟩, closedToo, by decide,
    by decide +kernel, by decide +kernel, symbol, walks⟩

end Laws

end ApiDocs.Proofs.ModuleIds
