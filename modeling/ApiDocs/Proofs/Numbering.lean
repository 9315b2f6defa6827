import ApiDocs.Proofs.Growth
import ApiDocs.Proofs.References

/-! Programs inside other programs. If a program holds the entries of another one under other ids, it
answers every question as the other one does, with its own ids in the answer. Here this is shown for
the modules: their names, what they export, and the walk over them. -/

namespace ApiDocs.Proofs

open Trails References

section Outcomes

variable {α β γ δ σ ε ε' : Type} {fail : ε → ε} {change : α → β} {result : γ → δ}
  {first : Except ε α} {other : Except ε β}

/-- The other computation comes out as the first one does, with the value or the failure changed. -/
def Carries (fail : ε → ε) (change : α → β) (first : Except ε α) (other : Except ε β) : Prop :=
  other = (first.map change).mapError fail

namespace Carries

theorem ok {value : α} {otherValue : β} (same : otherValue = change value) :
    Carries fail change (.ok value) (.ok otherValue) := by
  rw [same]
  rfl

theorem ok_ite {condition : Prop} [Decidable condition] {yes no : α} {otherYes otherNo : β}
    (same : otherYes = change yes) (sameToo : otherNo = change no) :
    Carries fail change (.ok (if condition then yes else no))
      (.ok (if condition then otherYes else otherNo)) := by
  apply ok
  rw [apply_ite change, same, sameToo]

theorem bind {next : α → Except ε γ} {otherNext : β → Except ε δ} (carries : Carries fail change first other)
    (rest : ∀ value, first = .ok value → Carries fail result (next value) (otherNext (change value))) :
    Carries fail result (first >>= next) (other >>= otherNext) := by
  unfold Carries at carries
  subst carries
  cases first with
  | error failure => rfl
  | ok value => exact rest value rfl

theorem map {next : α → γ} {otherNext : β → δ} (carries : Carries fail change first other)
    (same : ∀ value, otherNext (change value) = result (next value)) :
    Carries fail result (first.map next) (other.map otherNext) := by
  unfold Carries at carries
  subst carries
  cases first with
  | error failure => rfl
  | ok value => exact ok (same value)

theorem mapError {wrap : ε → ε'} {failToo : ε' → ε'} (carries : Carries fail change first other)
    (same : ∀ failure, failToo (wrap failure) = wrap (fail failure)) :
    Carries failToo change (first.mapError wrap) (other.mapError wrap) := by
  unfold Carries at carries
  subst carries
  cases first with
  | error failure => exact congrArg Except.error (same failure).symm
  | ok value => rfl

/-- What follows may rely on what is known of the value. -/
theorem after {post : α → Prop} {next : α → Except ε γ} {otherNext : β → Except ε δ}
    (carries : Carries fail change first other) (returns : Returns post first)
    (rest : ∀ value, post value → Carries fail result (next value) (otherNext (change value))) :
    Carries fail result (first >>= next) (other >>= otherNext) := by
  apply carries.bind
  intro value returned
  rw [returned] at returns
  exact rest value (Returns.ok_iff.mp returns)

theorem mapM {items : List σ} {body : σ → Except ε α} {rename : σ → γ} {otherBody : γ → Except ε β}
    (each : ∀ item ∈ items, Carries fail change (body item) (otherBody (rename item))) :
    Carries fail (List.map change) (items.mapM body) ((items.map rename).mapM otherBody) := by
  induction items with
  | nil => rfl
  | cons item items ih =>
    have rest := ih fun item member => each item (List.mem_cons_of_mem _ member)
    rw [List.map_cons, List.mapM_cons, List.mapM_cons]
    apply (each item List.mem_cons_self).bind
    intro value _
    exact rest.bind fun values _ => rfl

theorem foldlM {items : List α} {step : σ → α → Except ε σ} {otherStep : σ → β → Except ε σ}
    (each : ∀ state, ∀ item ∈ items, Carries fail id (step state item) (otherStep state (change item)))
    (start : σ) : Carries fail id (items.foldlM step start) ((items.map change).foldlM otherStep start) := by
  induction items generalizing start with
  | nil => rfl
  | cons item items ih =>
    have rest := ih fun state item member => each state item (List.mem_cons_of_mem _ member)
    rw [List.map_cons, List.foldlM_cons, List.foldlM_cons]
    apply (each start item List.mem_cons_self).bind
    intro state _
    exact rest state

end Carries

end Outcomes

/-- Other ids for the symbols and declarations of a program. -/
structure Numbering where
  symbolId : SymbolId → SymbolId
  declId : DeclId → DeclId

namespace Numbering

variable (numbering : Numbering)

def fault : Fault → Fault
  | .missing table index => .missing table index
  | .endlessAccessor decl => .endlessAccessor (numbering.declId decl)

def error : ExtractError → ExtractError
  | .missingSourceFile name => .missingSourceFile name
  | .fault cause => .fault (numbering.fault cause)

def file (file : SourceFile) : SourceFile :=
  { file with
    moduleSymbol := file.moduleSymbol.map numbering.symbolId
    statements := file.statements.map numbering.symbolId }

def symbol (symbol : Symbol) : Symbol :=
  { symbol with
    declarations := symbol.declarations.map numbering.declId
    parent := symbol.parent.map numbering.symbolId
    exports := symbol.exports.map numbering.symbolId
    aliasOf := symbol.aliasOf.map numbering.symbolId }

def declaration (decl : Declaration) : Declaration :=
  { decl with
    parameters := decl.parameters.map numbering.declId
    members := decl.members.map numbering.declId
    body := decl.body.map numbering.symbolId
    symbol := decl.symbol.map numbering.symbolId }

def collected (module : CollectedModule) : CollectedModule :=
  { module with symbol := numbering.symbolId module.symbol }

def export_ (export_ : ResolvedExport) : ResolvedExport :=
  { export_ with
    symbol := numbering.symbolId export_.symbol
    target := export_.target.map numbering.symbolId }

def head (head : ModuleHead) : ModuleHead := { head with symbol := numbering.symbolId head.symbol }

def visit : Visit → Visit
  | .enter head => .enter (numbering.head head)
  | .meet head export_ => .meet (numbering.head head) (numbering.export_ export_)
  | .leave head => .leave (numbering.head head)

def task : Task → Task
  | .walk module => .walk (numbering.symbolId module)
  | .visit visit => .visit (numbering.visit visit)

def walked (result : List Visit × List SymbolId) : List Visit × List SymbolId :=
  (result.1.map numbering.visit, result.2.map numbering.symbolId)

end Numbering

/-- Under its new id the other program has every entry of the program, which names other entries by
their new ids. No two entries get the same id; files keep theirs. -/
structure Embeds (numbering : Numbering) (program other : Program) : Prop where
  symbolIds : Function.Injective numbering.symbolId
  declIds : Function.Injective numbering.declId
  file : ∀ {id file}, program.file id = .ok file → other.file id = .ok (numbering.file file)
  symbol : ∀ {id symbol}, program.symbol id = .ok symbol →
    other.symbol (numbering.symbolId id) = .ok (numbering.symbol symbol)
  declaration : ∀ {id decl}, program.declaration id = .ok decl →
    other.declaration (numbering.declId id) = .ok (numbering.declaration decl)

namespace Embeds

variable {numbering : Numbering} {program other : Program}

/-- A trail through renamed entries passes the renamed ids, if it stays among ids that have entries. -/
theorem follow_carries {ι δ : Type} [DecidableEq ι] {source otherSource : Trail.Source ι δ Fault}
    {next otherNext : δ → Except Fault (Option ι)} {rename : ι → ι} {change : δ → δ}
    (injective : Function.Injective rename) (good : ι → Prop)
    (get : ∀ id, good id → Carries numbering.fault change (source.get id) (otherSource.get (rename id)))
    (step : ∀ id, good id → Returns
      (fun entry => Carries numbering.fault (Option.map rename) (next entry) (otherNext (change entry)) ∧
        ∀ successor, next entry = .ok (some successor) → good successor)
      (source.get id))
    (seen : List ι) (id : ι) (start : good id) :
    Carries numbering.fault (List.map (Prod.map rename change)) (Trail.follow source next seen id)
      (Trail.follow otherSource otherNext (seen.map rename) (rename id)) := by
  rw [follow_eq, follow_eq]
  by_cases known : id ∈ seen
  · rw [if_pos known, if_pos (List.mem_map_of_mem known)]
    rfl
  · -- Two ids with one new id would end the renamed trail too early.
    have fresh : rename id ∉ seen.map rename := by
      rwa [List.mem_map_of_injective injective]
    rw [if_neg known, if_neg fresh]
    obtain ⟨entry, found, carried, leads⟩ := step id start
    have foundToo := get id start
    rw [found] at foundToo ⊢
    refine Carries.bind foundToo fun _ same => ?_
    cases same
    refine carried.bind fun successor led => ?_
    cases successor with
    | none => rfl
    | some successor =>
      have rest := follow_carries injective good get step (id :: seen) successor (leads successor led)
      exact rest.bind fun chain _ => rfl
termination_by Trail.unseen source.ids seen
decreasing_by exact Trail.unseen_cons_lt (source.mem_ids ‹_›) ‹_›

variable (embeds : Embeds numbering program other) (closed : Closed program)

include embeds closed

theorem file_carries {id : FileId} (held : program.holds (.file id)) :
    Carries numbering.fault numbering.file (program.file id) (other.file id) := by
  obtain ⟨file, found, _⟩ := file_returns closed held
  rw [found, embeds.file found]
  rfl

theorem symbol_carries {id : SymbolId} (held : program.holds (.symbol id)) :
    Carries numbering.fault numbering.symbol (program.symbol id) (other.symbol (numbering.symbolId id)) := by
  obtain ⟨symbol, found, _⟩ := symbol_returns closed held
  rw [found, embeds.symbol found]
  rfl

theorem declaration_carries {id : DeclId} (held : program.holds (.decl id)) :
    Carries numbering.fault numbering.declaration (program.declaration id)
      (other.declaration (numbering.declId id)) := by
  obtain ⟨decl, found, _⟩ := declaration_returns closed held
  rw [found, embeds.declaration found]
  rfl

theorem trail_carries {next otherNext : Symbol → Except Fault (Option SymbolId)}
    (leads : ∀ symbol, SymbolHeld program symbol → Returns (TargetHeld program) (next symbol))
    (carried : ∀ symbol, SymbolHeld program symbol →
      Carries numbering.fault (Option.map numbering.symbolId) (next symbol) (otherNext (numbering.symbol symbol)))
    {id : SymbolId} (held : program.holds (.symbol id)) :
    Carries numbering.fault (List.map (Prod.map numbering.symbolId numbering.symbol))
      (Trail.follow program.symbolSource next [] id)
      (Trail.follow other.symbolSource otherNext [] (numbering.symbolId id)) := by
  apply follow_carries embeds.symbolIds (fun id => program.holds (.symbol id)) _ _ [] id held
  · intro id held
    exact embeds.symbol_carries closed held
  · intro id held
    apply (symbol_returns closed held).weaken
    intro symbol _ inside
    refine ⟨carried symbol inside, ?_⟩
    intro successor led
    have known := leads symbol inside
    rw [led] at known
    exact targetHeld_some.mp (Returns.ok_iff.mp known)

theorem resolveAlias_carries {symbol : SymbolId} (held : program.holds (.symbol symbol)) :
    Carries numbering.fault (Option.map numbering.symbolId) (program.resolveAlias symbol)
      (other.resolveAlias (numbering.symbolId symbol)) := by
  refine (embeds.trail_carries closed ?_ ?_ held).bind fun chain _ => ?_
  · intro symbol inside
    refine .pure ?_
    split
    · exact inside.aliasOf
    · exact targetHeld_none
  · intro symbol _
    exact Carries.ok_ite rfl rfl
  · rw [List.getLast?_map]
    cases chain.getLast? with
    | none => rfl
    | some pair => exact Carries.ok_ite rfl rfl

theorem resolveExport_carries {symbol : SymbolId} (held : program.holds (.symbol symbol)) :
    Carries numbering.fault numbering.export_ (program.resolveExport symbol)
      (other.resolveExport (numbering.symbolId symbol)) := by
  apply (embeds.symbol_carries closed held).bind
  intro entry _
  exact (embeds.resolveAlias_carries closed held).bind fun target _ => rfl

theorem resolveExports_carries {module : SymbolId} (held : program.holds (.symbol module)) :
    Carries numbering.fault (List.map numbering.export_) (program.resolveExports module)
      (other.resolveExports (numbering.symbolId module)) := by
  apply (embeds.symbol_carries closed held).after (symbol_returns closed held)
  intro symbol inside
  apply Carries.mapM
  intro listed member
  exact embeds.resolveExport_carries closed (inside.exports listed member)

theorem sourceFileName?_carries {decls : List DeclId} (held : DeclsHeld program decls) :
    Carries numbering.fault id (program.sourceFileName? decls)
      (other.sourceFileName? (decls.map numbering.declId)) := by
  induction decls with
  | nil => rfl
  | cons first rest ih =>
    have firstHeld := held first List.mem_cons_self
    apply (embeds.declaration_carries closed firstHeld).after (declaration_returns closed firstHeld)
    intro decl inside
    change Carries _ _ (if decl.kind = .sourceFile then _ else _) (if decl.kind = .sourceFile then _ else _)
    split
    · exact (embeds.file_carries closed inside.file).bind fun _ _ => rfl
    · exact ih fun id member => held id (List.mem_cons_of_mem _ member)

theorem nameOfModule_carries (base : String) {symbol : Symbol} (inside : SymbolHeld program symbol) :
    Carries numbering.fault id (program.nameOfModule base symbol)
      (other.nameOfModule base (numbering.symbol symbol)) := by
  apply (embeds.sourceFileName?_carries closed inside.declarations).bind
  intro name _
  cases name <;> rfl

theorem outerModule_carries {symbol : Symbol} (inside : SymbolHeld program symbol) :
    Carries numbering.fault (Option.map numbering.symbolId) (program.outerModule symbol)
      (other.outerModule (numbering.symbol symbol)) := by
  apply (embeds.sourceFileName?_carries closed inside.declarations).bind
  intro name _
  cases name <;> rfl

theorem moduleId_carries (base : String) {module : SymbolId} (held : program.holds (.symbol module)) :
    Carries numbering.fault id (program.moduleId base module)
      (other.moduleId base (numbering.symbolId module)) := by
  have returns := trail_returns closed (fun _ => outerModule_returns closed) held
  refine (embeds.trail_carries closed (fun _ => outerModule_returns closed)
    (fun _ => embeds.outerModule_carries closed) held).after returns fun chain all => ?_
  have names : Carries numbering.fault (List.map id)
      (chain.mapM fun pair => program.nameOfModule base pair.2)
      ((chain.map (Prod.map numbering.symbolId numbering.symbol)).mapM fun pair =>
        other.nameOfModule base pair.2) := by
    apply Carries.mapM
    intro pair member
    exact embeds.nameOfModule_carries closed base (all pair member).2
  apply names.bind
  intro listed _
  rw [List.map_id]
  rfl

theorem nearestModule_carries {symbol : SymbolId} (held : program.holds (.symbol symbol)) :
    Carries numbering.fault (Option.map numbering.symbolId) (program.nearestModule symbol)
      (other.nearestModule (numbering.symbolId symbol)) := by
  refine (embeds.trail_carries closed ?_ ?_ held).bind fun chain _ => ?_
  · intro symbol inside
    refine .pure ?_
    split
    · exact targetHeld_none
    · exact inside.parent
  · intro symbol _
    exact Carries.ok_ite rfl rfl
  · rw [List.getLast?_map]
    cases chain.getLast? with
    | none => rfl
    | some pair => exact Carries.ok_ite rfl rfl

theorem moduleAround_carries {symbol : Symbol} (inside : SymbolHeld program symbol) :
    Carries numbering.fault (Option.map numbering.symbolId) (program.moduleAround symbol)
      (other.moduleAround (numbering.symbol symbol)) := by
  have held := inside.parent
  unfold Program.moduleAround Numbering.symbol
  cases named : symbol.parent with
  | none => rfl
  | some parent => exact embeds.nearestModule_carries closed (targetHeld_some.mp (named ▸ held))

theorem fileModuleId?_carries (base : String) {symbol : Symbol} (inside : SymbolHeld program symbol) :
    Carries numbering.fault id (program.fileModuleId? base symbol)
      (other.fileModuleId? base (numbering.symbol symbol)) := by
  have held := inside.declarations
  unfold Program.fileModuleId? Numbering.symbol
  cases listed : symbol.declarations with
  | nil => rfl
  | cons first rest =>
    have firstHeld := held first (by simp [listed])
    apply (embeds.declaration_carries closed firstHeld).after (declaration_returns closed firstHeld)
    intro decl declInside
    apply (embeds.file_carries closed declInside.file).after (file_returns closed declInside.file)
    intro file fileInside
    have moduleHeld := fileInside.module
    unfold Numbering.file
    cases named : file.moduleSymbol with
    | none => rfl
    | some module =>
      exact (embeds.moduleId_carries closed base (targetHeld_some.mp (named ▸ moduleHeld))).bind
        fun _ _ => rfl

theorem owningModuleId_carries (base : String) {symbol : SymbolId} (held : program.holds (.symbol symbol)) :
    Carries numbering.fault id (program.owningModuleId base symbol)
      (other.owningModuleId base (numbering.symbolId symbol)) := by
  apply (embeds.symbol_carries closed held).after (symbol_returns closed held)
  intro entry inside
  apply (embeds.moduleAround_carries closed inside).after (moduleAround_returns closed inside)
  intro around aroundHeld
  cases around with
  | none => exact embeds.fileModuleId?_carries closed base inside
  | some module =>
    exact (embeds.moduleId_carries closed base (targetHeld_some.mp aroundHeld)).bind fun _ _ => rfl

theorem firstFileName_carries {decls : List DeclId} (held : DeclsHeld program decls) :
    Carries numbering.fault id (program.firstFileName decls)
      (other.firstFileName (decls.map numbering.declId)) := by
  cases decls with
  | nil => rfl
  | cons first rest =>
    have firstHeld := held first List.mem_cons_self
    apply (embeds.declaration_carries closed firstHeld).after (declaration_returns closed firstHeld)
    intro decl inside
    exact (embeds.file_carries closed inside.file).bind fun _ _ => rfl

theorem moduleHead_carries (base : String) {module : SymbolId} (held : program.holds (.symbol module)) :
    Carries numbering.fault numbering.head (program.moduleHead base module)
      (other.moduleHead base (numbering.symbolId module)) := by
  apply (embeds.symbol_carries closed held).after (symbol_returns closed held)
  intro symbol inside
  apply (embeds.firstFileName_carries closed inside.declarations).bind
  intro fileName _
  apply (embeds.moduleId_carries closed base held).bind
  intro moduleId _
  exact (embeds.nameOfModule_carries closed base inside).bind fun _ _ => rfl

theorem soleBody_carries {symbol : Symbol} (inside : SymbolHeld program symbol) :
    Carries numbering.fault (Option.map numbering.symbolId) (program.soleBody symbol)
      (other.soleBody (numbering.symbol symbol)) := by
  have held := inside.declarations
  unfold Program.soleBody Numbering.symbol
  cases symbol.exports with
  | cons export_ exports => rfl
  | nil =>
    match listed : symbol.declarations with
    | [] => rfl
    | _ :: _ :: _ => rfl
    | [only] =>
      have onlyHeld := held only (by simp [listed])
      apply (embeds.declaration_carries closed onlyHeld).bind
      intro decl _
      exact Carries.ok_ite rfl rfl

theorem closestExporting_carries {symbol : SymbolId} (held : program.holds (.symbol symbol)) :
    Carries numbering.fault numbering.symbolId (program.closestExporting symbol)
      (other.closestExporting (numbering.symbolId symbol)) := by
  apply (embeds.trail_carries closed (fun _ => soleBody_returns closed)
    (fun _ => embeds.soleBody_carries closed) held).bind
  intro chain _
  apply Carries.ok
  rw [List.getLast?_map]
  cases chain.getLast? <;> rfl

theorem modulesOfFile_carries {file : FileId} (held : program.holds (.file file)) :
    Carries numbering.fault (List.map numbering.collected) (program.modulesOfFile file)
      (other.modulesOfFile file) := by
  apply (embeds.file_carries closed held).after (file_returns closed held)
  intro entry inside
  unfold Numbering.file
  cases entry.moduleSymbol with
  | some symbol => rfl
  | none =>
    apply Carries.mapM
    intro symbol member
    exact (embeds.closestExporting_carries closed (inside.statements symbol member)).bind fun _ _ => rfl

theorem modulesNamed_carries {name : String} (found : other.findFile? name = program.findFile? name) :
    Carries numbering.error (List.map numbering.collected) (program.modulesNamed name)
      (other.modulesNamed name) := by
  unfold Program.modulesNamed
  rw [found]
  cases located : program.findFile? name with
  | none => rfl
  | some file =>
    exact (embeds.modulesOfFile_carries closed (held_of_findFile? located)).mapError fun _ => rfl

theorem collectModules_carries {names : List String}
    (found : ∀ name ∈ names, other.findFile? name = program.findFile? name) :
    Carries numbering.error (List.map numbering.collected) (program.collectModules names)
      (other.collectModules names) := by
  have each : Carries numbering.error (List.map (List.map numbering.collected))
      (names.mapM program.modulesNamed) ((names.map id).mapM other.modulesNamed) := by
    apply Carries.mapM
    intro name member
    exact embeds.modulesNamed_carries closed (found name member)
  rw [List.map_id] at each
  apply each.bind
  intro modules _
  apply Carries.ok
  rw [List.map_flatten]

theorem taskOf_carries (head : ModuleHead) {export_ : ResolvedExport}
    (held : TargetHeld program export_.target) :
    Carries numbering.fault numbering.task (program.taskOf head export_)
      (other.taskOf (numbering.head head) (numbering.export_ export_)) := by
  obtain ⟨name, symbol, target⟩ := export_
  cases target with
  | none => rfl
  | some target =>
    apply (embeds.symbol_carries closed (targetHeld_some.mp held)).bind
    intro symbol _
    exact Carries.ok_ite rfl rfl

theorem retainedExports_carries (options : Options) {module : SymbolId}
    (held : program.holds (.symbol module)) :
    Carries numbering.fault (List.map numbering.export_) (program.retainedExports options module)
      (other.retainedExports options (numbering.symbolId module)) := by
  apply (embeds.resolveExports_carries closed held).bind
  intro exports _
  apply Carries.ok
  rw [Options.retain, List.filter_map]
  rfl

theorem enterModule_carries (options : Options) {module : SymbolId} (held : program.holds (.symbol module)) :
    Carries numbering.fault (Prod.map numbering.head (List.map numbering.task))
      (program.enterModule options module) (other.enterModule options (numbering.symbolId module)) := by
  apply (embeds.moduleHead_carries closed options.baseDir held).bind
  intro head _
  apply (embeds.retainedExports_carries closed options held).after (retainedExports_returns closed options held)
  intro exports all
  have tasks : Carries numbering.fault (List.map numbering.task) (exports.mapM (program.taskOf head))
      ((exports.map numbering.export_).mapM (other.taskOf (numbering.head head))) := by
    apply Carries.mapM
    intro export_ member
    exact embeds.taskOf_carries closed head (all export_ member)
  exact tasks.bind fun _ _ => rfl

section Walk

variable {options : Options} {visited : List SymbolId} {rest : List Task}

omit embeds closed in
theorem walk_visit_carries (visit : Visit)
    (remaining : Carries numbering.fault numbering.walked
      (program.walk options visited rest)
      (other.walk options (visited.map numbering.symbolId) (rest.map numbering.task))) :
    Carries numbering.fault numbering.walked
      ((program.walk options visited rest).map fun (visits, known) => (visit :: visits, known))
      (other.walk options (visited.map numbering.symbolId) ((.visit visit :: rest).map numbering.task)) := by
  have step : other.walk options (visited.map numbering.symbolId) ((.visit visit :: rest).map numbering.task) =
      (other.walk options (visited.map numbering.symbolId) (rest.map numbering.task)).map
        fun (visits, known) => (numbering.visit visit :: visits, known) := by
    rw [List.map_cons, Numbering.task, Program.walk]
    cases other.walk options (visited.map numbering.symbolId) (rest.map numbering.task) <;> rfl
  rw [step]
  exact remaining.map fun _ => rfl

theorem walk_enter_carries {module : SymbolId} {head : ModuleHead} {tasks : List Task}
    (fresh : module ∉ visited) (opened : program.enterModule options module = .ok (head, tasks))
    (held : program.holds (.symbol module))
    (remaining : Carries numbering.fault numbering.walked
      (program.walk options (module :: visited) (tasks ++ .visit (.leave head) :: rest))
      (other.walk options ((module :: visited).map numbering.symbolId)
        ((tasks ++ .visit (.leave head) :: rest).map numbering.task))) :
    Carries numbering.fault numbering.walked
      ((program.walk options (module :: visited) (tasks ++ .visit (.leave head) :: rest)).map
        fun (visits, known) => (.enter head :: visits, known))
      (other.walk options (visited.map numbering.symbolId) ((.walk module :: rest).map numbering.task)) := by
  have openedToo := embeds.enterModule_carries closed options held
  rw [opened] at openedToo
  have freshToo : numbering.symbolId module ∉ visited.map numbering.symbolId := by
    rwa [List.mem_map_of_injective embeds.symbolIds]
  rw [List.map_cons, Numbering.task, Growth.walk_enter freshToo openedToo]
  rw [List.map_append, List.map_cons, List.map_cons] at remaining
  exact remaining.map fun _ => rfl

/-- The walk over renumbered tasks makes the renumbered visits. -/
theorem walk_carries (pending : List Task) (held : ∀ task ∈ pending, TaskHeld program task) :
    Carries numbering.fault numbering.walked
      (program.walk options visited pending)
      (other.walk options (visited.map numbering.symbolId) (pending.map numbering.task)) := by
  fun_induction Program.walk program options visited pending with
  | case1 visited =>
    rw [List.map_nil, Program.walk]
    rfl
  | case2 visited visit rest fault failed ih =>
    have step := walk_visit_carries visit (ih fun task member => held task (List.mem_cons_of_mem _ member))
    rwa [failed] at step
  | case3 visited visit rest visits after walked ih =>
    have step := walk_visit_carries visit (ih fun task member => held task (List.mem_cons_of_mem _ member))
    rwa [walked] at step
  | case4 visited module rest known ih =>
    rw [List.map_cons, Numbering.task, Program.walk, if_pos (List.mem_map_of_mem known)]
    exact ih fun task member => held task (List.mem_cons_of_mem _ member)
  | case5 visited module rest fresh fault failed =>
    have entered := enterModule_returns closed options (held (.walk module) List.mem_cons_self)
    simp [failed] at entered
  | case6 visited module rest fresh head tasks opened fault failed ih =>
    have step := embeds.walk_enter_carries closed fresh opened (held (.walk module) List.mem_cons_self)
      (ih (pending_held closed opened held))
    rwa [failed] at step
  | case7 visited module rest fresh head tasks opened visits after walked ih =>
    have step := embeds.walk_enter_carries closed fresh opened (held (.walk module) List.mem_cons_self)
      (ih (pending_held closed opened held))
    rwa [walked] at step

end Walk

end Embeds

end ApiDocs.Proofs
