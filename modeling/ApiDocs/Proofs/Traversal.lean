import ApiDocs.Extraction.Walk
import ApiDocs.Proofs.Outcome
import Mathlib.Logic.Relation

/-! What the walk over modules visits. It enters the modules that the pending ones lead to, each of
them once, and meets all exports of a module that are not namespaces in the order of its list. -/

namespace ApiDocs.Proofs

/-- The export stands for a namespace that is nothing else besides. -/
def isNested (program : Program) (export_ : ResolvedExport) : Bool :=
  match export_.target with
  | none => false
  | some target =>
    match program.symbol target with
    | .ok symbol => isNamespaceOnly symbol.flags
    | .error _ => false

/-- The module exports the other one as a namespace, under a name that is not ignored. -/
def Nests (program : Program) (options : Options) (module inner : SymbolId) : Prop :=
  ∃ exports, program.resolveExports module = .ok exports ∧
    ∃ export_ ∈ exports, options.ignores export_.name = false ∧ isNested program export_ = true ∧
      export_.target = some inner

/-- Being an export to document, under a name that is not ignored. -/
def isDocumented (program : Program) (options : Options) (export_ : ResolvedExport) : Bool :=
  !options.ignores export_.name && !isNested program export_

theorem taskOf_cases {program : Program} {head : ModuleHead} {export_ : ResolvedExport} {task : Task}
    (given : program.taskOf head export_ = .ok task) :
    isNested program export_ = false ∧ task = .visit (.meet head export_) ∨
      isNested program export_ = true ∧
        ∃ target, export_.target = some target ∧ task = .walk target := by
  unfold Program.taskOf at given
  unfold isNested
  cases aimed : export_.target with
  | none =>
    rw [aimed] at given
    cases given
    exact .inl ⟨rfl, rfl⟩
  | some target =>
    simp only [aimed] at given
    obtain ⟨symbol, found, chosen⟩ := bind_ok_iff.mp given
    simp only [found]
    cases chosen
    cases isNamespaceOnly symbol.flags with
    | false => exact .inl ⟨rfl, rfl⟩
    | true => exact .inr ⟨rfl, target, rfl, rfl⟩

theorem moduleHead_facts {program : Program} {base : String} {id : SymbolId} {head : ModuleHead}
    (named : program.moduleHead base id = .ok head) :
    head.symbol = id ∧ program.moduleId base id = .ok head.id := by
  obtain ⟨symbol, _, rest⟩ := bind_ok_iff.mp named
  obtain ⟨fileName, _, rest⟩ := bind_ok_iff.mp rest
  obtain ⟨moduleId, identified, rest⟩ := bind_ok_iff.mp rest
  obtain ⟨name, _, built⟩ := bind_ok_iff.mp rest
  cases built
  exact ⟨rfl, identified⟩

/-- What entering a module finds: its head, its exports and a task for each one that is retained. -/
theorem enterModule_cases {program : Program} {options : Options} {id : SymbolId} {head : ModuleHead}
    {tasks : List Task} (entered : program.enterModule options id = .ok (head, tasks)) :
    ∃ exports, program.moduleHead options.baseDir id = .ok head ∧
      program.resolveExports id = .ok exports ∧
      List.Forall₂ (fun export_ task => program.taskOf head export_ = .ok task)
        (exports.filter (!options.ignores ·.name)) tasks := by
  obtain ⟨found, named, rest⟩ := bind_ok_iff.mp entered
  obtain ⟨retained, listed, rest⟩ := bind_ok_iff.mp rest
  obtain ⟨given, mapped, built⟩ := bind_ok_iff.mp rest
  obtain ⟨exports, resolved, kept⟩ := bind_ok_iff.mp listed
  cases built
  cases kept
  exact ⟨exports, named, resolved, mapM_ok_iff.mp mapped⟩

/-- The exports that are met, each with the head of its module. -/
def met (visits : List Visit) : List (ModuleHead × ResolvedExport) :=
  visits.filterMap fun
    | .meet head export_ => some (head, export_)
    | _ => none

def enteredHeads (visits : List Visit) : List ModuleHead :=
  visits.filterMap fun
    | .enter head => some head
    | _ => none

def visitsIn (tasks : List Task) : List Visit :=
  tasks.filterMap fun
    | .visit visit => some visit
    | .walk _ => none

@[simp] theorem met_nil : met [] = [] := rfl

@[simp] theorem met_meet (head : ModuleHead) (export_ : ResolvedExport) (visits : List Visit) :
    met (.meet head export_ :: visits) = (head, export_) :: met visits := rfl

@[simp] theorem met_enter (head : ModuleHead) (visits : List Visit) :
    met (.enter head :: visits) = met visits := rfl

@[simp] theorem met_leave (head : ModuleHead) (visits : List Visit) :
    met (.leave head :: visits) = met visits := rfl

@[simp] theorem met_append (first last : List Visit) : met (first ++ last) = met first ++ met last :=
  List.filterMap_append

theorem flatMap_met (visits : List Visit) : visits.flatMap (fun visit => met [visit]) = met visits := by
  induction visits with
  | nil => rfl
  | cons visit visits ih => rw [List.flatMap_cons, ih, ← met_append, List.singleton_append]

@[simp] theorem enteredHeads_nil : enteredHeads [] = [] := rfl

@[simp] theorem enteredHeads_meet (head : ModuleHead) (export_ : ResolvedExport)
    (visits : List Visit) : enteredHeads (.meet head export_ :: visits) = enteredHeads visits := rfl

@[simp] theorem enteredHeads_enter (head : ModuleHead) (visits : List Visit) :
    enteredHeads (.enter head :: visits) = head :: enteredHeads visits := rfl

@[simp] theorem enteredHeads_leave (head : ModuleHead) (visits : List Visit) :
    enteredHeads (.leave head :: visits) = enteredHeads visits := rfl

@[simp] theorem enteredHeads_append (first last : List Visit) :
    enteredHeads (first ++ last) = enteredHeads first ++ enteredHeads last :=
  List.filterMap_append

@[simp] theorem visitsIn_nil : visitsIn [] = [] := rfl

@[simp] theorem visitsIn_visit (visit : Visit) (tasks : List Task) :
    visitsIn (.visit visit :: tasks) = visit :: visitsIn tasks := rfl

@[simp] theorem visitsIn_walk (id : SymbolId) (tasks : List Task) :
    visitsIn (.walk id :: tasks) = visitsIn tasks := rfl

@[simp] theorem visitsIn_append (first last : List Task) :
    visitsIn (first ++ last) = visitsIn first ++ visitsIn last :=
  List.filterMap_append

def metBy (id : SymbolId) (visits : List Visit) : List (ModuleHead × ResolvedExport) :=
  (met visits).filter (·.1.symbol = id)

theorem metBy_append (id : SymbolId) (first last : List Visit) :
    metBy id (first ++ last) = metBy id first ++ metBy id last := by
  simp [metBy]

section Tasks

variable {program : Program} {options : Options} {id : SymbolId} {head : ModuleHead}
  {exports : List ResolvedExport} {tasks : List Task}

theorem met_tasks
    (related : List.Forall₂ (fun export_ task => program.taskOf head export_ = .ok task) exports tasks) :
    met (visitsIn tasks) = (exports.filter (!isNested program ·)).map (head, ·) := by
  induction related with
  | nil => rfl
  | cons given _ ih =>
    obtain ⟨plain, rfl⟩ | ⟨nested, target, _, rfl⟩ := taskOf_cases given
    · simpa [plain] using ih
    · simpa [nested] using ih

theorem enteredHeads_tasks
    (related : List.Forall₂ (fun export_ task => program.taskOf head export_ = .ok task) exports tasks) :
    enteredHeads (visitsIn tasks) = [] := by
  induction related with
  | nil => rfl
  | cons given _ ih =>
    obtain ⟨_, rfl⟩ | ⟨_, target, _, rfl⟩ := taskOf_cases given
    · simpa using ih
    · simpa using ih

theorem walk_mem_tasks
    (related : List.Forall₂ (fun export_ task => program.taskOf head export_ = .ok task) exports tasks)
    (inner : SymbolId) :
    .walk inner ∈ tasks ↔
      ∃ export_ ∈ exports, isNested program export_ = true ∧ export_.target = some inner := by
  induction related with
  | nil => simp
  | cons given _ ih =>
    obtain ⟨plain, rfl⟩ | ⟨nested, target, aimed, rfl⟩ := taskOf_cases given
    · simp [ih, plain]
    · simp [ih, nested, aimed, @eq_comm _ target]

theorem walk_mem_of_enter (entered : program.enterModule options id = .ok (head, tasks))
    (inner : SymbolId) : .walk inner ∈ tasks ↔ Nests program options id inner := by
  obtain ⟨exports, _, resolved, related⟩ := enterModule_cases entered
  rw [walk_mem_tasks related]
  constructor
  · rintro ⟨export_, member, nested, aimed⟩
    obtain ⟨listed, kept⟩ := List.mem_filter.mp member
    exact ⟨exports, resolved, export_, listed, by simpa using kept, nested, aimed⟩
  · rintro ⟨others, again, export_, listed, kept, nested, aimed⟩
    rw [resolved] at again
    cases again
    exact ⟨export_, List.mem_filter.mpr ⟨listed, by simpa using kept⟩, nested, aimed⟩

theorem met_symbol (entered : program.enterModule options id = .ok (head, tasks))
    {pair : ModuleHead × ResolvedExport} (member : pair ∈ met (visitsIn tasks)) :
    pair.1.symbol = id := by
  obtain ⟨exports, named, _, related⟩ := enterModule_cases entered
  rw [met_tasks related] at member
  obtain ⟨export_, _, rfl⟩ := List.mem_map.mp member
  exact (moduleHead_facts named).1

theorem metBy_tasks (entered : program.enterModule options id = .ok (head, tasks)) :
    metBy id (visitsIn tasks) = met (visitsIn tasks) :=
  List.filter_eq_self.mpr fun _ member => by simpa using met_symbol entered member

theorem metBy_tasks_of_ne (entered : program.enterModule options id = .ok (head, tasks))
    {other : SymbolId} (different : id ≠ other) : metBy other (visitsIn tasks) = [] :=
  List.filter_eq_nil_iff.mpr fun _ member => by simpa [met_symbol entered member] using different

/-- If all that is pending belongs to visited modules, this stays so when a module is entered. -/
theorem owned_enter (entered : program.enterModule options id = .ok (head, tasks))
    {visited : List SymbolId} {rest : List Task}
    (owned : ∀ pair ∈ met (visitsIn (.walk id :: rest)), pair.1.symbol ∈ visited) :
    ∀ pair ∈ met (visitsIn (tasks ++ .visit (.leave head) :: rest)), pair.1.symbol ∈ id :: visited := by
  intro pair member
  rw [visitsIn_append, met_append, visitsIn_visit, met_leave] at member
  rcases List.mem_append.mp member with member | member
  · exact List.mem_cons.mpr (.inl (met_symbol entered member))
  · exact List.mem_cons_of_mem _ (owned pair member)

end Tasks

/-- The runs of the walk: from what was visited and what is pending to the visits and to all that
was visited in the end. -/
inductive Walks (program : Program) (options : Options) :
    List SymbolId → List Task → List Visit → List SymbolId → Prop where
  | done {visited} : Walks program options visited [] [] visited
  | visit {visited visit rest visits after}
      (walked : Walks program options visited rest visits after) :
      Walks program options visited (.visit visit :: rest) (visit :: visits) after
  | skip {visited id rest visits after} (known : id ∈ visited)
      (walked : Walks program options visited rest visits after) :
      Walks program options visited (.walk id :: rest) visits after
  | enter {visited id rest head tasks visits after} (fresh : id ∉ visited)
      (entered : program.enterModule options id = .ok (head, tasks))
      (walked : Walks program options (id :: visited) (tasks ++ .visit (.leave head) :: rest) visits
        after) :
      Walks program options visited (.walk id :: rest) (.enter head :: visits) after

theorem walks_of_walk {program : Program} {options : Options} {visited after : List SymbolId}
    {pending : List Task} {visits : List Visit}
    (walked : program.walk options visited pending = .ok (visits, after)) :
    Walks program options visited pending visits after := by
  fun_induction Program.walk program options visited pending generalizing visits after with
  | case1 visited =>
    cases walked
    exact .done
  | case2 visited visit rest fault failed ih => cases walked
  | case3 visited visit rest restVisits restAfter returned ih =>
    cases walked
    exact .visit (ih returned)
  | case4 visited id rest known ih => exact .skip known (ih walked)
  | case5 visited id rest fresh fault failed => cases walked
  | case6 visited id rest fresh head tasks entered fault failed ih => cases walked
  | case7 visited id rest fresh head tasks entered restVisits restAfter returned ih =>
    cases walked
    exact .enter fresh entered (ih returned)

namespace Walks

variable {program : Program} {options : Options} {visited after : List SymbolId}
  {pending : List Task} {visits : List Visit}

theorem keeps (walks : Walks program options visited pending visits after) {id : SymbolId}
    (known : id ∈ visited) : id ∈ after := by
  induction walks with
  | done => exact known
  | visit _ ih => exact ih known
  | skip _ _ ih => exact ih known
  | enter _ _ _ ih => exact ih (List.mem_cons_of_mem _ known)

theorem visits_pending (walks : Walks program options visited pending visits after) {id : SymbolId}
    (waiting : .walk id ∈ pending) : id ∈ after := by
  induction walks with
  | done => cases waiting
  | visit _ ih => exact ih (by simpa using waiting)
  | skip known walked ih =>
    rcases List.mem_cons.mp waiting with same | waiting
    · cases same
      exact walked.keeps known
    · exact ih waiting
  | enter _ _ walked ih =>
    rcases List.mem_cons.mp waiting with same | waiting
    · cases same
      exact walked.keeps List.mem_cons_self
    · exact ih (by simp [waiting])

theorem nodup (walks : Walks program options visited pending visits after)
    (distinct : visited.Nodup) : after.Nodup := by
  induction walks with
  | done => exact distinct
  | visit _ ih => exact ih distinct
  | skip _ _ ih => exact ih distinct
  | enter fresh _ _ ih => exact ih (List.nodup_cons.mpr ⟨fresh, distinct⟩)

/-- A module that the walk has entered takes all modules along that it nests. -/
theorem closed (walks : Walks program options visited pending visits after) {id inner : SymbolId}
    (done : id ∈ after) (fresh : id ∉ visited) (nests : Nests program options id inner) :
    inner ∈ after := by
  induction walks with
  | done => exact absurd done fresh
  | visit _ ih => exact ih done fresh
  | skip _ _ ih => exact ih done fresh
  | @enter visited current rest head tasks visits after _ entered walked ih =>
    by_cases same : id = current
    · subst same
      have waiting := (walk_mem_of_enter entered inner).mpr nests
      exact walked.visits_pending (List.mem_append_left _ waiting)
    · exact ih done (by simp [same, fresh])

/-- The walk enters nothing that is not reached from what is pending. -/
theorem reached (walks : Walks program options visited pending visits after) {id : SymbolId}
    (done : id ∈ after) (fresh : id ∉ visited) :
    ∃ root, .walk root ∈ pending ∧ Relation.ReflTransGen (Nests program options) root id := by
  induction walks with
  | done => exact absurd done fresh
  | visit _ ih =>
    obtain ⟨root, waiting, path⟩ := ih done fresh
    exact ⟨root, List.mem_cons_of_mem _ waiting, path⟩
  | skip _ _ ih =>
    obtain ⟨root, waiting, path⟩ := ih done fresh
    exact ⟨root, List.mem_cons_of_mem _ waiting, path⟩
  | @enter visited current rest head tasks visits after _ entered walked ih =>
    by_cases same : id = current
    · subst same
      exact ⟨id, List.mem_cons_self, .refl⟩
    · obtain ⟨root, waiting, path⟩ := ih done (by simp [same, fresh])
      rcases List.mem_append.mp waiting with waiting | waiting
      · exact ⟨current, List.mem_cons_self,
          .head ((walk_mem_of_enter entered root).mp waiting) path⟩
      · exact ⟨root, List.mem_cons_of_mem _ (by simpa using waiting), path⟩

/-- The modules that were visited are those entered now, the latest first, and the earlier ones. -/
theorem after_eq (walks : Walks program options visited pending visits after)
    (none : enteredHeads (visitsIn pending) = []) :
    after = ((enteredHeads visits).map (·.symbol)).reverse ++ visited := by
  induction walks with
  | done => simp
  | @visit visited visit rest visits after walked ih =>
    cases visit with
    | enter head => simp at none
    | meet head export_ => simpa using ih (by simpa using none)
    | leave head => simpa using ih (by simpa using none)
  | skip _ _ ih => exact ih (by simpa using none)
  | enter _ entered _ ih =>
    obtain ⟨exports, named, _, related⟩ := enterModule_cases entered
    rw [ih (by simpa [enteredHeads_tasks related] using none)]
    simp [(moduleHead_facts named).1]

theorem head_known (walks : Walks program options visited pending visits after) {head : ModuleHead}
    (entered : head ∈ enteredHeads visits) (fresh : head ∉ enteredHeads (visitsIn pending)) :
    program.moduleHead options.baseDir head.symbol = .ok head := by
  induction walks with
  | done => cases entered
  | @visit visited visit rest visits after walked ih =>
    cases visit with
    | enter other =>
      simp only [visitsIn_visit, enteredHeads_enter, List.mem_cons, not_or] at entered fresh
      exact ih (entered.resolve_left fresh.1) fresh.2
    | meet other export_ => exact ih entered fresh
    | leave other => exact ih entered fresh
  | skip _ _ ih => exact ih entered fresh
  | enter _ opened _ ih =>
    obtain ⟨exports, named, _, related⟩ := enterModule_cases opened
    rcases List.mem_cons.mp entered with rfl | entered
    · rw [(moduleHead_facts named).1]
      exact named
    · exact ih entered (by simpa [enteredHeads_tasks related] using fresh)

theorem entered_of_done (walks : Walks program options visited pending visits after) {id : SymbolId}
    (done : id ∈ after) (fresh : id ∉ visited) :
    ∃ head tasks, program.enterModule options id = .ok (head, tasks) ∧ head ∈ enteredHeads visits := by
  induction walks with
  | done => exact absurd done fresh
  | @visit visited visit rest visits after walked ih =>
    obtain ⟨head, tasks, opened, entered⟩ := ih done fresh
    refine ⟨head, tasks, opened, ?_⟩
    cases visit with
    | enter other => exact List.mem_cons_of_mem _ entered
    | meet other export_ => exact entered
    | leave other => exact entered
  | skip _ _ ih => exact ih done fresh
  | @enter visited current rest head tasks visits after _ opened walked ih =>
    by_cases same : id = current
    · subst same
      exact ⟨head, tasks, opened, List.mem_cons_self⟩
    · obtain ⟨head, tasks, opened, entered⟩ := ih done (by simp [same, fresh])
      exact ⟨head, tasks, opened, List.mem_cons_of_mem _ entered⟩

theorem met_pending_or_entered (walks : Walks program options visited pending visits after)
    {pair : ModuleHead × ResolvedExport} (member : pair ∈ met visits) :
    pair ∈ met (visitsIn pending) ∨ pair.1 ∈ enteredHeads visits := by
  induction walks with
  | done => cases member
  | @visit visited visit rest visits after walked ih =>
    cases visit with
    | enter head => exact (ih member).imp_right (List.mem_cons_of_mem _)
    | meet head export_ =>
      rcases List.mem_cons.mp member with rfl | member
      · exact .inl List.mem_cons_self
      · exact (ih member).imp_left (List.mem_cons_of_mem _)
    | leave head => exact ih member
  | skip _ _ ih => exact ih member
  | @enter visited current rest head tasks visits after _ opened walked ih =>
    obtain ⟨exports, _, _, related⟩ := enterModule_cases opened
    rcases ih member with waiting | entered
    · simp only [visitsIn_append, visitsIn_visit, met_append, met_leave, List.mem_append,
        met_tasks related, List.mem_map] at waiting
      rcases waiting with ⟨export_, _, rfl⟩ | waiting
      · exact .inr List.mem_cons_self
      · exact .inl waiting
    · exact .inr (List.mem_cons_of_mem _ entered)

/-- What is met for a module that was visited before is what was pending for it. -/
theorem metBy_known (walks : Walks program options visited pending visits after)
    (owned : ∀ pair ∈ met (visitsIn pending), pair.1.symbol ∈ visited) {id : SymbolId}
    (known : id ∈ visited) : metBy id visits = metBy id (visitsIn pending) := by
  induction walks with
  | done => rfl
  | @visit visited visit rest visits after walked ih =>
    cases visit with
    | enter head => exact ih owned known
    | meet head export_ =>
      have rest := ih (fun pair member => owned pair (List.mem_cons_of_mem _ member)) known
      simp only [metBy, visitsIn_visit, met_meet, List.filter_cons] at rest ⊢
      rw [rest]
    | leave head => exact ih owned known
  | skip _ _ ih => exact ih owned known
  | @enter visited current rest head tasks visits after fresh opened walked ih =>
    have different : current ≠ id := fun same => fresh (same ▸ known)
    refine (ih (owned_enter opened owned) (List.mem_cons_of_mem _ known)).trans ?_
    rw [visitsIn_append, metBy_append, metBy_tasks_of_ne opened different]
    rfl

/-- What is met for a module that the walk enters are the exports that it documents. -/
theorem metBy_fresh (walks : Walks program options visited pending visits after)
    (owned : ∀ pair ∈ met (visitsIn pending), pair.1.symbol ∈ visited) {id : SymbolId}
    (done : id ∈ after) (fresh : id ∉ visited) {head : ModuleHead} {tasks : List Task}
    (entered : program.enterModule options id = .ok (head, tasks)) :
    metBy id visits = met (visitsIn tasks) := by
  induction walks with
  | done => exact absurd done fresh
  | @visit visited visit rest visits after walked ih =>
    cases visit with
    | enter other => exact ih owned done fresh
    | meet other export_ =>
      have kept := ih (fun pair member => owned pair (List.mem_cons_of_mem _ member)) done fresh
      have different : other.symbol ≠ id := fun same => fresh (same ▸ owned _ List.mem_cons_self)
      simpa [metBy, List.filter_cons, different] using kept
    | leave other => exact ih owned done fresh
  | skip _ _ ih => exact ih owned done fresh
  | @enter visited current rest other others visits after freshNow opened walked ih =>
    by_cases same : id = current
    · subst same
      rw [entered] at opened
      cases opened
      -- From here on the module counts as visited, so all that is met for it was pending.
      refine (walked.metBy_known (owned_enter entered owned) List.mem_cons_self).trans ?_
      rw [visitsIn_append, metBy_append, metBy_tasks entered, visitsIn_visit]
      have none : metBy id (.leave head :: visitsIn rest) = [] := by
        refine List.filter_eq_nil_iff.mpr fun pair member => ?_
        simpa using fun same : pair.1.symbol = id => fresh (same ▸ owned pair member)
      rw [none, List.append_nil]
    · exact ih (owned_enter opened owned) done (by simp [same, fresh])

end Walks

end ApiDocs.Proofs
