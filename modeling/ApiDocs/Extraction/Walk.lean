import ApiDocs.Extraction.Describe

/-!
The walk over modules. It enters each module once, meets its exports in order, goes into those that
are namespaces, and leaves the module after them. Main statement: the walk ends, because a module is
entered at most once and gives no more to do than it has exports.
-/

namespace ApiDocs

inductive Visit where
  | enter (head : ModuleHead)
  /-- An export of the module that is not a namespace. -/
  | meet (head : ModuleHead) (export_ : ResolvedExport)
  | leave (head : ModuleHead)
  deriving DecidableEq

/-- What is still to be done on a walk. -/
inductive Task where
  | walk (module : SymbolId)
  | visit (visit : Visit)
  deriving DecidableEq

/-- The exports whose name is not ignored, in their order. -/
def Options.retain (options : Options) (exports : List ResolvedExport) : List ResolvedExport :=
  exports.filter (!options.ignores ·.name)

namespace Program

def retainedExports (program : Program) (options : Options) (id : SymbolId) :
    Except Fault (List ResolvedExport) := do
  return options.retain (← program.resolveExports id)

/-- What an export gives to do: a namespace is walked, anything else is met. -/
def taskOf (program : Program) (head : ModuleHead) (export_ : ResolvedExport) :
    Except Fault Task :=
  match export_.target with
  | none => .ok (.visit (.meet head export_))
  | some target => do
    let symbol ← program.symbol target
    return if isNamespaceOnly symbol.flags then .walk target else .visit (.meet head export_)

/-- The head of a module and what its exports give to do. -/
def enterModule (program : Program) (options : Options) (id : SymbolId) :
    Except Fault (ModuleHead × List Task) := do
  let head ← program.moduleHead options.baseDir id
  let exports ← program.retainedExports options id
  return (head, ← exports.mapM (program.taskOf head))

theorem mem_symbolIds_of_enterModule {program : Program} {options : Options} {id : SymbolId}
    {result : ModuleHead × List Task} (entered : program.enterModule options id = .ok result) :
    id ∈ program.symbolIds := by
  cases found : program.symbol id with
  | error fault => simp [enterModule, moduleHead, found, bind, Except.bind] at entered
  | ok symbol => exact mem_symbolIds found

def mostExports (program : Program) : Nat :=
  (program.symbols.toList.map (·.exports.length)).max?.getD 0

theorem length_exports_le {program : Program} {id : SymbolId} {symbol : Symbol}
    (found : program.symbol id = .ok symbol) : symbol.exports.length ≤ program.mostExports := by
  unfold Program.symbol at found
  split at found
  · rename_i inside
    cases found
    have member := Array.mem_toList_iff.mpr (Array.mem_of_getElem? inside)
    exact List.le_max?_getD_of_mem (List.mem_map.mpr ⟨symbol, member, rfl⟩)
  · cases found

theorem length_of_mapM {α β ε : Type} {items : List α} {body : α → Except ε β} {results : List β}
    (returned : items.mapM body = .ok results) : results.length = items.length := by
  induction items generalizing results with
  | nil => cases returned; rfl
  | cons item items ih =>
    rw [List.mapM_cons] at returned
    cases first : body item with
    | error failure => simp [first, bind, Except.bind] at returned
    | ok value =>
      cases rest : items.mapM body with
      | error failure => simp [first, rest, bind, Except.bind] at returned
      | ok values =>
        simp only [first, rest, bind, Except.bind, pure, Except.pure] at returned
        cases returned
        simp [ih rest]

/-- A module gives at most as much to do as the longest list of exports is long. -/
theorem length_tasks_le {program : Program} {options : Options} {id : SymbolId} {head : ModuleHead}
    {tasks : List Task} (entered : program.enterModule options id = .ok (head, tasks)) :
    tasks.length ≤ program.mostExports := by
  cases found : program.symbol id with
  | error fault => simp [enterModule, moduleHead, found, bind, Except.bind] at entered
  | ok symbol =>
    cases listed : symbol.exports.mapM program.resolveExport with
    | error fault =>
      cases named : program.moduleHead options.baseDir id <;>
        simp [enterModule, retainedExports, resolveExports, named, found, listed, bind,
          Except.bind] at entered
    | ok exports =>
      cases named : program.moduleHead options.baseDir id with
      | error fault => simp [enterModule, named, bind, Except.bind] at entered
      | ok known =>
        simp only [enterModule, retainedExports, resolveExports, named, found, listed, bind,
          Except.bind, pure, Except.pure] at entered
        split at entered
        · cases entered
        · rename_i returned
          cases entered
          have retained : (options.retain exports).length ≤ exports.length := List.length_filter_le _ exports
          have := length_exports_le found
          rw [length_of_mapM returned]
          rw [length_of_mapM listed] at retained
          omega

/-- The visits that the pending tasks lead to, and all modules visited after them. -/
def walk (program : Program) (options : Options) (visited : List SymbolId) (pending : List Task) :
    Except Fault (List Visit × List SymbolId) :=
  match pending with
  | [] => .ok ([], visited)
  | .visit visit :: rest =>
    match program.walk options visited rest with
    | .error fault => .error fault
    | .ok (visits, visited) => .ok (visit :: visits, visited)
  | .walk id :: rest =>
    if id ∈ visited then program.walk options visited rest
    else
      match _ : program.enterModule options id with
      | .error fault => .error fault
      | .ok (head, tasks) =>
        match program.walk options (id :: visited) (tasks ++ .visit (.leave head) :: rest) with
        | .error fault => .error fault
        | .ok (visits, visited) => .ok (.enter head :: visits, visited)
termination_by
  Trail.unseen program.symbolIds visited * (program.mostExports + 2) + pending.length
decreasing_by
  · exact Nat.lt_succ_self _
  · exact Nat.lt_succ_self _
  · rename_i fresh entered
    have fewer := Trail.unseen_cons_lt (mem_symbolIds_of_enterModule entered) fresh
    have most := length_tasks_le entered
    have less := Nat.mul_le_mul_right (program.mostExports + 2) fewer
    rw [Nat.succ_mul] at less
    simp only [List.length_append, List.length_cons]
    omega

end Program

end ApiDocs
