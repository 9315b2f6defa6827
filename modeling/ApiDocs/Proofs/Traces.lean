import ApiDocs.Proofs.Coverage
import ApiDocs.Proofs.Descriptions
import ApiDocs.Proofs.Growth

/-! The log of an extraction tells of its documents. Every module that is reached has one span. Within
it stand the entries for its exports, in the order of their documents, and the spans of the modules
that it nests. -/

namespace ApiDocs.Proofs.Traces

open Coverage Descriptions

/-- What is reported of an export, told from its document. -/
def entryOf (doc : ExportDoc) : LogEntry :=
  if doc.kind = .unknown then .unresolved doc.name doc.moduleId else .extracted doc.name doc.kind.docType

/-- What is logged while the same modules are open: documents of exports, and spans of modules with
all that is logged inside. -/
inductive Trace where
  | done
  | report (doc : ExportDoc) (rest : Trace)
  | span (head : ModuleHead) (inside rest : Trace)

namespace Trace

def log : Trace → List LogEntry
  | done => []
  | report doc rest => entryOf doc :: rest.log
  | span head inside rest => .opened head.id :: (inside.log ++ .closed head.id :: rest.log)

/-- All documents that are reported. -/
def docs : Trace → List ExportDoc
  | done => []
  | report doc rest => doc :: rest.docs
  | span _ inside rest => inside.docs ++ rest.docs

/-- The documents that are reported outside the spans. -/
def own : Trace → List ExportDoc
  | done => []
  | report doc rest => doc :: rest.own
  | span _ _ rest => rest.own

/-- The modules of all spans, in the order in which they are opened. -/
def modules : Trace → List ModuleHead
  | done => []
  | report _ rest => rest.modules
  | span head inside rest => head :: (inside.modules ++ rest.modules)

/-- What a span tells of its module, given the modules that were opened before. -/
structure SpanOf (program : Program) (options : Options) (opened : List SymbolId) (head : ModuleHead)
    (inside : Trace) : Prop where
  named : program.moduleId options.baseDir head.symbol = .ok head.id
  placed : ∀ doc ∈ inside.own, doc.moduleId = head.id
  exports : ∃ exports, program.resolveExports head.symbol = .ok exports ∧
    inside.own.map (·.name) = (exports.filter (isDocumented program options)).map (·.name)
  nested : ∀ inner, Nests program options head.symbol inner →
    inner ∈ inside.modules.map (·.symbol) ∨ inner = head.symbol ∨ inner ∈ opened

/-- Every span tells of its module: the exports to document are reported right inside it, and the
modules that it nests have their spans inside, unless they were opened before. -/
def Complete (program : Program) (options : Options) (opened : List SymbolId) : Trace → Prop
  | done => True
  | report _ rest => rest.Complete program options opened
  | span head inside rest => SpanOf program options opened head inside ∧
      inside.Complete program options (head.symbol :: opened) ∧
      rest.Complete program options
        ((inside.modules.map (·.symbol)).reverse ++ head.symbol :: opened)

end Trace

/-- The walk in one piece for each module: what it visits between entering and leaving the module is
a walk over the tasks of that module. -/
inductive Tours (program : Program) (options : Options) :
    List SymbolId → List Task → List Visit → List SymbolId → Prop where
  | done {visited} : Tours program options visited [] [] visited
  | meet {visited head export_ rest visits after}
      (toured : Tours program options visited rest visits after) :
      Tours program options visited (.visit (.meet head export_) :: rest) (.meet head export_ :: visits)
        after
  | skip {visited id rest visits after} (known : id ∈ visited)
      (toured : Tours program options visited rest visits after) :
      Tours program options visited (.walk id :: rest) visits after
  | span {visited id rest head tasks inside between visits after}
      (entered : program.enterModule options id = .ok (head, tasks))
      (within : Walks program options (id :: visited) tasks inside between)
      (toured : Tours program options (id :: visited) tasks inside between)
      (behind : Tours program options between rest visits after) :
      Tours program options visited (.walk id :: rest) (.enter head :: (inside ++ .leave head :: visits))
        after

section Walk

variable {program : Program} {options : Options} {visited after : List SymbolId}
  {visits : List Visit}

/-- Of what is pending, nothing enters or leaves a module without walking it. -/
def Plain (pending : List Task) : Prop :=
  ∀ visit ∈ visitsIn pending, ∃ head export_, visit = .meet head export_

theorem plain_of_enter {id : SymbolId} {head : ModuleHead} {tasks : List Task}
    (entered : program.enterModule options id = .ok (head, tasks)) : Plain tasks := by
  obtain ⟨exports, _, _, related⟩ := enterModule_cases entered
  intro visit waiting
  obtain ⟨task, member, given⟩ := List.mem_filterMap.mp waiting
  obtain ⟨export_, _, made⟩ := exists_related related member
  obtain ⟨_, rfl⟩ | ⟨_, target, _, rfl⟩ := taskOf_cases made
  · cases given
    exact ⟨head, export_, rfl⟩
  · cases given

theorem tours_of_walk {pending : List Task}
    (walked : program.walk options visited pending = .ok (visits, after)) (plain : Plain pending) :
    Tours program options visited pending visits after := by
  -- By the number of visits: the walks over the tasks of a module and over the rest both have fewer.
  induction size : visits.length using Nat.strongRecOn generalizing visited pending visits after with
  | _ size fewer =>
    subst size
    fun_induction Program.walk program options visited pending with
    | case1 visited =>
      cases walked
      exact .done
    | case2 visited visit rest fault failed ih => cases walked
    | case3 visited visit rest visits after returned ih =>
      cases walked
      obtain ⟨head, export_, rfl⟩ := plain visit List.mem_cons_self
      have others : Plain rest := fun other member => plain other (List.mem_cons_of_mem _ member)
      exact .meet (fewer _ (Nat.lt_succ_self _) returned others rfl)
    | case4 visited id rest known ih => exact .skip known (ih walked plain)
    | case5 visited id rest fresh fault failed => cases walked
    | case6 visited id rest fresh head tasks entered fault failed ih => cases walked
    | case7 visited id rest fresh head tasks entered visits after returned ih =>
      cases walked
      rw [Growth.walk_append] at returned
      obtain ⟨⟨inside, between⟩, within, others⟩ := bind_ok_iff.mp returned
      obtain ⟨⟨late, last⟩, leaves, joined⟩ := bind_ok_iff.mp others
      cases joined
      rw [Program.walk] at leaves
      split at leaves
      · cases leaves
      next _ visits known behind =>
        cases leaves
        refine .span entered (walks_of_walk within) (fewer _ ?_ within (plain_of_enter entered) rfl)
          (fewer _ ?_ behind plain rfl)
        · simp only [List.length_cons, List.length_append]
          omega
        · simp only [List.length_cons, List.length_append]
          omega

end Walk

section Logs

def docLabel (doc : ExportDoc) : String × String := (doc.moduleId, doc.name)

/-- What is logged and documented on the way of some visits. -/
inductive Logged : List Visit → List ExportDoc → List LogEntry → Prop where
  | nothing : Logged [] [] []
  | enter {head visits docs log} (logged : Logged visits docs log) :
      Logged (.enter head :: visits) docs (.opened head.id :: log)
  | meet {head export_ visits doc docs log} (labelled : docLabel doc = label (head, export_))
      (logged : Logged visits docs log) :
      Logged (.meet head export_ :: visits) (doc :: docs)
        (entryOf doc :: log)
  | leave {head visits docs log} (logged : Logged visits docs log) :
      Logged (.leave head :: visits) docs (.closed head.id :: log)

theorem logged_append {first last : List Visit} {docs : List ExportDoc} {log : List LogEntry}
    (logged : Logged (first ++ last) docs log) :
    ∃ early late earlyLog lateLog, docs = early ++ late ∧ log = earlyLog ++ lateLog ∧
      Logged first early earlyLog ∧ Logged last late lateLog := by
  induction first generalizing docs log with
  | nil => exact ⟨[], docs, [], log, rfl, rfl, .nothing, logged⟩
  | cons visit visits ih =>
    cases logged with
    | enter logged =>
      obtain ⟨early, late, earlyLog, lateLog, rfl, rfl, first, last⟩ := ih logged
      exact ⟨_, _, _, _, rfl, rfl, .enter first, last⟩
    | meet labelled logged =>
      obtain ⟨early, late, earlyLog, lateLog, rfl, rfl, first, last⟩ := ih logged
      exact ⟨_ :: early, _, _, _, rfl, rfl, .meet labelled first, last⟩
    | leave logged =>
      obtain ⟨early, late, earlyLog, lateLog, rfl, rfl, first, last⟩ := ih logged
      exact ⟨_, _, _, _, rfl, rfl, .leave first, last⟩

variable {program : Program} {options : Options}

theorem log_open (emission : Emission) (head : ModuleHead) :
    (emission.open_ head).2.log = emission.log := rfl

/-- The report of an export agrees with its document, though the document is not looked at. -/
theorem entryFor_eq {target : Option SymbolId} {description : Description}
    (described : program.describe options target = .ok description) (id module : DocId) (moduleId name : String) :
    Emission.entryFor description (description.placedKind id) moduleId name =
      entryOf (description.exportDoc id module moduleId name) := by
  by_cases known : description.form = .unknown
  · have unresolved : ¬ description.resolved = true := fun resolved => (resolved_iff described).mp resolved known
    have unknown := (unknown_placedKind description id).mpr known
    exact (if_neg unresolved).trans (if_pos unknown).symm
  · have unknown : ¬ description.placedKind id = .unknown := mt (unknown_placedKind description id).mp known
    exact (if_pos ((resolved_iff described).mpr known)).trans (if_neg unknown).symm

/-- An emission adds a document for each export that is met, and an entry for each visit. -/
theorem logged_emission {visits : List Visit} {before after : Emission}
    (folded : visits.foldlM (Emission.step program options) before = .ok after) :
    ∃ docs log, after.docs.exports = before.docs.exports ++ docs ∧ after.log = before.log ++ log ∧
      Logged visits docs log := by
  induction visits generalizing before with
  | nil =>
    cases folded
    exact ⟨[], [], by simp, by simp, .nothing⟩
  | cons visit visits ih =>
    rw [List.foldlM_cons] at folded
    obtain ⟨next, stepped, rest⟩ := bind_ok_iff.mp folded
    obtain ⟨docs, log, documented, written, logged⟩ := ih rest
    rw [documented, written]
    obtain ⟨head, rfl, rfl⟩ | ⟨head, export_, description, rfl, described, rfl⟩ | ⟨head, rfl, rfl⟩ :=
      step_cases stepped
    · refine ⟨docs, .opened head.id :: log, ?_, ?_, .enter logged⟩
      · simp [Emission.report, exports_open]
      · simp [Emission.report, log_open]
    · rw [docs_add, exports_placed, exports_open, List.append_assoc]
      refine ⟨_, _, rfl, ?_, .meet ?_ logged⟩
      · rw [← entryFor_eq described]
        simp [Emission.add, Emission.report, log_open, Description.exportDoc]
      · rfl
    · refine ⟨docs, .closed head.id :: log, ?_, ?_, .leave logged⟩
      · simp [Emission.report]
      · simp [Emission.report]

end Logs

section Building

variable {program : Program} {options : Options} {visited after : List SymbolId}
  {visits : List Visit}

theorem spanOf_enter {id : SymbolId} {head : ModuleHead} {tasks : List Task} {inside : Trace}
    (entered : program.enterModule options id = .ok (head, tasks))
    (walks : Walks program options (id :: visited) tasks visits after)
    (modules : inside.modules = enteredHeads visits)
    (own : inside.own.map docLabel = (met (visitsIn tasks)).map label) :
    Trace.SpanOf program options visited head inside := by
  obtain ⟨exports, named, resolved, related⟩ := enterModule_cases entered
  obtain ⟨rfl, identified⟩ := moduleHead_facts named
  rw [met_tasks related, filter_isDocumented, List.map_map] at own
  refine ⟨identified, ?_, ⟨exports, resolved, ?_⟩, ?_⟩
  · intro doc member
    have labelled := List.mem_map_of_mem (f := docLabel) member
    rw [own] at labelled
    obtain ⟨export_, _, same⟩ := List.mem_map.mp labelled
    exact (congrArg Prod.fst same).symm
  · simpa [docLabel, label, Function.comp_def] using congrArg (List.map Prod.snd) own
  · intro inner nests
    have done := walks.visits_pending ((walk_mem_of_enter entered inner).mpr nests)
    rw [walks.after_eq (enteredHeads_tasks related), ← modules] at done
    simpa using done

/-- What is logged on a walk is a trace that tells of all modules it enters. -/
theorem exists_trace {pending : List Task} {docs : List ExportDoc} {log : List LogEntry}
    (tours : Tours program options visited pending visits after) (logged : Logged visits docs log) :
    ∃ trace : Trace, trace.docs = docs ∧ trace.log = log ∧ trace.modules = enteredHeads visits ∧
      trace.own.map docLabel = (met (visitsIn pending)).map label ∧
      trace.Complete program options visited := by
  induction tours generalizing docs log with
  | done =>
    cases logged
    exact ⟨.done, rfl, rfl, rfl, rfl, trivial⟩
  | meet toured ih =>
    cases logged with
    | @meet _ _ _ doc _ _ labelled logged =>
      obtain ⟨trace, rfl, rfl, modules, own, complete⟩ := ih logged
      refine ⟨.report doc trace, rfl, rfl, modules, ?_, complete⟩
      rw [Trace.own, List.map_cons, own, labelled]
      rfl
  | skip known toured ih => exact ih logged
  | @span visited id rest head tasks inner between visits after entered within toured behind ih ihBehind =>
    cases logged with
    | enter logged =>
      obtain ⟨_, _, _, _, rfl, rfl, first, last⟩ := logged_append logged
      cases last with
      | leave last =>
        obtain ⟨inside, rfl, rfl, modules, own, complete⟩ := ih first
        obtain ⟨trace, rfl, rfl, restModules, restOwn, restComplete⟩ := ihBehind last
        obtain ⟨exports, named, _, related⟩ := enterModule_cases entered
        have span := spanOf_enter entered within modules own
        refine ⟨.span head inside trace, rfl, rfl, ?_, restOwn, span, ?_, ?_⟩
        · simp [Trace.modules, modules, restModules]
        · rwa [(moduleHead_facts named).1]
        · rwa [modules, (moduleHead_facts named).1, ← within.after_eq (enteredHeads_tasks related)]

end Building

section Lines

/-- The line is about an export. -/
def tellsExport (line : LogLine) : Bool :=
  line.fields.lookup "message" = some "export has no resolvable declaration" ||
    line.fields.lookup "message" = some "extracted export"

/-- The line tells of the export that has the document. -/
structure Tells (line : LogLine) (doc : ExportDoc) : Prop where
  name : line.fields.lookup "export" = some doc.name
  message : line.fields.lookup "message" =
    some (if doc.kind = .unknown then "export has no resolvable declaration" else "extracted export")
  level : line.level = if doc.kind = .unknown then .warn else .debug
  docType : doc.kind ≠ .unknown → line.fields.lookup "doc_type" = some doc.kind.docType
  module : line.module = some doc.moduleId
  innermost : line.spans.getLast? = some doc.moduleId

/-- The entry for a document gives one line, which tells of it if its module is the innermost. -/
theorem lines_entryOf (doc : ExportDoc) {spans : List String} (open_ : spans.head? = some doc.moduleId)
    (log : List LogEntry) :
    ∃ line, tellsExport line = true ∧ Tells line doc ∧
      LogLine.ofLog spans (entryOf doc :: log) =
        line :: LogLine.ofLog spans log := by
  have innermost : spans.reverse.getLast? = some doc.moduleId := by rw [List.getLast?_reverse, open_]
  by_cases unknown : doc.kind = .unknown
  · rw [entryOf, if_pos unknown]
    exact ⟨_, by simp [tellsExport],
      ⟨rfl, by simp [unknown], by simp [unknown], absurd unknown, open_, innermost⟩, rfl⟩
  · rw [entryOf, if_neg unknown]
    exact ⟨_, by simp [tellsExport],
      ⟨rfl, by simp [unknown], by simp [unknown], fun _ => rfl, open_, innermost⟩, rfl⟩

theorem lines_trace {program : Program} {options : Options} {opened : List SymbolId} (trace : Trace)
    (complete : trace.Complete program options opened) {spans : List String}
    (own : ∀ doc ∈ trace.own, spans.head? = some doc.moduleId) (log : List LogEntry) :
    ∃ lines, List.Forall₂ Tells lines trace.docs ∧
      (LogLine.ofLog spans (trace.log ++ log)).filter tellsExport =
        lines ++ (LogLine.ofLog spans log).filter tellsExport := by
  induction trace generalizing opened spans log with
  | done => exact ⟨[], .nil, rfl⟩
  | report doc rest ih =>
    obtain ⟨first, others⟩ := List.forall_mem_cons.mp own
    obtain ⟨line, shown, tells, written⟩ := lines_entryOf doc first (rest.log ++ log)
    obtain ⟨lines, related, kept⟩ := ih complete others log
    refine ⟨line :: lines, .cons tells related, ?_⟩
    rw [Trace.log, List.cons_append, written, List.filter_cons_of_pos shown, kept, List.cons_append]
  | span head inside rest ihInside ihRest =>
    obtain ⟨span, completeInside, completeRest⟩ := complete
    obtain ⟨late, relatedRest, keptRest⟩ := ihRest completeRest own log
    have placed : ∀ doc ∈ inside.own, (head.id :: spans).head? = some doc.moduleId := by
      intro doc member
      rw [span.placed doc member, List.head?_cons]
    obtain ⟨early, relatedInside, keptInside⟩ :=
      ihInside completeInside placed (.closed head.id :: (rest.log ++ log))
    refine ⟨early ++ late, List.rel_append relatedInside relatedRest, ?_⟩
    rw [Trace.log, List.cons_append, List.append_assoc, List.cons_append, LogLine.ofLog, keptInside,
      LogLine.ofLog, List.filter_cons_of_neg (by simp [tellsExport]), List.drop_one, List.tail_cons,
      keptRest, List.append_assoc]

theorem lines_emptyFiles (files : List String) (spans : List String) (log : List LogEntry) :
    (LogLine.ofLog spans (files.map .noModuleCode ++ log)).filter tellsExport =
      (LogLine.ofLog spans log).filter tellsExport := by
  induction files with
  | nil => rfl
  | cons file files ih =>
    rw [List.map_cons, List.cons_append, LogLine.ofLog, List.filter_cons_of_neg (by simp [tellsExport]), ih]

end Lines

section Extraction

variable {program : Program} {options : Options} {names : List String} {docs : DocSet}

theorem log_of_run {emission : Emission} (ran : program.run options names = .ok emission) :
    program.log options names = (program.emptyFiles names).map .noModuleCode ++ emission.log := by
  rw [Program.log, ran]

/-- Trace and documents agree: the lines about exports tell of the export documents, one by one and in
order, each while the module of its document is the innermost. Each module that is reached has one span,
and the spans are nested as the modules are. -/
theorem extract_log_tells (returned : program.extract options names = .ok docs) :
    List.Forall₂ Tells ((LogLine.ofLog [] (program.log options names)).filter tellsExport) docs.exports ∧
    ∃ trace : Trace,
      program.log options names = (program.emptyFiles names).map .noModuleCode ++ trace.log ∧
      trace.docs = docs.exports ∧ trace.own = [] ∧ (trace.modules.map (·.symbol)).Nodup ∧
      (∀ module, module ∈ trace.modules.map (·.symbol) ↔ Reached program options names module) ∧
      trace.Complete program options [] := by
  obtain ⟨emission, ran, rfl⟩ := extract_ok_iff.mp returned
  obtain ⟨collected, visits, visited, found, walked, folded⟩ := run_ok_iff.mp ran
  have started : program.walk options [] ((collected.map (·.symbol)).map .walk) =
      .ok (visits, visited) := by
    simpa [Function.comp_def] using walked
  have roots := visitsIn_roots (collected.map (·.symbol))
  have plain : Plain ((collected.map (·.symbol)).map .walk) := by
    rw [Plain, roots]
    exact List.forall_mem_nil _
  obtain ⟨reported, log, documented, written, logged⟩ := logged_emission folded
  obtain ⟨trace, rfl, rfl, modules, own, complete⟩ :=
    exists_trace (tours_of_walk started plain) logged
  rw [List.nil_append] at written
  rw [roots, met_nil, List.map_nil, List.map_eq_nil_iff] at own
  have whole : trace.docs = emission.docs.exports := documented.symm
  rw [log_of_run ran, written]
  refine ⟨?_, trace, rfl, whole, own, ?_, ?_, complete⟩
  · have none : ∀ doc ∈ trace.own, ([] : List String).head? = some doc.moduleId := by simp [own]
    obtain ⟨lines, related, kept⟩ := lines_trace trace complete none []
    rw [lines_emptyFiles]
    rw [List.append_nil, LogLine.ofLog, List.filter_nil, List.append_nil] at kept
    rw [kept, ← whole]
    exact related
  · rw [modules]
    exact entered_nodup started
  · rw [modules]
    exact entered_iff_reached found started

/-- A module that exports a namespace and then a name that leads nowhere. -/
def outline : Program where
  files := #[{ name := "a.ts", moduleSymbol := some ⟨0⟩ }]
  symbols := #[
    { name := "a", flags := SymbolFlags.valueModule, exports := [⟨1⟩, ⟨2⟩], declarations := [⟨0⟩] },
    { name := "n", flags := SymbolFlags.namespaceModule, exports := [⟨3⟩], parent := some ⟨0⟩ },
    { name := "gone", flags := SymbolFlags.alias_, parent := some ⟨0⟩ },
    { name := "f", flags := SymbolFlags.function, declarations := [⟨1⟩], parent := some ⟨1⟩ }]
  declarations := #[
    { kind := .sourceFile, file := ⟨0⟩, name := "a.ts" },
    { kind := .function, file := ⟨0⟩, name := "f" }]

def outlineDocs : DocSet := (outline.extract {} ["a.ts"]).toOption.getD {}

theorem extract_log_tells_outline :
    outline.extract {} ["a.ts"] = .ok outlineDocs ∧
      outline.log {} ["a.ts"] = [.opened "a", .opened "a/n", .extracted "f" "function", .closed "a/n",
        .unresolved "gone" "a", .closed "a"] ∧
      List.Forall₂ Tells ((LogLine.ofLog [] (outline.log {} ["a.ts"])).filter tellsExport)
        outlineDocs.exports ∧
      ∃ trace : Trace, outline.log {} ["a.ts"] = trace.log ∧ trace.Complete outline {} [] := by
  have returned : outline.extract {} ["a.ts"] = .ok outlineDocs := by decide +kernel
  obtain ⟨told, trace, written, _, _, _, _, complete⟩ := extract_log_tells returned
  have modules : outline.emptyFiles ["a.ts"] = [] := by decide +kernel
  rw [modules, List.map_nil, List.nil_append] at written
  exact ⟨returned, by decide +kernel, told, trace, written, complete⟩

end Extraction

end ApiDocs.Proofs.Traces
