import ApiDocs.Proofs.DocumentGraph
import ApiDocs.Proofs.Traversal

/-! Coverage: an extraction documents what is reached from the requested files, all of it and
nothing twice. Modules are reached through exports that are namespaces; every other export of a
reached module has one document, unless its name is ignored. -/

namespace ApiDocs.Proofs.Coverage

/-- The module is found by the request or nested in one that is reached. -/
def Reached (program : Program) (options : Options) (names : List String) (module : SymbolId) :
    Prop :=
  ∃ collected, program.collectModules names = .ok collected ∧
    ∃ root ∈ collected, Relation.ReflTransGen (Nests program options) root.symbol module

/-- The module lists the export at the given position, and it is to be documented. -/
def Documents (program : Program) (options : Options) (module : SymbolId) (position : Nat)
    (export_ : ResolvedExport) : Prop :=
  ∃ exports, program.resolveExports module = .ok exports ∧ exports[position]? = some export_ ∧
    isDocumented program options export_ = true

section Walk

variable {program : Program} {options : Options} {roots visited : List SymbolId}
  {visits : List Visit}

theorem visitsIn_roots (roots : List SymbolId) : visitsIn (roots.map .walk) = [] := by
  induction roots with
  | nil => rfl
  | cons root roots ih => exact ih

theorem entered_nodup (walked : program.walk options [] (roots.map .walk) = .ok (visits, visited)) :
    ((enteredHeads visits).map (·.symbol)).Nodup := by
  have walks := walks_of_walk walked
  have distinct := walks.nodup .nil
  rw [walks.after_eq (by simp [visitsIn_roots])] at distinct
  simpa using distinct

/-- The walk enters a module exactly if a root leads to it. -/
theorem entered_iff (walked : program.walk options [] (roots.map .walk) = .ok (visits, visited))
    (id : SymbolId) :
    id ∈ (enteredHeads visits).map (·.symbol) ↔
      ∃ root ∈ roots, Relation.ReflTransGen (Nests program options) root id := by
  have walks := walks_of_walk walked
  rw [← List.mem_reverse, ← List.append_nil (List.reverse _),
    ← walks.after_eq (by simp [visitsIn_roots])]
  constructor
  · intro done
    obtain ⟨root, waiting, path⟩ := walks.reached done (by simp)
    exact ⟨root, by simpa using waiting, path⟩
  · rintro ⟨root, member, path⟩
    induction path with
    | refl => exact walks.visits_pending (List.mem_map.mpr ⟨root, member, rfl⟩)
    | tail _ nests ih => exact walks.closed ih (by simp) nests

theorem met_entered (walked : program.walk options [] (roots.map .walk) = .ok (visits, visited))
    {pair : ModuleHead × ResolvedExport} (member : pair ∈ met visits) :
    pair.1 ∈ enteredHeads visits := by
  rcases (walks_of_walk walked).met_pending_or_entered member with waiting | entered
  · simp [visitsIn_roots] at waiting
  · exact entered

theorem head_of_entered (walked : program.walk options [] (roots.map .walk) = .ok (visits, visited))
    {head : ModuleHead} (entered : head ∈ enteredHeads visits) :
    program.moduleHead options.baseDir head.symbol = .ok head :=
  (walks_of_walk walked).head_known entered (by simp [visitsIn_roots])

theorem filter_isDocumented (exports : List ResolvedExport) :
    (exports.filter (!options.ignores ·.name)).filter (!isNested program ·) =
      exports.filter (isDocumented program options) := by
  rw [List.filter_filter]
  exact List.filter_congr fun export_ _ => Bool.and_comm _ _

/-- For a module that is entered the walk meets the exports to document, in the order in which the
module lists them. -/
theorem metBy_entered (walked : program.walk options [] (roots.map .walk) = .ok (visits, visited))
    {head : ModuleHead} (entered : head ∈ enteredHeads visits) :
    ∃ exports, program.resolveExports head.symbol = .ok exports ∧
      metBy head.symbol visits = (exports.filter (isDocumented program options)).map (head, ·) := by
  have walks := walks_of_walk walked
  have done : head.symbol ∈ visited := by
    rw [walks.after_eq (by simp [visitsIn_roots])]
    simpa using ⟨head, entered, rfl⟩
  obtain ⟨other, tasks, opened, _⟩ := walks.entered_of_done done (by simp)
  obtain ⟨exports, named, resolved, related⟩ := enterModule_cases opened
  have same : other = head := by
    have known := head_of_entered walked entered
    rw [named] at known
    exact Except.ok.inj known
  subst same
  refine ⟨exports, resolved, ?_⟩
  rw [walks.metBy_fresh (by simp [visitsIn_roots]) done (by simp) opened, met_tasks related,
    filter_isDocumented]

end Walk

section Documents

variable {program : Program} {options : Options}

def Registered (emission : Emission) : Prop :=
  ∀ id doc, emission.modules.get? id = some doc → id ∈ moduleIds emission.docs

theorem open_registers {emission : Emission} (registered : Registered emission)
    (head : ModuleHead) :
    Registered (emission.open_ head).2 ∧
      ∀ id, id ∈ moduleIds (emission.open_ head).2.docs ↔
        id ∈ moduleIds emission.docs ∨ id = head.id := by
  obtain ⟨doc, known, opened⟩ | ⟨fresh, opened⟩ := open_cases emission head
  · rw [opened]
    refine ⟨registered, fun id => ⟨.inl, ?_⟩⟩
    rintro (member | rfl)
    · exact member
    · exact registered _ doc known
  · have added : moduleIds (created emission head).docs = moduleIds emission.docs ++ [head.id] := by
      simp [created, moduleIds_eq, DocSet.push, Doc.module?]
    rw [opened]
    refine ⟨?_, fun id => by simp [added]⟩
    intro id doc known
    rw [get?_created] at known
    rw [added, List.mem_append, List.mem_singleton]
    split at known
    · exact .inr ‹_›
    · exact .inl (registered id doc known)

def opens : Visit → Option String
  | .enter head => some head.id
  | .meet head _ => some head.id
  | .leave _ => none

theorem step_registers {before after : Emission} {visit : Visit}
    (stepped : Emission.step program options before visit = .ok after)
    (registered : Registered before) :
    Registered after ∧
      ∀ id, id ∈ moduleIds after.docs ↔ id ∈ moduleIds before.docs ∨ opens visit = some id := by
  obtain ⟨head, rfl, rfl⟩ | ⟨head, export_, description, rfl, _, rfl⟩ | ⟨head, rfl, rfl⟩ :=
    step_cases stepped
  · obtain ⟨kept, ids⟩ := open_registers registered head
    exact ⟨kept, fun id => by simpa [opens, eq_comm] using! ids id⟩
  · obtain ⟨kept, ids⟩ := open_registers registered head
    simp only [Registered, docs_add, modules_add, moduleIds_placed]
    exact ⟨kept, fun id => by simpa [opens, eq_comm] using ids id⟩
  · exact ⟨registered, fun id => by simp [opens, Emission.report]⟩

theorem moduleIds_emitted {visits : List Visit} {start final : Emission}
    (folded : visits.foldlM (Emission.step program options) start = .ok final)
    (registered : Registered start) (id : String) :
    id ∈ moduleIds final.docs ↔ id ∈ moduleIds start.docs ∨ ∃ visit ∈ visits, opens visit = some id := by
  induction visits generalizing start with
  | nil =>
    cases folded
    simp
  | cons visit visits ih =>
    rw [List.foldlM_cons] at folded
    obtain ⟨next, stepped, rest⟩ := bind_ok_iff.mp folded
    obtain ⟨kept, ids⟩ := step_registers stepped registered
    rw [ih rest kept, ids, or_assoc]
    simp

def label (pair : ModuleHead × ResolvedExport) : String × String := (pair.1.id, pair.2.name)

/-- The exports of the documents are those that were met, in the same order. -/
theorem exports_emitted {visits : List Visit} {final : Emission}
    (folded : visits.foldlM (Emission.step program options) {} = .ok final) :
    final.docs.exports.map (fun doc => (doc.moduleId, doc.name)) = (met visits).map label := by
  have appended := foldlM_appends
    (fun emission : Emission => emission.docs.exports.map fun doc => (doc.moduleId, doc.name))
    (fun visit => (met [visit]).map label) ?_ folded
  · rw [appended, ← List.map_flatMap, flatMap_met]
    rfl
  · intro before visit after stepped
    obtain ⟨head, rfl, rfl⟩ | ⟨head, export_, description, rfl, _, rfl⟩ | ⟨head, rfl, rfl⟩ :=
      step_cases stepped
    · simp [Emission.report, exports_open]
    · simp [docs_add, exports_placed, exports_open, Description.exportDoc, label]
    · simp [Emission.report]

end Documents

section Origins

variable {α β γ : Type} [DecidableEq α]

/-- If the items with each label are known as a list, every item can be traced to its place there,
and places with the same label come in order. -/
theorem exists_origins (label : γ → α) (value : β → γ) (items : List γ) (sources : α → List β)
    (split : ∀ a, items.filter (label · = a) = (sources a).map value) :
    ∃ origins : List (α × β), origins.map (fun origin => value origin.2) = items ∧
      ∀ a, (origins.filter (·.1 = a)).map (·.2) = sources a := by
  induction items generalizing sources with
  | nil => exact ⟨[], rfl, fun a => by simpa [eq_comm] using split a⟩
  | cons item items ih =>
    have here := split (label item)
    rw [List.filter_cons_of_pos (by simp)] at here
    obtain ⟨first, others, listed, same, remaining⟩ := List.map_eq_cons_iff.mp here.symm
    obtain ⟨origins, traced, back⟩ := ih (fun a => if a = label item then others else sources a) (by
      intro a
      by_cases here : a = label item
      · subst here
        simpa using remaining.symm
      · have elsewhere := split a
        rw [List.filter_cons_of_neg (by simpa using Ne.symm here)] at elsewhere
        simpa [here] using elsewhere)
    refine ⟨(label item, first) :: origins, by simp [same, traced], ?_⟩
    intro a
    have kept := back a
    by_cases here : a = label item
    · subst here
      simpa [listed] using kept
    · simpa [here, Ne.symm here] using kept

theorem pairwise_origins (relation : β → β → Prop) (origins : List (α × β))
    (ordered : ∀ a, ((origins.filter (·.1 = a)).map (·.2)).Pairwise relation) :
    origins.Pairwise fun earlier later => earlier.1 = later.1 → relation earlier.2 later.2 := by
  induction origins with
  | nil => exact .nil
  | cons origin origins ih =>
    refine List.pairwise_cons.mpr ⟨?_, ih fun a => ?_⟩
    · intro later member same
      have here := ordered origin.1
      rw [List.filter_cons_of_pos (by simp), List.map_cons, List.pairwise_cons] at here
      refine here.1 later.2 (List.mem_map.mpr ⟨later, List.mem_filter.mpr ⟨member, ?_⟩, rfl⟩)
      simpa using same.symm
    · refine (ordered a).sublist (List.Sublist.map _ ?_)
      exact (List.sublist_cons_self _ _).filter _

end Origins

section Extraction

variable {program : Program} {options : Options} {names : List String} {docs : DocSet}

theorem exists_places {roots visited : List SymbolId} {visits : List Visit}
    (walked : program.walk options [] (roots.map .walk) = .ok (visits, visited)) (id : SymbolId) :
    ∃ places : List ((ModuleHead × ResolvedExport) × Nat),
      (met visits).filter (·.1.symbol = id) = places.map (·.1) ∧
        (places.map (·.2)).Pairwise (· < ·) ∧
        ∀ head export_ position, ((head, export_), position) ∈ places ↔
          head ∈ enteredHeads visits ∧ head.symbol = id ∧
            Documents program options id position export_ := by
  by_cases entered : ∃ head ∈ enteredHeads visits, head.symbol = id
  · obtain ⟨head, entered, rfl⟩ := entered
    obtain ⟨exports, resolved, listed⟩ := metBy_entered walked entered
    refine ⟨(exports.zipIdx.filter (isDocumented program options ·.1)).map
      (fun place => ((head, place.1), place.2)), ?_, ?_, ?_⟩
    · refine listed.trans ?_
      rw [List.map_map]
      conv_lhs => rw [← List.zipIdx_map_fst 0 exports, List.filter_map, List.map_map]
      rfl
    · rw [List.map_map]
      have range : (exports.zipIdx.map (·.2)).Pairwise (· < ·) := by
        rw [List.zipIdx_map_snd]
        exact List.pairwise_lt_range'
      exact range.sublist (List.filter_sublist.map _)
    · intro other export_ position
      simp only [List.mem_map, List.mem_filter, Prod.mk.injEq, List.mem_zipIdx_iff_getElem?]
      constructor
      · rintro ⟨⟨found, place⟩, ⟨inside, wanted⟩, ⟨rfl, rfl⟩, rfl⟩
        exact ⟨entered, rfl, exports, resolved, inside, wanted⟩
      · rintro ⟨otherEntered, same, others, again, inside, wanted⟩
        rw [resolved] at again
        cases again
        have known := head_of_entered walked otherEntered
        rw [same, head_of_entered walked entered] at known
        exact ⟨(export_, position), ⟨inside, wanted⟩, ⟨Except.ok.inj known, rfl⟩, rfl⟩
  · refine ⟨[], ?_, .nil, ?_⟩
    · refine List.filter_eq_nil_iff.mpr fun pair member => ?_
      simpa using fun same => entered ⟨pair.1, met_entered walked member, same⟩
    · intro head export_ position
      simp only [List.not_mem_nil, false_iff]
      rintro ⟨member, same, _⟩
      exact entered ⟨head, member, same⟩

/-- Everything that is met comes from a position in the list of an entered module. -/
theorem exists_traces {roots visited : List SymbolId} {visits : List Visit}
    (walked : program.walk options [] (roots.map .walk) = .ok (visits, visited)) :
    ∃ traces : List (SymbolId × (ModuleHead × ResolvedExport) × Nat),
      traces.map (·.2.1) = met visits ∧
        traces.Pairwise (fun earlier later => earlier.1 = later.1 → earlier.2.2 < later.2.2) ∧
        ∀ module head export_ position, (module, (head, export_), position) ∈ traces ↔
          head ∈ enteredHeads visits ∧ head.symbol = module ∧
            Documents program options module position export_ := by
  choose places listed increasing placed using exists_places walked
  obtain ⟨traces, traced, back⟩ := exists_origins (·.1.symbol) (·.1) (met visits) places listed
  refine ⟨traces, traced, ?_, ?_⟩
  · refine pairwise_origins (fun earlier later => earlier.2 < later.2) traces fun id => ?_
    rw [back]
    exact List.pairwise_map.mp (increasing id)
  · intro module head export_ position
    rw [← placed, ← back]
    simp

variable {collected : List CollectedModule} {visits : List Visit} {visited : List SymbolId}

theorem entered_iff_reached (found : program.collectModules names = .ok collected)
    (walked : program.walk options [] ((collected.map (·.symbol)).map .walk) = .ok (visits, visited))
    (id : SymbolId) :
    id ∈ (enteredHeads visits).map (·.symbol) ↔ Reached program options names id := by
  rw [entered_iff walked]
  constructor
  · rintro ⟨root, member, path⟩
    obtain ⟨module, listed, rfl⟩ := List.mem_map.mp member
    exact ⟨collected, found, module, listed, path⟩
  · rintro ⟨others, again, module, listed, path⟩
    rw [found] at again
    cases again
    exact ⟨module.symbol, List.mem_map.mpr ⟨module, listed, rfl⟩, path⟩

theorem entered_id_iff (found : program.collectModules names = .ok collected)
    (walked : program.walk options [] ((collected.map (·.symbol)).map .walk) = .ok (visits, visited))
    (module : SymbolId) (id : String) :
    (∃ head ∈ enteredHeads visits, head.symbol = module ∧ head.id = id) ↔
      Reached program options names module ∧ program.moduleId options.baseDir module = .ok id := by
  rw [← entered_iff_reached found walked]
  constructor
  · rintro ⟨head, entered, rfl, rfl⟩
    exact ⟨List.mem_map.mpr ⟨head, entered, rfl⟩,
      (moduleHead_facts (head_of_entered walked entered)).2⟩
  · rintro ⟨member, identified⟩
    obtain ⟨head, entered, rfl⟩ := List.mem_map.mp member
    have known := (moduleHead_facts (head_of_entered walked entered)).2
    rw [identified] at known
    exact ⟨head, entered, rfl, (Except.ok.inj known).symm⟩

/-- What is met is an export that a reached module documents. -/
theorem documents_of_met (found : program.collectModules names = .ok collected)
    (walked : program.walk options [] ((collected.map (·.symbol)).map .walk) = .ok (visits, visited))
    {head : ModuleHead} {export_ : ResolvedExport} (member : (head, export_) ∈ met visits) :
    Reached program options names head.symbol ∧
      program.moduleId options.baseDir head.symbol = .ok head.id ∧
      ∃ position, Documents program options head.symbol position export_ := by
  have entered := met_entered walked member
  obtain ⟨reached, identified⟩ :=
    (entered_id_iff found walked head.symbol head.id).mp ⟨head, entered, rfl, rfl⟩
  refine ⟨reached, identified, ?_⟩
  obtain ⟨exports, resolved, listed⟩ := metBy_entered walked entered
  have own : (head, export_) ∈ metBy head.symbol visits := List.mem_filter.mpr ⟨member, by simp⟩
  rw [listed] at own
  obtain ⟨_, chosen, same⟩ := List.mem_map.mp own
  cases same
  obtain ⟨inside, wanted⟩ := List.mem_filter.mp chosen
  obtain ⟨position, place⟩ := List.getElem?_of_mem inside
  exact ⟨position, exports, resolved, place, wanted⟩

/-- What a reached module documents is met. -/
theorem met_of_documents (found : program.collectModules names = .ok collected)
    (walked : program.walk options [] ((collected.map (·.symbol)).map .walk) = .ok (visits, visited))
    {module : SymbolId} (reached : Reached program options names module) {position : Nat}
    {export_ : ResolvedExport} (documents : Documents program options module position export_) :
    ∃ head, head.symbol = module ∧ (head, export_) ∈ met visits := by
  obtain ⟨traces, traced, _, members⟩ := exists_traces walked
  obtain ⟨head, entered, same⟩ := List.mem_map.mp ((entered_iff_reached found walked module).mpr reached)
  have trace := (members module head export_ position).mpr ⟨entered, same, documents⟩
  refine ⟨head, same, ?_⟩
  rw [← traced]
  exact List.mem_map.mpr ⟨_, trace, rfl⟩

theorem moduleIds_covered {emission : Emission}
    (found : program.collectModules names = .ok collected)
    (walked : program.walk options [] ((collected.map (·.symbol)).map .walk) = .ok (visits, visited))
    (folded : visits.foldlM (Emission.step program options) {} = .ok emission) (id : String) :
    id ∈ moduleIds emission.docs ↔ ∃ module, Reached program options names module ∧
      program.moduleId options.baseDir module = .ok id := by
  rw [moduleIds_emitted folded (fun _ _ known => by cases known)]
  simp only [← entered_id_iff found walked]
  constructor
  · rintro (impossible | ⟨visit, member, opened⟩)
    · cases impossible
    · cases visit with
      | enter head =>
        cases opened
        exact ⟨_, head, List.mem_filterMap.mpr ⟨_, member, rfl⟩, rfl, rfl⟩
      | meet head export_ =>
        cases opened
        exact ⟨_, head, met_entered walked (List.mem_filterMap.mpr ⟨_, member, rfl⟩), rfl, rfl⟩
      | leave head => cases opened
  · rintro ⟨module, head, entered, _, rfl⟩
    obtain ⟨visit, member, same⟩ := List.mem_filterMap.mp entered
    cases visit with
    | enter other =>
      cases same
      exact .inr ⟨_, member, rfl⟩
    | meet other export_ => cases same
    | leave other => cases same

theorem exports_covered {emission : Emission}
    (found : program.collectModules names = .ok collected)
    (walked : program.walk options [] ((collected.map (·.symbol)).map .walk) = .ok (visits, visited))
    (folded : visits.foldlM (Emission.step program options) {} = .ok emission) (id : String) :
    ∃ origins : List (SymbolId × Nat),
      (∀ module position, (module, position) ∈ origins ↔
        Reached program options names module ∧ program.moduleId options.baseDir module = .ok id ∧
          ∃ export_, Documents program options module position export_) ∧
      List.Forall₂ (fun origin doc => ∃ export_,
          Documents program options origin.1 origin.2 export_ ∧ doc.name = export_.name)
        origins (emission.docs.exports.filter (·.moduleId = id)) ∧
      origins.Pairwise fun earlier later => earlier.1 = later.1 → earlier.2 < later.2 := by
  obtain ⟨traces, traced, increasing, members⟩ := exists_traces walked
  refine ⟨(traces.filter (·.2.1.1.id = id)).map (fun trace => (trace.1, trace.2.2)), ?_, ?_, ?_⟩
  · intro module position
    rw [← and_assoc, ← entered_id_iff found walked]
    simp only [List.mem_map, List.mem_filter, Prod.mk.injEq, Prod.exists, members, decide_eq_true_eq]
    constructor
    · rintro ⟨_, head, export_, _, ⟨⟨entered, same, documents⟩, named⟩, rfl, rfl⟩
      exact ⟨⟨head, entered, same, named⟩, export_, documents⟩
    · rintro ⟨⟨head, entered, same, named⟩, export_, documents⟩
      exact ⟨module, head, export_, position, ⟨⟨entered, same, documents⟩, named⟩, rfl, rfl⟩
  · have labels := exports_emitted folded
    rw [← traced, List.map_map] at labels
    have related : List.Forall₂ (fun trace doc => Documents program options trace.1 trace.2.2 trace.2.1.2 ∧
        doc.moduleId = trace.2.1.1.id ∧ doc.name = trace.2.1.2.name) traces emission.docs.exports := by
      refine (List.forall₂_and_left _ _).mpr ⟨fun trace member => ((members _ _ _ _).mp member).2.2, ?_⟩
      rw [← List.forall₂_eq_eq_eq, List.forall₂_map_left_iff, List.forall₂_map_right_iff] at labels
      exact labels.flip.imp fun trace doc same => by simpa [label] using same
    rw [List.forall₂_map_left_iff]
    refine (List.rel_filter (fun trace doc same => by simp [same.2.1]) related).imp ?_
    rintro trace doc ⟨documents, _, same⟩
    exact ⟨_, documents, same⟩
  · exact (increasing.sublist List.filter_sublist).map _ fun _ _ ordered => ordered

/-- An extraction walks every reached module once and no other. The ids of the module documents are
those of the reached modules, and for each id the export documents stand one to one for the exports
to document that these modules list, in the order of each list. -/
theorem extract_covers (returned : program.extract options names = .ok docs) :
    (∃ collected visits visited, program.collectModules names = .ok collected ∧
      program.walk options [] (collected.map (.walk ·.symbol)) = .ok (visits, visited) ∧
      ((enteredHeads visits).map (·.symbol)).Nodup ∧
      ∀ module, module ∈ (enteredHeads visits).map (·.symbol) ↔
        Reached program options names module) ∧
    (∀ id, id ∈ docs.modules.map (·.id) ↔ ∃ module, Reached program options names module ∧
      program.moduleId options.baseDir module = .ok id) ∧
    (∀ id, ∃ origins : List (SymbolId × Nat), origins.Nodup ∧
      (∀ module position, (module, position) ∈ origins ↔
        Reached program options names module ∧ program.moduleId options.baseDir module = .ok id ∧
          ∃ export_, Documents program options module position export_) ∧
      List.Forall₂ (fun origin doc => ∃ export_,
          Documents program options origin.1 origin.2 export_ ∧ doc.name = export_.name)
        origins (docs.exports.filter (·.moduleId = id)) ∧
      origins.Pairwise fun earlier later => earlier.1 = later.1 → earlier.2 < later.2) ∧
    ∀ doc ∈ docs.exports, options.ignores doc.name = false := by
  obtain ⟨emission, ran, rfl⟩ := extract_ok_iff.mp returned
  obtain ⟨collected, visits, visited, found, walked, folded⟩ := run_ok_iff.mp ran
  have started : program.walk options [] ((collected.map (·.symbol)).map .walk) =
      .ok (visits, visited) := by
    simpa [Function.comp_def] using walked
  refine ⟨⟨collected, visits, visited, found, walked, entered_nodup started,
    entered_iff_reached found started⟩, moduleIds_covered found started folded, ?_, ?_⟩
  · intro id
    obtain ⟨origins, members, related, increasing⟩ := exports_covered found started folded id
    refine ⟨origins, ?_, members, related, increasing⟩
    refine increasing.imp ?_
    rintro earlier later ordered rfl
    exact Nat.lt_irrefl _ (ordered rfl)
  · intro doc member
    obtain ⟨origins, _, related, _⟩ := exports_covered found started folded doc.moduleId
    obtain ⟨origin, _, export_, ⟨_, _, _, wanted⟩, same⟩ :=
      exists_related related (List.mem_filter.mpr ⟨member, by simp⟩)
    rw [same]
    simp only [isDocumented, Bool.and_eq_true, Bool.not_eq_true'] at wanted
    exact wanted.1

open DocumentGraph in
theorem extract_covers_split :
    splitNamespace.extract {} ["a", "b"] = .ok splitDocs ∧
      (splitDocs.exports.filter (·.moduleId = "n")).map (·.name) = ["C", "f"] ∧
      (∀ id, id ∈ splitDocs.modules.map (·.id) ↔
        ∃ module, Reached splitNamespace {} ["a", "b"] module ∧
          splitNamespace.moduleId "" module = .ok id) ∧
      ∀ doc ∈ splitDocs.exports, Options.ignores {} doc.name = false := by
  have returned : splitNamespace.extract {} ["a", "b"] = .ok splitDocs := by decide +kernel
  obtain ⟨_, modules, _, shown⟩ := extract_covers returned
  exact ⟨returned, by decide +kernel, modules, shown⟩

end Extraction

end ApiDocs.Proofs.Coverage
