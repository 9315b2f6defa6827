import ApiDocs.Proofs.DocumentGraph
import ApiDocs.Proofs.Traversal

/-! Documents are only added. A request that goes on with further files keeps all documents of the
shorter one in their places; only lists of modules get longer, by ids of later documents. -/

namespace ApiDocs.Proofs.Growth

open DocumentGraph

/-- The document stays the same, except that a module may list more at the end: documents at the
mark or behind it. -/
def Continues (mark : Nat) (doc later : Doc) : Prop :=
  match doc with
  | .module old => ∃ added, later = .module { old with exports := old.exports ++ added } ∧
      ∀ id ∈ added, mark ≤ id.index.toNat
  | doc => later = doc

def Grows (mark : Nat) (before after : DocSet) : Prop :=
  ∀ (index : Nat) (doc : Doc), before.docs[index]? = some doc →
    ∃ later, after.docs[index]? = some later ∧ Continues mark doc later

theorem Continues.refl (mark : Nat) (doc : Doc) : Continues mark doc doc := by
  cases doc with
  | module doc => exact ⟨[], by simp, by simp⟩
  | export_ doc => rfl
  | member doc => rfl

theorem Continues.trans {mark : Nat} {first middle last : Doc} (before : Continues mark first middle)
    (after : Continues mark middle last) : Continues mark first last := by
  cases first with
  | module doc =>
    obtain ⟨added, rfl, behind⟩ := before
    obtain ⟨more, rfl, further⟩ := after
    refine ⟨added ++ more, by simp, ?_⟩
    intro id member
    rcases List.mem_append.mp member with member | member
    · exact behind id member
    · exact further id member
  | export_ doc =>
    cases before
    exact after
  | member doc =>
    cases before
    exact after

theorem Grows.refl (mark : Nat) (docs : DocSet) : Grows mark docs docs :=
  fun _ doc found => ⟨doc, found, .refl mark doc⟩

theorem Grows.trans {mark : Nat} {before middle after : DocSet} (first : Grows mark before middle)
    (last : Grows mark middle after) : Grows mark before after := by
  intro index doc found
  obtain ⟨next, kept, continues⟩ := first index doc found
  obtain ⟨later, keptToo, further⟩ := last index next kept
  exact ⟨later, keptToo, continues.trans further⟩

/-- Exports and members stay as they are. -/
theorem Grows.keeps {mark : Nat} {before after : DocSet} (grows : Grows mark before after)
    {index : Nat} {doc : Doc} (found : before.docs[index]? = some doc) (plain : doc.module? = none) :
    after.docs[index]? = some doc := by
  obtain ⟨later, kept, continues⟩ := grows index doc found
  cases doc with
  | module doc => cases plain
  | export_ doc | member doc =>
    cases continues
    exact kept

theorem open_grows (mark : Nat) (emission : Emission) (head : ModuleHead) :
    Grows mark emission.docs (emission.open_ head).2.docs := by
  obtain ⟨doc, _, opened⟩ | ⟨_, opened⟩ := open_cases emission head
  · rw [opened]
    exact .refl mark emission.docs
  · intro index doc found
    have inside := (Array.getElem?_eq_some_iff.mp found).1
    refine ⟨doc, ?_, .refl mark doc⟩
    rw [opened, created, DocSet.push, Array.getElem?_push, if_neg (by omega)]
    exact found

theorem placed_grows {docs : DocSet} {module : DocId} {head : ModuleDoc} {mark : Nat}
    (opened : docs.get? module = some (.module head)) (small : docs.size < UInt32.size)
    (reached : mark ≤ docs.size) (doc : ExportDoc) (members : List MemberDoc) :
    Grows mark docs (placed docs module doc members) := by
  intro index old found
  have inside : index < docs.size := (Array.getElem?_eq_some_iff.mp found).1
  rw [getElem?_placed opened]
  by_cases selected : index = module.index.toNat
  · subst selected
    have same : old = .module head := Option.some.inj (found.symm.trans opened)
    subst same
    rw [if_pos rfl]
    refine ⟨_, rfl, [docs.nextId], rfl, ?_⟩
    intro id member
    rw [List.mem_singleton.mp member, nextId_eq, docAt_toNat small]
    exact reached
  · rw [if_neg selected, if_pos inside]
    exact ⟨old, found, .refl mark old⟩

section Emission

variable {program : Program} {options : Options} {before after : Emission}

theorem step_grows {visit : Visit} {mark : Nat}
    (stepped : Emission.step program options before visit = .ok after)
    (sound : Sound before.docs before.modules) (small : after.docs.size ≤ UInt32.size)
    (reached : mark ≤ before.docs.size) : Grows mark before.docs after.docs := by
  obtain ⟨head, _, rfl⟩ | ⟨head, export_, description, _, _, rfl⟩ | ⟨head, _, rfl⟩ :=
    step_cases stepped
  · exact open_grows mark before head
  · have wider := size_open before head
    rw [docs_add, size_placed] at small
    have opened := open_preserves sound (show (before.open_ head).2.docs.size ≤ UInt32.size by omega)
    obtain ⟨module, found, _⟩ := opened.leads head.id _ (open_known before head)
    rw [docs_add]
    apply (open_grows mark before head).trans
    exact placed_grows found (by omega) (by omega) _ _
  · exact .refl mark before.docs

/-- From a sound start on, an emission leaves the documents in place that it finds. -/
theorem emission_grows {visits : List Visit}
    (folded : visits.foldlM (Emission.step program options) before = .ok after)
    (sound : Sound before.docs before.modules) (small : after.docs.size ≤ UInt32.size) :
    Grows before.docs.size before.docs after.docs := by
  have kept := foldlM_keeps (fun current : Emission => current.docs.size ≤ UInt32.size →
    Sound current.docs current.modules ∧ before.docs.size ≤ current.docs.size ∧
      Grows before.docs.size before.docs current.docs) ?_ folded
    (fun _ => ⟨sound, Nat.le_refl _, .refl _ before.docs⟩) small
  · exact kept.2.2
  · intro current visit next stepped holds bound
    have wider := size_step stepped
    obtain ⟨currentSound, reached, grown⟩ := holds (by omega)
    refine ⟨step_preserves stepped currentSound bound, by omega, ?_⟩
    exact grown.trans (step_grows stepped currentSound bound reached)

end Emission

section Walk

variable {program : Program} {options : Options}

theorem walk_enter {visited : List SymbolId} {id : SymbolId} {head : ModuleHead} {tasks : List Task}
    (fresh : id ∉ visited) (entered : program.enterModule options id = .ok (head, tasks))
    (rest : List Task) :
    program.walk options visited (.walk id :: rest) =
      (program.walk options (id :: visited) (tasks ++ .visit (.leave head) :: rest)).map
        fun (visits, known) => (.enter head :: visits, known) := by
  rw [Program.walk, if_neg fresh]
  split
  next fault failed => simp [entered] at failed
  next otherHead otherTasks again =>
    rw [entered] at again
    cases again
    cases program.walk options (id :: visited) (tasks ++ .visit (.leave head) :: rest) <;> rfl

theorem walk_fault {visited : List SymbolId} {id : SymbolId} {fault : Fault} (fresh : id ∉ visited)
    (failed : program.enterModule options id = .error fault) (rest : List Task) :
    program.walk options visited (.walk id :: rest) = .error fault := by
  rw [Program.walk, if_neg fresh]
  split
  next other again =>
    rw [failed] at again
    cases again
    rfl
  next head tasks entered => simp [failed] at entered

/-- A walk over more tasks is a walk over the first ones, and then one over the others. -/
theorem walk_append (visited : List SymbolId) (first last : List Task) :
    program.walk options visited (first ++ last) = do
      let (visits, known) ← program.walk options visited first
      let (others, all) ← program.walk options known last
      return (visits ++ others, all) := by
  -- By the recursion of the first walk: it sees the same tasks in both runs, with others behind them.
  fun_induction Program.walk program options visited first with
  | case1 visited =>
    simp only [List.nil_append, bind, Except.bind]
    cases program.walk options visited last <;> rfl
  | case2 visited visit rest fault failed ih =>
    rw [List.cons_append, Program.walk, ih, failed]
    rfl
  | case3 visited visit rest visits known walked ih =>
    rw [List.cons_append, Program.walk, ih, walked]
    simp only [bind, Except.bind]
    cases program.walk options known last <;> rfl
  | case4 visited id rest seen ih => rw [List.cons_append, Program.walk, if_pos seen, ih]
  | case5 visited id rest fresh fault failed =>
    rw [List.cons_append, walk_fault fresh failed]
    rfl
  | case6 visited id rest fresh head tasks entered fault failed ih =>
    rw [List.append_assoc, List.cons_append, failed] at ih
    rw [List.cons_append, walk_enter fresh entered, ih]
    rfl
  | case7 visited id rest fresh head tasks entered visits known walked ih =>
    rw [List.append_assoc, List.cons_append, walked] at ih
    rw [List.cons_append, walk_enter fresh entered, ih]
    simp only [bind, Except.bind]
    cases program.walk options known last <;> rfl

theorem walk_known {visited : List SymbolId} {ids : List SymbolId} (known : ∀ id ∈ ids, id ∈ visited) :
    program.walk options visited (ids.map .walk) = .ok ([], visited) := by
  induction ids with
  | nil => rw [List.map_nil, Program.walk]
  | cons id ids ih =>
    rw [List.map_cons, Program.walk, if_pos (known id List.mem_cons_self)]
    exact ih fun other member => known other (List.mem_cons_of_mem _ member)

end Walk

section Requests

variable {program : Program} {options : Options} {first last : List String}

theorem collectModules_append (first last : List String) :
    program.collectModules (first ++ last) = do
      let collected ← program.collectModules first
      let others ← program.collectModules last
      return collected ++ others := by
  simp only [Program.collectModules, List.mapM_append, bind_assoc, pure_bind, List.flatten_append]

theorem modulesNamed_congr {name other : String} (same : program.findFile? name = program.findFile? other)
    (found : (program.findFile? name).isSome) :
    program.modulesNamed name = program.modulesNamed other := by
  obtain ⟨file, located⟩ := Option.isSome_iff_exists.mp found
  simp only [Program.modulesNamed, ← same, located]

/-- Names that lead to files of an earlier request give no other modules than the request. -/
theorem collectModules_known {collected : List CollectedModule}
    (found : program.collectModules first = .ok collected)
    (known : ∀ name ∈ last, (program.findFile? name).isSome ∧
      ∃ earlier ∈ first, program.findFile? name = program.findFile? earlier) :
    ∃ others, program.collectModules last = .ok others ∧ ∀ module ∈ others, module ∈ collected := by
  obtain ⟨groups, named, joined⟩ := bind_ok_iff.mp found
  cases joined
  have related := mapM_ok_iff.mp named
  have each : ∀ name ∈ last, Returns (fun modules => modules ∈ groups) (program.modulesNamed name) := by
    intro name member
    obtain ⟨located, earlier, listed, same⟩ := known name member
    obtain ⟨modules, inside, returned⟩ := exists_related related.flip listed
    exact ⟨modules, (modulesNamed_congr same located).trans returned, inside⟩
  obtain ⟨others, returned, all⟩ := Returns.mapM each
  refine ⟨others.flatten, bind_ok_iff.mpr ⟨others, returned, rfl⟩, ?_⟩
  intro module member
  obtain ⟨group, listed, inside⟩ := List.mem_flatten.mp member
  exact List.mem_flatten.mpr ⟨group, all group listed, inside⟩

/-- A run that goes on with more files emits what the run without them emits, and then goes on. -/
theorem run_append {after : Emission} (returned : program.run options (first ++ last) = .ok after) :
    ∃ before, ∃ visits : List Visit, program.run options first = .ok before ∧
      visits.foldlM (Emission.step program options) before = .ok after := by
  obtain ⟨collected, visits, visited, found, walked, folded⟩ := run_ok_iff.mp returned
  rw [collectModules_append] at found
  obtain ⟨early, foundEarly, rest⟩ := bind_ok_iff.mp found
  obtain ⟨late, _, joined⟩ := bind_ok_iff.mp rest
  cases joined
  rw [List.map_append, walk_append] at walked
  obtain ⟨⟨firstVisits, known⟩, walkedEarly, rest⟩ := bind_ok_iff.mp walked
  obtain ⟨⟨lastVisits, all⟩, _, joined⟩ := bind_ok_iff.mp rest
  cases joined
  rw [List.foldlM_append] at folded
  obtain ⟨before, foldedEarly, foldedLate⟩ := bind_ok_iff.mp folded
  exact ⟨before, lastVisits,
    run_ok_iff.mpr ⟨early, firstVisits, known, foundEarly, walkedEarly, foldedEarly⟩, foldedLate⟩

theorem run_known (known : ∀ name ∈ last, (program.findFile? name).isSome ∧
      ∃ earlier ∈ first, program.findFile? name = program.findFile? earlier) :
    program.run options (first ++ last) = program.run options first := by
  unfold Program.run
  rw [collectModules_append]
  cases found : program.collectModules first with
  | error failure => rfl
  | ok collected =>
    obtain ⟨others, returned, inside⟩ := collectModules_known found known
    simp only [returned, bind, Except.bind, pure, Except.pure]
    congr 1
    unfold Program.emit
    rw [List.map_append, List.map_append, walk_append]
    cases walked : program.walk options [] ((collected.map (·.symbol)).map .walk) with
    | error fault => rfl
    | ok result =>
      obtain ⟨visits, visited⟩ := result
      have walks := walks_of_walk walked
      have seen : ∀ id ∈ others.map (·.symbol), id ∈ visited := by
        intro id member
        obtain ⟨module, listed, rfl⟩ := List.mem_map.mp member
        apply walks.visits_pending
        exact List.mem_map.mpr ⟨_, List.mem_map.mpr ⟨module, inside module listed, rfl⟩, rfl⟩
      simp only [walk_known seen, bind, Except.bind, pure, Except.pure, List.append_nil]

/-- A request that goes on with more files has all documents of the shorter one in their places,
where modules may list more, all of it new. If the further names lead to the same files, nothing
changes at all. -/
theorem extract_append (program : Program) (options : Options) (first last : List String) :
    (∀ after, program.extract options (first ++ last) = .ok after → after.size < UInt32.size →
      ∃ before, program.extract options first = .ok before ∧ Grows before.size before after) ∧
    ((∀ name ∈ last, (program.findFile? name).isSome ∧
        ∃ earlier ∈ first, program.findFile? name = program.findFile? earlier) →
      program.extract options (first ++ last) = program.extract options first) := by
  constructor
  · intro after returned small
    obtain ⟨emission, ran, rfl⟩ := extract_ok_iff.mp returned
    obtain ⟨before, visits, ranEarly, folded⟩ := run_append ran
    have wider : before.docs.size ≤ emission.docs.size :=
      foldlM_keeps (fun current : Emission => before.docs.size ≤ current.docs.size)
        (fun _ _ _ stepped reached => Nat.le_trans reached (size_step stepped)) folded (Nat.le_refl _)
    have sound := run_sound ranEarly (by omega)
    exact ⟨before.docs, extract_ok_iff.mpr ⟨before, ranEarly, rfl⟩,
      emission_grows folded sound (by omega)⟩
  · intro known
    rw [Program.extract, run_known known, Program.extract]

theorem extract_append_split :
    (∃ after, splitNamespace.extract {} (["a"] ++ ["b"]) = .ok after ∧ after.size < UInt32.size ∧
      ∃ before, splitNamespace.extract {} ["a"] = .ok before ∧ before.size = 3 ∧
        Grows before.size before after) ∧
      splitNamespace.extract {} (["a"] ++ ["./a"]) = splitNamespace.extract {} ["a"] := by
  have returned : splitNamespace.extract {} (["a"] ++ ["b"]) = .ok splitDocs := by decide +kernel
  have small : splitDocs.size < UInt32.size := by decide +kernel
  obtain ⟨longer, _⟩ := extract_append splitNamespace {} ["a"] ["b"]
  obtain ⟨_, same⟩ := extract_append splitNamespace {} ["a"] ["./a"]
  obtain ⟨before, early, grows⟩ := longer splitDocs returned small
  have three : (splitNamespace.extract {} ["a"]).map DocSet.size = .ok 3 := by decide +kernel
  rw [early] at three
  exact ⟨⟨splitDocs, returned, small, before, early, Except.ok.inj three, grows⟩,
    same (by decide +kernel)⟩

end Requests

end ApiDocs.Proofs.Growth
