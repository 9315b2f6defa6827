import ApiDocs.Proofs.Coverage
import ApiDocs.Proofs.DeclaredTypes

/-! How extractions of checked programs come out. A request with a missing file is refused with its
first missing name; every other one gives documents, unless it has to show a type that has no end. -/

namespace ApiDocs.Proofs.ExtractionOutcome

open References DeclaredTypes Coverage

/-- The type of the declaration is shown in the documents for the requested files. -/
def ShownIn (program : Program) (options : Options) (names : List String) (id : DeclId) : Prop :=
  ∃ module position export_, Reached program options names module ∧
    Documents program options module position export_ ∧ Shows program options export_.target id

def VisitShows (program : Program) (options : Options) (visit : Visit) (id : DeclId) : Prop :=
  ∃ head export_, visit = .meet head export_ ∧ Shows program options export_.target id

section Emission

variable {program : Program} {options : Options}

theorem step_needs (closed : Closed program) (emission : Emission) {visit : Visit}
    (held : VisitHeld program visit) :
    Needs program (VisitShows program options visit) (Emission.step program options emission visit) := by
  cases visit with
  | enter head | leave head =>
    intro id impossible
    obtain ⟨_, _, other, _⟩ := impossible
    cases other
  | meet head export_ =>
    have described := describe_needs closed options held
    apply (described.andThen fun _ _ => .pure trivial).congr
    intro id
    simp [VisitShows]

variable {names : List String} {collected : List CollectedModule} {visits : List Visit}
  {visited : List SymbolId}

/-- What the visits of a walk show is what the documents of reached modules show. -/
theorem visitShows_iff (found : program.collectModules names = .ok collected)
    (walked : program.walk options [] ((collected.map (·.symbol)).map .walk) = .ok (visits, visited))
    (id : DeclId) :
    (∃ visit ∈ visits, VisitShows program options visit id) ↔ ShownIn program options names id := by
  constructor
  · intro shown
    obtain ⟨visit, member, head, export_, rfl, shows⟩ := shown
    have meets : (head, export_) ∈ met visits := List.mem_filterMap.mpr ⟨_, member, rfl⟩
    obtain ⟨reached, _, position, documents⟩ := documents_of_met found walked meets
    exact ⟨head.symbol, position, export_, reached, documents, shows⟩
  · intro shown
    obtain ⟨module, position, export_, reached, documents, shows⟩ := shown
    obtain ⟨head, _, meets⟩ := met_of_documents found walked reached documents
    obtain ⟨visit, member, chosen⟩ := List.mem_filterMap.mp meets
    cases visit with
    | enter | leave => cases chosen
    | meet other otherExport =>
      cases chosen
      exact ⟨_, member, head, export_, rfl, shows⟩

end Emission

section Requests

variable {program : Program} (closed : Closed program)

include closed

theorem extract_missing {options : Options} {names : List String} {name : String}
    (missing : names.find? (fun name => (program.findFile? name).isNone) = some name) :
    program.extract options names = .error (.missingSourceFile name) := by
  simp [Program.extract, Program.run, collectModules_missing closed missing, bind, Except.bind, Except.map]

/-- Without missing files, extraction needs the types that it shows and nothing else. -/
theorem extract_found (options : Options) {names : List String}
    (found : names.find? (fun name => (program.findFile? name).isNone) = none) :
    ∃ result, program.extract options names = result.mapError .fault ∧
      Needs program (ShownIn program options names) result := by
  obtain ⟨collected, returned, held⟩ := collectModules_returns closed found
  have tasks : ∀ task ∈ (collected.map (·.symbol)).map Task.walk, TaskHeld program task := by
    simpa [TaskHeld] using held
  obtain ⟨⟨visits, visited⟩, walked, visitsHeld⟩ := walk_returns closed options [] _ tasks
  have folded : Needs program (fun id => ∃ visit ∈ visits, VisitShows program options visit id)
      (visits.foldlM (Emission.step program options) {}) := by
    apply Needs.foldlM
    intro emission visit member
    exact step_needs closed emission (visitsHeld visit member)
  have needs := folded.congr (visitShows_iff returned walked)
  refine ⟨visits.foldlM (Emission.step program options) {} >>= fun emission => pure emission.docs, ?_,
    needs.andThen fun _ _ => .pure trivial⟩
  simp only [Program.extract, Program.run, Program.emit, returned, walked, bind, Except.bind]
  cases visits.foldlM (Emission.step program options) {} <;> rfl

/-- Without missing files, documents come of types that end, and of nothing else. -/
theorem extract_cases (options : Options) {names : List String}
    (found : names.find? (fun name => (program.findFile? name).isNone) = none) :
    (∃ docs, program.extract options names = .ok docs ∧
        ∀ id, ShownIn program options names id → HasType program id) ∨
      ∃ decl id, program.extract options names = .error (.fault (.endlessAccessor decl)) ∧
        ShownIn program options names id ∧ ¬ HasType program id := by
  obtain ⟨result, returned, needs⟩ := extract_found closed options found
  rw [returned]
  cases result with
  | ok docs => exact .inl ⟨docs, rfl, needs⟩
  | error fault =>
    obtain ⟨⟨decl, rfl⟩, id, shown, untyped⟩ := needs
    exact .inr ⟨decl, id, rfl, shown, untyped⟩

/-- Nothing is shown by a request with a missing file. -/
theorem found_of_shown {options : Options} {names : List String} {id : DeclId}
    (shown : ShownIn program options names id) :
    names.find? (fun name => (program.findFile? name).isNone) = none := by
  obtain ⟨_, _, _, ⟨collected, found, _⟩, _⟩ := shown
  cases missing : names.find? (fun name => (program.findFile? name).isNone) with
  | none => rfl
  | some name =>
    rw [collectModules_missing closed missing] at found
    cases found

end Requests

/-- A module with a class whose set accessor takes its type from the given parameter. -/
def classWithSetter (parameter : DeclId) : Program where
  files := #[{ name := "a.ts", moduleSymbol := some ⟨0⟩ }]
  symbols := #[
    { name := "a", flags := SymbolFlags.valueModule, exports := [⟨1⟩] },
    { name := "C", flags := SymbolFlags.class_, declarations := [⟨0⟩], parent := some ⟨0⟩ }]
  declarations := #[
    { kind := .class_, file := ⟨0⟩, name := "C", members := [⟨1⟩] },
    { kind := .setAccessor, file := ⟨0⟩, name := "x", parameters := [parameter] },
    { kind := .parameter, file := ⟨0⟩, name := "value", typeAnnotation := some "number" }]

section Outcome

variable {program : Program}

/-- The type of a declaration can be given exactly if its chain of set accessors ends, and an
extraction returns exactly if this is so for every declaration whose type it shows. -/
theorem extract_ends_iff (accepted : program.check = .ok ()) :
    (∀ keep id, (∃ type, program.declaredType keep id = .ok type) ↔ HasType program id) ∧
      ∀ options names,
        ((∃ docs, program.extract options names = .ok docs) ∨
          ∃ name, program.extract options names = .error (.missingSourceFile name)) ↔
        ∀ id, ShownIn program options names id → HasType program id := by
  have closed := closed_of_check accepted
  refine ⟨fun keep id => declaredType_returns_iff, fun options names => ?_⟩
  cases missing : names.find? (fun name => (program.findFile? name).isNone) with
  | some name =>
    -- nothing is reached by a request that is refused, so nothing is shown
    refine iff_of_true (.inr ⟨name, extract_missing closed missing⟩) ?_
    intro id shown
    obtain ⟨_, _, _, ⟨collected, found, _⟩, _⟩ := shown
    rw [collectModules_missing closed missing] at found
    cases found
  | none =>
    obtain ⟨result, returned, needs⟩ := extract_found closed options missing
    rw [returned]
    cases result with
    | ok docs => exact iff_of_true (.inl ⟨docs, rfl⟩) needs
    | error fault =>
      obtain ⟨_, id, shown, untyped⟩ := needs
      refine iff_of_false ?_ fun typed => untyped (typed id shown)
      simp [Except.mapError]

theorem extract_ends_classWithSetter :
    (classWithSetter ⟨2⟩).check = .ok () ∧
      (∃ type, (classWithSetter ⟨2⟩).declaredType (fun _ => false) ⟨1⟩ = .ok type) ∧
      HasType (classWithSetter ⟨2⟩) ⟨1⟩ ∧
      ∀ id, ShownIn (classWithSetter ⟨2⟩) {} ["a.ts"] id → HasType (classWithSetter ⟨2⟩) id := by
  have accepted : (classWithSetter ⟨2⟩).check = .ok () := by decide +kernel
  have typed : (classWithSetter ⟨2⟩).declaredType (fun _ => false) ⟨1⟩ = .ok "number" := by decide +kernel
  have returned : ∃ docs, (classWithSetter ⟨2⟩).extract {} ["a.ts"] = .ok docs :=
    ⟨((classWithSetter ⟨2⟩).extract {} ["a.ts"]).toOption.getD {}, by decide +kernel⟩
  obtain ⟨types, ends⟩ := extract_ends_iff accepted
  exact ⟨accepted, ⟨_, typed⟩, (types _ _).mp ⟨_, typed⟩, (ends _ _).mp (.inl returned)⟩

/-- A set accessor that is its own parameter passes the check, has no type, and is shown. -/
theorem extract_endless_setter :
    (classWithSetter ⟨1⟩).check = .ok () ∧ (classWithSetter ⟨1⟩).holds (.decl ⟨1⟩) ∧
      ¬ HasType (classWithSetter ⟨1⟩) ⟨1⟩ ∧
      (∀ keep, (classWithSetter ⟨1⟩).declaredType keep ⟨1⟩ = .error (.endlessAccessor ⟨1⟩)) ∧
      (classWithSetter ⟨1⟩).extract {} ["a.ts"] = .error (.fault (.endlessAccessor ⟨1⟩)) := by
  have failed : (classWithSetter ⟨1⟩).typeGiver ⟨1⟩ = .error (.endlessAccessor ⟨1⟩) := by decide +kernel
  refine ⟨by decide +kernel, by decide +kernel, ?_, ?_, by decide +kernel⟩
  · intro typed
    obtain ⟨last, typed⟩ := typed
    rw [typeGiver_ok_iff.mpr ⟨last.1, typed⟩] at failed
    cases failed
  · intro keep
    simp [Program.declaredType, failed, bind, Except.bind]

/-- In a program that passes the check no index is looked up past the end of its table. A request
with missing files is refused with the first missing name. Any other request gives documents,
unless it does not return because a type that it shows has no end. -/
theorem extract_outcome (accepted : program.check = .ok ()) (options : Options) (names : List String) :
    (∀ table index, program.extract options names ≠ .error (.fault (.missing table index))) ∧
      (∀ name, program.extract options names = .error (.missingSourceFile name) ↔
        names.find? (fun name => (program.findFile? name).isNone) = some name) ∧
      ((∀ name ∈ names, (program.findFile? name).isSome) →
        (∃ docs, program.extract options names = .ok docs) ∨
          (∃ decl, program.extract options names = .error (.fault (.endlessAccessor decl))) ∧
            ∃ id, ShownIn program options names id ∧ ¬ HasType program id) := by
  have closed := closed_of_check accepted
  cases missing : names.find? (fun name => (program.findFile? name).isNone) with
  | some name =>
    rw [extract_missing closed missing]
    refine ⟨by simp, by simp, fun found => ?_⟩
    have absent := List.find?_some missing
    have present := found name (List.mem_of_find?_eq_some missing)
    simp [Option.isNone_iff_eq_none.mp absent] at present
  | none =>
    obtain ⟨result, returned, needs⟩ := extract_found closed options missing
    rw [returned]
    cases result with
    | ok docs => simp [Except.mapError]
    | error fault =>
      obtain ⟨⟨decl, rfl⟩, untyped⟩ := needs
      exact ⟨by simp [Except.mapError], by simp [Except.mapError], fun _ => .inr ⟨⟨decl, rfl⟩, untyped⟩⟩

theorem extract_outcome_classWithSetter :
    (classWithSetter ⟨2⟩).check = .ok () ∧
      (classWithSetter ⟨2⟩).extract {} ["a.ts", "b.ts", "c.ts"] = .error (.missingSourceFile "b.ts") ∧
      ∀ table index, (classWithSetter ⟨2⟩).extract {} ["a.ts"] ≠ .error (.fault (.missing table index)) := by
  have accepted : (classWithSetter ⟨2⟩).check = .ok () := by decide +kernel
  have refused := (extract_outcome accepted {} ["a.ts", "b.ts", "c.ts"]).2.1 "b.ts"
  exact ⟨accepted, refused.mpr (by decide +kernel), (extract_outcome accepted {} ["a.ts"]).1⟩

end Outcome

end ApiDocs.Proofs.ExtractionOutcome
