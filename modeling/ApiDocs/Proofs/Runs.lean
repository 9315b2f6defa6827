import ApiDocs.CommandLine.Run
import ApiDocs.Proofs.CommandLines
import ApiDocs.Proofs.ExtractionOutcome
import ApiDocs.Proofs.Snapshots

/-! Runs of the program: what the arguments and the texts of the files make of the exit code and of the
outputs. The stages of a run are described one by one, apart from the code that runs them. The notation of
patterns and the words for unreadable texts are parameters: nothing is assumed about them. -/

namespace ApiDocs.Proofs.Runs

open CommandLine CommandLines DeclaredTypes ExtractionOutcome Json JsonText References Snapshots

section Stages

variable (readers : Readers) (files : Files) (args : ExtractArgs)

/-- The program is read and has no defect. -/
def Loads (program : Program) : Prop :=
  ∃ text, files args.program = .ok text ∧ Program.load text = .ok program

/-- The text holds the settings. -/
def Holds (text : String) (settings : Settings) : Prop := Json.read text >>= Settings.ofJson = some settings

/-- The settings are those of the config, or the defaults if there is none. -/
def Configures (settings : Settings) : Prop :=
  match args.config with
  | none => settings = {}
  | some path => ∃ text, files path = .ok text ∧ Holds text settings

def Compiles (source : String) (pattern : Pattern) : Prop := readers.compiler source = .ok pattern

/-- The first of the patterns that is refused, and why it is. -/
inductive FirstInvalid : List String → InvalidPattern → Prop where
  | here {source cause : String} {sources : List String} (refused : readers.compiler source = .error cause) :
      FirstInvalid (source :: sources) ⟨source, cause⟩
  | later {source : String} {pattern : Pattern} {sources : List String} {invalid : InvalidPattern}
      (compiles : Compiles readers source pattern) (first : FirstInvalid sources invalid) :
      FirstInvalid (source :: sources) invalid

/-- The options of a run: the patterns of the arguments stand after those of the settings, sorting is off if
either says so, and hiding is on if either says so. -/
structure Chosen (settings : Settings) (options : Options) : Prop where
  baseDir : options.baseDir = settings.baseDir
  ignoreExports : List.Forall₂ (Compiles readers) (settings.ignoreExports ++ args.ignoreExports)
    options.ignoreExports
  keepNamespaces : List.Forall₂ (Compiles readers) (settings.keepNamespaces ++ args.keepNamespaces)
    options.keepNamespaces
  sortMembers : options.sortMembers = if args.noSort then false else settings.sortMembers
  hidePrivate : options.hidePrivate = if args.hidePrivate then true else settings.hidePrivate

/-- The first stage that fails. Each stage needs those before it. -/
inductive Fails : Failure → Prop where
  | readProgram {error : ReadError} (unread : files args.program = .error error) :
      Fails (.unreadable args.program error)
  | loadProgram {text : String} {error : LoadError} (read : files args.program = .ok text)
      (refused : Program.load text = .error error) :
      Fails (.badProgram args.program error (readers.programCause text))
  | readConfig {program : Program} {path : String} {error : ReadError} (loads : Loads files args program)
      (given : args.config = some path) (unread : files path = .error error) : Fails (.unreadable path error)
  | parseConfig {program : Program} {path text : String} (loads : Loads files args program)
      (given : args.config = some path) (read : files path = .ok text)
      (refused : ∀ settings, ¬ Holds text settings) : Fails (.badSettings path (readers.settingsCause text))
  | exportPattern {program : Program} {settings : Settings} {invalid : InvalidPattern}
      (loads : Loads files args program) (configures : Configures files args settings)
      (first : FirstInvalid readers (settings.ignoreExports ++ args.ignoreExports) invalid) :
      Fails (.badPattern invalid)
  | namespacePattern {program : Program} {settings : Settings} {patterns : List Pattern}
      {invalid : InvalidPattern} (loads : Loads files args program) (configures : Configures files args settings)
      (exports : List.Forall₂ (Compiles readers) (settings.ignoreExports ++ args.ignoreExports) patterns)
      (first : FirstInvalid readers (settings.keepNamespaces ++ args.keepNamespaces) invalid) :
      Fails (.badPattern invalid)
  | missingFile {program : Program} {settings : Settings} {options : Options} {name : String}
      (loads : Loads files args program) (configures : Configures files args settings)
      (chosen : Chosen readers args settings options)
      (first : args.files.find? (fun name => (program.findFile? name).isNone) = some name) :
      Fails (.missingSourceFile name)

/-- Every stage succeeds. -/
def Succeeds (docs : DocSet) : Prop :=
  ∃ program settings options, Loads files args program ∧ Configures files args settings ∧
    Chosen readers args settings options ∧ program.extract options args.files = .ok docs

/-- The types that the documents would show have an end. -/
def TypesEnd : Prop :=
  ∀ program settings options, Loads files args program → Configures files args settings →
    Chosen readers args settings options → ∀ id, ShownIn program options args.files id → HasType program id

end Stages

section Settings

variable {readers : Readers}

theorem compileAll_ok_iff {sources : List String} {patterns : List Pattern} :
    Pattern.compileAll readers.compiler sources = .ok patterns ↔
      List.Forall₂ (Compiles readers) sources patterns := by
  simp only [Pattern.compileAll, mapM_ok_iff, mapError_ok_iff]
  rfl

theorem compileAll_error_iff {sources : List String} {invalid : InvalidPattern} :
    Pattern.compileAll readers.compiler sources = .error invalid ↔ FirstInvalid readers sources invalid := by
  rw [Pattern.compileAll]
  induction sources with
  | nil => exact iff_of_false (by simp [pure, Except.pure]) (fun first => nomatch first)
  | cons source sources ih =>
    rw [List.mapM_cons, bind_error_iff, mapError_error_iff]
    constructor
    · rintro (⟨cause, refused, rfl⟩ | ⟨pattern, compiles, rest⟩)
      · exact .here refused
      · obtain failed | ⟨_, _, built⟩ := bind_error_iff.mp rest
        · exact .later (mapError_ok_iff.mp compiles) (ih.mp failed)
        · cases built
    · intro first
      cases first with
      | here refused => exact .inl ⟨_, refused, rfl⟩
      | later compiles first =>
        exact .inr ⟨_, mapError_ok_iff.mpr compiles, bind_error_iff.mpr (.inl (ih.mpr first))⟩

variable {args : ExtractArgs} {settings : Settings}

theorem compile_ok_iff {options : Options} :
    (mergeSettings args settings).compile readers.compiler = .ok options ↔
      Chosen readers args settings options := by
  rw [Settings.compile]
  simp only [bind_ok_iff, compileAll_ok_iff, mergeSettings]
  constructor
  · rintro ⟨ignoreExports, exports, keepNamespaces, namespaces, made⟩
    cases made
    exact ⟨rfl, exports, namespaces, by cases args.noSort <;> simp, by cases args.hidePrivate <;> simp⟩
  · intro chosen
    refine ⟨options.ignoreExports, chosen.ignoreExports, options.keepNamespaces, chosen.keepNamespaces, ?_⟩
    have sorts : (settings.sortMembers && !args.noSort) = options.sortMembers := by
      rw [chosen.sortMembers]
      cases args.noSort <;> simp
    have hides : (settings.hidePrivate || args.hidePrivate) = options.hidePrivate := by
      rw [chosen.hidePrivate]
      cases args.hidePrivate <;> simp
    rw [sorts, hides, ← chosen.baseDir]
    rfl

theorem compile_error_iff {invalid : InvalidPattern} :
    (mergeSettings args settings).compile readers.compiler = .error invalid ↔
      FirstInvalid readers (settings.ignoreExports ++ args.ignoreExports) invalid ∨
        (∃ patterns, List.Forall₂ (Compiles readers) (settings.ignoreExports ++ args.ignoreExports)
            patterns) ∧
          FirstInvalid readers (settings.keepNamespaces ++ args.keepNamespaces) invalid := by
  rw [Settings.compile]
  simp only [bind_error_iff, compileAll_ok_iff, compileAll_error_iff, mergeSettings]
  simp [pure, Except.pure]

end Settings

section Preparations

variable {readers : Readers} {files : Files} {args : ExtractArgs}

theorem loadProgram_ok_iff {program : Program} :
    loadProgram readers files args.program = .ok program ↔ Loads files args program := by
  simp only [loadProgram, readFile, bind_ok_iff, mapError_ok_iff, Loads]

theorem loadProgram_error_iff {failure : Failure} :
    loadProgram readers files args.program = .error failure ↔
      (∃ error, files args.program = .error error ∧ .unreadable args.program error = failure) ∨
        ∃ text, files args.program = .ok text ∧
          ∃ error, Program.load text = .error error ∧
            .badProgram args.program error (readers.programCause text) = failure := by
  simp only [loadProgram, readFile, bind_error_iff, mapError_ok_iff, mapError_error_iff]

theorem loadSettings_ok_iff {settings : Settings} :
    loadSettings readers files args.config = .ok settings ↔ Configures files args settings := by
  cases given : args.config with
  | none => simp [loadSettings, Configures, given, eq_comm]
  | some path =>
    simp only [loadSettings, Configures, given, readFile, bind_ok_iff, mapError_ok_iff, Holds]
    refine exists_congr fun text => and_congr_right fun _ => ?_
    cases Json.read text >>= Settings.ofJson <;> simp [pure, Except.pure, throw, throwThe, MonadExceptOf.throw]

theorem loadSettings_error_iff {failure : Failure} :
    loadSettings readers files args.config = .error failure ↔
      ∃ path, args.config = some path ∧
        ((∃ error, files path = .error error ∧ .unreadable path error = failure) ∨
          ∃ text, files path = .ok text ∧ (∀ settings, ¬ Holds text settings) ∧
            .badSettings path (readers.settingsCause text) = failure) := by
  cases given : args.config with
  | none => simp [loadSettings]
  | some path =>
    simp only [loadSettings, readFile, bind_error_iff, mapError_ok_iff, mapError_error_iff, Holds]
    simp only [Option.some.injEq, exists_eq_left']
    refine or_congr_right (exists_congr fun text => and_congr_right fun _ => ?_)
    cases Json.read text >>= Settings.ofJson <;> simp [pure, Except.pure, throw, throwThe, MonadExceptOf.throw]

theorem prepare_ok {program : Program} {settings : Settings} {options : Options}
    (loads : Loads files args program) (configures : Configures files args settings)
    (chosen : Chosen readers args settings options) :
    prepare readers files args = .ok ⟨program, options, args.files⟩ := by
  simp only [prepare, loadProgram_ok_iff.mpr loads, loadSettings_ok_iff.mpr configures,
    compile_ok_iff.mpr chosen, Except.mapError, bind, Except.bind]
  rfl

theorem prepare_unloaded {failure : Failure} (failed : loadProgram readers files args.program = .error failure) :
    prepare readers files args = .error failure := by
  simp [prepare, failed, bind, Except.bind]

theorem prepare_unconfigured {program : Program} {failure : Failure} (loads : Loads files args program)
    (failed : loadSettings readers files args.config = .error failure) :
    prepare readers files args = .error failure := by
  simp [prepare, loadProgram_ok_iff.mpr loads, failed, bind, Except.bind]

theorem prepare_uncompiled {program : Program} {settings : Settings} {invalid : InvalidPattern}
    (loads : Loads files args program) (configures : Configures files args settings)
    (failed : (mergeSettings args settings).compile readers.compiler = .error invalid) :
    prepare readers files args = .error (.badPattern invalid) := by
  simp [prepare, loadProgram_ok_iff.mpr loads, loadSettings_ok_iff.mpr configures, failed, Except.mapError,
    bind, Except.bind]

/-- Everything is prepared, or a stage fails. -/
theorem prepare_cases (readers : Readers) (files : Files) (args : ExtractArgs) :
    (∃ failure, Fails readers files args failure) ∨
      ∃ program settings options, Loads files args program ∧ Configures files args settings ∧
        Chosen readers args settings options := by
  cases loaded : loadProgram readers files args.program with
  | error failure =>
    obtain ⟨error, unread, _⟩ | ⟨text, read, error, refused, _⟩ := loadProgram_error_iff.mp loaded
    · exact .inl ⟨_, .readProgram unread⟩
    · exact .inl ⟨_, .loadProgram read refused⟩
  | ok program =>
  have loads := loadProgram_ok_iff.mp loaded
  cases configured : loadSettings readers files args.config with
  | error failure =>
    obtain ⟨path, given, failed⟩ := loadSettings_error_iff.mp configured
    obtain ⟨error, unread, _⟩ | ⟨text, read, refused, _⟩ := failed
    · exact .inl ⟨_, .readConfig loads given unread⟩
    · exact .inl ⟨_, .parseConfig loads given read refused⟩
  | ok settings =>
  have configures := loadSettings_ok_iff.mp configured
  cases compiled : (mergeSettings args settings).compile readers.compiler with
  | error invalid =>
    obtain first | ⟨⟨patterns, exports⟩, first⟩ := compile_error_iff.mp compiled
    · exact .inl ⟨_, .exportPattern loads configures first⟩
    · exact .inl ⟨_, .namespacePattern loads configures exports first⟩
  | ok options => exact .inr ⟨program, settings, options, loads, configures, compile_ok_iff.mp compiled⟩

end Preparations

section Outcomes

/-- The run prints nothing, and leaves the message of what failed. -/
def Refuses (outcome : Outcome) (failure : Failure) : Prop :=
  outcome.ending = .exit 1 ∧ outcome.stdout = "" ∧ outcome.stderr = failure.message

def Prints (outcome : Outcome) (text : String) : Prop :=
  outcome.ending = .exit 0 ∧ outcome.stdout = text ∧ outcome.stderr = ""

/-- A type without end keeps the run from its end: neither documents nor a message come out. -/
def CutShort (outcome : Outcome) : Prop :=
  (∃ id, outcome.ending = .fault (.endlessAccessor id)) ∧ outcome.stdout = "" ∧ outcome.stderr = ""

variable {readers : Readers} {files : Files} {args : ExtractArgs}

theorem closed_of_loads {program : Program} (loads : Loads files args program) : Closed program := by
  obtain ⟨_, _, loaded⟩ := loads
  exact closed_of_check (checked_of_load loaded)

theorem refuses_of_prepare {failure : Failure} (failed : prepare readers files args = .error failure) :
    Refuses (runExtract readers files args) failure := by
  rw [runExtract, failed]
  exact ⟨rfl, rfl, rfl⟩

theorem runExtract_fails {failure : Failure} (fails : Fails readers files args failure) :
    Refuses (runExtract readers files args) failure := by
  cases fails with
  | readProgram unread =>
    exact refuses_of_prepare (prepare_unloaded (loadProgram_error_iff.mpr (.inl ⟨_, unread, rfl⟩)))
  | loadProgram read refused =>
    exact refuses_of_prepare (prepare_unloaded (loadProgram_error_iff.mpr (.inr ⟨_, read, _, refused, rfl⟩)))
  | readConfig loads given unread =>
    refine refuses_of_prepare (prepare_unconfigured loads ?_)
    exact loadSettings_error_iff.mpr ⟨_, given, .inl ⟨_, unread, rfl⟩⟩
  | parseConfig loads given read refused =>
    refine refuses_of_prepare (prepare_unconfigured loads ?_)
    exact loadSettings_error_iff.mpr ⟨_, given, .inr ⟨_, read, refused, rfl⟩⟩
  | exportPattern loads configures first =>
    have failed := compile_error_iff.mpr (.inl first)
    exact refuses_of_prepare (prepare_uncompiled loads configures failed)
  | namespacePattern loads configures exports first =>
    have failed := compile_error_iff.mpr (.inr ⟨⟨_, exports⟩, first⟩)
    exact refuses_of_prepare (prepare_uncompiled loads configures failed)
  | missingFile loads configures chosen first =>
    rw [runExtract, prepare_ok loads configures chosen]
    simp only [extract_missing (closed_of_loads loads) first]
    exact ⟨rfl, rfl, rfl⟩

theorem runExtract_succeeds {docs : DocSet} (succeeds : Succeeds readers files args docs) :
    Prints (runExtract readers files args) (docs.write (layout args) ++ "\n") := by
  obtain ⟨program, settings, options, loads, configures, chosen, extracted⟩ := succeeds
  rw [runExtract, prepare_ok loads configures chosen]
  simp only [extracted]
  exact ⟨rfl, rfl, rfl⟩

theorem fails_or_succeeds (typed : TypesEnd readers files args) :
    (∃ failure, Fails readers files args failure) ∨ ∃ docs, Succeeds readers files args docs := by
  obtain failed | ⟨program, settings, options, loads, configures, chosen⟩ := prepare_cases readers files args
  · exact .inl failed
  cases first : args.files.find? (fun name => (program.findFile? name).isNone) with
  | some name => exact .inl ⟨_, .missingFile loads configures chosen first⟩
  | none =>
    have closed := closed_of_loads loads
    obtain ⟨docs, extracted, _⟩ | ⟨_, id, _, shown, untyped⟩ := extract_cases closed options first
    · exact .inr ⟨docs, program, settings, options, loads, configures, chosen, extracted⟩
    · exact absurd (typed _ _ _ loads configures chosen id shown) untyped

theorem runExtract_cutShort (untyped : ¬ TypesEnd readers files args) :
    CutShort (runExtract readers files args) := by
  simp only [TypesEnd, Classical.not_forall] at untyped
  obtain ⟨program, settings, options, loads, configures, chosen, id, shown, endless⟩ := untyped
  have closed := closed_of_loads loads
  obtain ⟨_, _, typed⟩ | ⟨_, _, extracted, _⟩ := extract_cases closed options (found_of_shown closed shown)
  · exact absurd (typed id shown) endless
  rw [runExtract, prepare_ok loads configures chosen]
  simp only [extracted]
  exact ⟨⟨_, rfl⟩, rfl, rfl⟩

end Outcomes

section Merging

theorem slots_settings (settings : Settings) :
    slots Settings.schema settings.toJson = some [
      some (.str settings.baseDir), some (ofStrs settings.ignoreExports), some (ofStrs settings.keepNamespaces),
      some (.bool settings.sortMembers), some (.bool settings.hidePrivate)] := by
  rw [Settings.toJson, slots, Settings.schema]
  simp [field]

theorem codes_settings : Codes Settings.toJson Settings.ofJson := by
  constructor
  · intro settings
    rw [Settings.ofJson, slots_settings]
    simp [withDefault, codes_texts.reads, codes_str.reads, codes_bool.reads]
  · intro settings
    apply Exact.obj
    simp only [List.forall_mem_cons]
    exact ⟨.str _, codes_texts.exact _, codes_texts.exact _, .bool _, .bool _, by simp⟩

/-- Settings are read back from every layout of their text. -/
theorem holds_write (settings : Settings) (layout : Layout) : Holds (settings.toJson.write layout) settings := by
  rw [Holds, read_write (codes_settings.exact settings)]
  exact codes_settings.reads settings

/-- The same request with a config in place of patterns and switches. -/
def withoutFlags (args : ExtractArgs) (config : String) : ExtractArgs :=
  { args with
    config := some config
    ignoreExports := []
    keepNamespaces := []
    noSort := false
    hidePrivate := false }

variable {readers : Readers} {files other : Files} {args : ExtractArgs} {settings : Settings}

theorem mergeSettings_withoutFlags (args : ExtractArgs) (config : String) (merged : Settings) :
    mergeSettings (withoutFlags args config) merged = merged := by
  simp [mergeSettings, withoutFlags]

/-- Nothing changes if the flags are written into the config. -/
theorem runExtract_merged (configures : Configures files args settings)
    (same : other args.program = files args.program) {config text : String} (read : other config = .ok text)
    (written : Holds text (mergeSettings args settings)) :
    runExtract readers other (withoutFlags args config) = runExtract readers files args := by
  have loaded : loadProgram readers other (withoutFlags args config).program =
      loadProgram readers files args.program := by
    rw [loadProgram, loadProgram, readFile, readFile, ← same]
    rfl
  have configured :
      loadSettings readers other (withoutFlags args config).config = .ok (mergeSettings args settings) :=
    loadSettings_ok_iff.mpr ⟨text, read, written⟩
  have prepared : prepare readers other (withoutFlags args config) = prepare readers files args := by
    rw [prepare, prepare, loaded, configured, loadSettings_ok_iff.mpr configures]
    simp only [mergeSettings_withoutFlags, bind, Except.bind]
    rfl
  rw [runExtract, runExtract, prepared]
  rfl

end Merging

section Runs

/-- What a request leaves: the message of the first stage that fails, or else the documents, unless a type that
they would show has no end. -/
structure Leaves (readers : Readers) (files : Files) (args : ExtractArgs) (outcome : Outcome) : Prop where
  refused : ∀ failure, Fails readers files args failure → Refuses outcome failure
  printed : ∀ docs, Succeeds readers files args docs → Prints outcome (docs.write (layout args) ++ "\n")
  settled : TypesEnd readers files args →
    (∃ failure, Fails readers files args failure) ∨ ∃ docs, Succeeds readers files args docs
  cutShort : ¬ TypesEnd readers files args → CutShort outcome

section Lines

variable (readers : Readers) (files : Files) {arguments : List String} {args : ExtractArgs}
  (accepted : Command.ofArgs arguments = some (.extract args))

include accepted

theorem run_accepted : run readers files arguments = runExtract readers files args := by
  rw [run, accepted]

/-- A run goes through its stages in order. Its flags could as well be written into its config. -/
theorem run_extract :
    Leaves readers files args (run readers files arguments) ∧
      ∀ settings other config text, Configures files args settings → config ≠ "" →
        other args.program = files args.program → other config = .ok text →
        Holds text (mergeSettings args settings) →
        run readers other (spelled (withoutFlags args config)) = run readers files arguments := by
  rw [run_accepted readers files accepted]
  constructor
  · constructor
    · intro failure fails
      exact runExtract_fails fails
    · intro docs succeeds
      exact runExtract_succeeds succeeds
    · exact fails_or_succeeds
    · exact runExtract_cutShort
  · intro settings other config text configures nonempty same read written
    obtain ⟨program, _, several⟩ := askable_of_ofArgs accepted
    have askable : Askable (withoutFlags args config) :=
      ⟨program, by simpa [withoutFlags] using nonempty, several⟩
    rw [run_accepted readers other (ofArgs_spelled askable)]
    exact runExtract_merged configures same read written

end Lines

theorem loads_saved {files : Files} {args : ExtractArgs} {program : Program} (sound : program.check = .ok ())
    (saved : files args.program = .ok program.save) : Loads files args program := by
  have text : Json.read program.save = some program.toJson := read_write (codes_program.exact program) .indented
  refine ⟨program.save, saved, ?_⟩
  simp [Program.load, Program.accept, text, codes_program.reads, sound]

/-- Settings with a pattern, which hide private members. -/
def discreet : Settings := { ignoreExports := ["^_"], hidePrivate := true }

/-- A directory that holds a saved program and settings. -/
def directory (program : Program) : Files := fun path =>
  if path = "program.json" then .ok program.save
  else if path = "config.json" then .ok (discreet.toJson.write .compact)
  else .error .notFound

/-- Asks for the documents of a file, either as it is or with all that the settings say as flags. -/
def request (flags : Bool) : ExtractArgs where
  files := ["a.ts"]
  program := "program.json"
  ignoreExports := if flags then discreet.ignoreExports else []
  hidePrivate := flags

def requestLine (flags : Bool) : List String :=
  ["extract", "a.ts", "--program", "program.json"] ++
    if flags then ["--ignore-exports", "^_", "--hide-private-members"] else []

theorem ofArgs_requestLine (flags : Bool) :
    Command.ofArgs (requestLine flags) = some (.extract (request flags)) := by
  cases flags <;> decide +kernel

/-- Readers for the common notation of patterns, with one text for each kind of file. -/
def fixedReaders : Readers := ⟨Pattern.compile, fun _ => "no program", fun _ => "no settings"⟩

def discreetOptions : Options := (discreet.compile Pattern.compile).toOption.getD {}

def shownDocs : DocSet := ((classWithSetter ⟨2⟩).extract discreetOptions ["a.ts"]).toOption.getD {}

theorem run_extract_classWithSetter :
    Command.ofArgs (requestLine true) = some (.extract (request true)) ∧
      Succeeds fixedReaders (directory (classWithSetter ⟨2⟩)) (request true) shownDocs ∧
      TypesEnd fixedReaders (directory (classWithSetter ⟨2⟩)) (request true) ∧
      Prints (run fixedReaders (directory (classWithSetter ⟨2⟩)) (requestLine true))
        (shownDocs.write .compact ++ "\n") ∧
      run fixedReaders (directory (classWithSetter ⟨2⟩))
          ["extract", "--program=program.json", "--config=config.json", "--", "a.ts"] =
        run fixedReaders (directory (classWithSetter ⟨2⟩)) (requestLine true) := by
  have loads : Loads (directory (classWithSetter ⟨2⟩)) (request true) (classWithSetter ⟨2⟩) :=
    loads_saved (by decide +kernel) rfl
  have chosen : Chosen fixedReaders (request true) {} discreetOptions :=
    compile_ok_iff.mp (by decide +kernel)
  have succeeds : Succeeds fixedReaders (directory (classWithSetter ⟨2⟩)) (request true) shownDocs :=
    ⟨classWithSetter ⟨2⟩, {}, discreetOptions, loads, rfl, chosen, by decide +kernel⟩
  obtain ⟨leaves, merged⟩ :=
    run_extract fixedReaders (directory (classWithSetter ⟨2⟩)) (ofArgs_requestLine true)
  have printed := leaves.printed shownDocs succeeds
  refine ⟨ofArgs_requestLine true, succeeds, ?_, printed, ?_⟩
  · refine Classical.byContradiction fun untyped => ?_
    obtain ⟨_, faulted⟩ := (leaves.cutShort untyped).1
    cases printed.1.symm.trans faulted
  · exact merged {} _ "config.json" _ rfl (by decide) rfl rfl (holds_write _ _)

/-- A run that would show a type without end prints neither documents nor the message of a stage, though no
stage fails. -/
theorem run_endless_setter :
    Command.ofArgs (requestLine false) = some (.extract (request false)) ∧
      (∀ failure, ¬ Fails fixedReaders (directory (classWithSetter ⟨1⟩)) (request false) failure) ∧
      (∀ code, (run fixedReaders (directory (classWithSetter ⟨1⟩)) (requestLine false)).ending ≠ .exit code) ∧
      (run fixedReaders (directory (classWithSetter ⟨1⟩)) (requestLine false)).stdout = "" ∧
      (run fixedReaders (directory (classWithSetter ⟨1⟩)) (requestLine false)).stderr = "" := by
  have loads : Loads (directory (classWithSetter ⟨1⟩)) (request false) (classWithSetter ⟨1⟩) :=
    loads_saved (by decide +kernel) rfl
  have chosen : Chosen fixedReaders (request false) {} {} := ⟨rfl, .nil, .nil, rfl, rfl⟩
  have endless : (classWithSetter ⟨1⟩).extract {} ["a.ts"] = .error (.fault (.endlessAccessor ⟨1⟩)) := by
    decide +kernel
  have cutShort : CutShort (runExtract fixedReaders (directory (classWithSetter ⟨1⟩)) (request false)) := by
    rw [runExtract, prepare_ok loads rfl chosen]
    simp only [request, endless]
    exact ⟨⟨_, rfl⟩, rfl, rfl⟩
  rw [run_accepted _ _ (ofArgs_requestLine false)]
  obtain ⟨⟨id, faulted⟩, silent⟩ := cutShort
  refine ⟨ofArgs_requestLine false, fun failure fails => ?_, fun code exited => ?_, silent⟩
  · cases faulted.symm.trans (runExtract_fails fails).1
  · cases faulted.symm.trans exited

end Runs

end ApiDocs.Proofs.Runs
