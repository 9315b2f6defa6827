import ApiDocs.CommandLine.Args
import Mathlib.Data.List.TakeWhile

/-! Command lines. Every request that can be asked for is read back from a line that spells it out, with its
options first, and no line asks for anything else. -/

namespace ApiDocs.Proofs.CommandLines

open CommandLine

section Spelling

/-- An option together with its value. -/
def option (name value : String) : String := "--" ++ name ++ "=" ++ value

def switch (name : String) (given : Bool) : List String := if given then ["--" ++ name] else []

/-- A command line for the request. -/
def spelled (args : ExtractArgs) : List String :=
  "extract" :: option "program" args.program :: args.config.toList.map (option "config") ++
    args.ignoreExports.map (option "ignore-exports") ++ args.keepNamespaces.map (option "keep-namespace") ++
    switch "no-sort-class-members" args.noSort ++ switch "hide-private-members" args.hidePrivate ++
    switch "pretty" args.pretty ++ switch "trace" args.trace ++ "--" :: args.files

/-- What a request needs: paths that are not empty, and a file. -/
structure Askable (args : ExtractArgs) : Prop where
  program : args.program ≠ ""
  config : args.config ≠ some ""
  files : args.files ≠ []

end Spelling

section Reading

theorem after?_dashes (name : String) : Text.after? ['-', '-'] ("--" ++ name).toList = some name.toList := by
  rw [Text.after?_eq_some, String.toList_append]
  rfl

theorem dashes_ne {name : String} (nonempty : name ≠ "") : "--" ++ name ≠ "--" := by
  intro same
  have none : name.toList = [] := by simpa using congrArg String.toList same
  exact nonempty (String.toList_eq_nil_iff.mp none)

theorem unequal {name : List Char} (plain : '=' ∉ name) : ∀ c ∈ name, (c != '=') = true := by
  intro c member
  simp only [bne_iff_ne]
  rintro rfl
  exact plain member

theorem splitOption_bare {name : List Char} (plain : '=' ∉ name) :
    splitOption name = (String.ofList name, none) := by
  rw [splitOption, List.takeWhile_eq_self_iff.mpr (unequal plain), List.dropWhile_eq_nil_iff.mpr (unequal plain)]

theorem splitOption_value {name : List Char} (plain : '=' ∉ name) (value : List Char) :
    splitOption (name ++ '=' :: value) = (String.ofList name, some (String.ofList value)) := by
  rw [splitOption, List.takeWhile_append_of_pos (unequal plain), List.dropWhile_append_of_pos (unequal plain)]
  simp

variable {name : String} (plain : '=' ∉ name.toList) (draft : Draft)

include plain in
theorem readArgs_option {setting : Setting} (known : Setting.ofName? name = some setting)
    (other : Switch.ofName? name = none) (value : String) (rest : List String) :
    readArgs draft (option name value :: rest) = draft.assign setting value >>= (readArgs · rest) := by
  have spelling : option name value = "--" ++ (name ++ "=" ++ value) := by
    simp [option, String.append_assoc]
  have chars : (name ++ "=" ++ value).toList = name.toList ++ '=' :: value.toList := by
    simp
  rw [spelling, readArgs, after?_dashes, chars]
  · simp only [splitOption_value plain, String.ofList_toList, known, other]
  · apply dashes_ne
    intro empty
    simp [empty] at chars

include plain in
theorem readArgs_switch {switch : Switch} (known : Switch.ofName? name = some switch)
    (rest : List String) : readArgs draft (("--" ++ name) :: rest) = draft.turnOn switch >>= (readArgs · rest) := by
  rw [readArgs, after?_dashes]
  · simp only [splitOption_bare plain, String.ofList_toList, known]
  · apply dashes_ne
    rintro rfl
    cases known

theorem readArgs_files (files : List String) :
    readArgs draft ("--" :: files) = some { draft with files := draft.files ++ files } := by
  rw [readArgs]

/-- Puts the values of a setting that may be given several times behind those it has. -/
def extended (draft : Draft) (setting : Setting) (values : List String) : Draft :=
  match setting with
  | .ignoreExports => { draft with ignoreExports := draft.ignoreExports ++ values }
  | .keepNamespace => { draft with keepNamespaces := draft.keepNamespaces ++ values }
  | .program | .config => draft

theorem extended_nil (draft : Draft) (setting : Setting) : extended draft setting [] = draft := by
  cases setting <;> simp [extended]

theorem extended_cons (draft : Draft) (setting : Setting) (value : String) (values : List String) :
    extended draft setting (value :: values) = extended (extended draft setting [value]) setting values := by
  cases setting <;> simp [extended]

/-- An option that may be repeated takes all its values, in order. -/
theorem readArgs_options {name : String} (plain : '=' ∉ name.toList) {setting : Setting}
    (known : Setting.ofName? name = some setting) (other : Switch.ofName? name = none)
    (repeatable : ∀ draft value, Draft.assign draft setting value = some (extended draft setting [value]))
    (draft : Draft) (values rest : List String) :
    readArgs draft (values.map (option name) ++ rest) = readArgs (extended draft setting values) rest := by
  induction values generalizing draft with
  | nil => rw [extended_nil, List.map_nil, List.nil_append]
  | cons value values ih =>
    rw [List.map_cons, List.cons_append, readArgs_option plain draft known other, repeatable,
      Option.bind_eq_bind, Option.bind_some, ih, ← extended_cons]

/-- The switches that are on after one was or was not given. -/
def turned (flag : Switch) (given : Bool) (earlier : List Switch) : List Switch :=
  if given then flag :: earlier else earlier

theorem mem_turned {flag other : Switch} {given : Bool} {earlier : List Switch} :
    other ∈ turned flag given earlier ↔ given = true ∧ other = flag ∨ other ∈ earlier := by
  cases given <;> simp [turned]

theorem readArgs_switches {name : String} (plain : '=' ∉ name.toList) {flag : Switch}
    (known : Switch.ofName? name = some flag) {draft : Draft} (off : flag ∉ draft.switches) (given : Bool)
    (rest : List String) :
    readArgs draft (switch name given ++ rest) =
      readArgs { draft with switches := turned flag given draft.switches } rest := by
  cases given with
  | false => rfl
  | true =>
    rw [switch, if_pos rfl, List.singleton_append, readArgs_switch plain draft known, Draft.turnOn, if_neg off]
    rfl

/-- The switches of a request, the last one first. -/
def switchesOf (args : ExtractArgs) : List Switch :=
  turned .trace args.trace <| turned .pretty args.pretty <| turned .hidePrivate args.hidePrivate <|
    turned .noSort args.noSort []

theorem readArgs_switchesOf {draft : Draft} (off : draft.switches = []) (args : ExtractArgs) (rest : List String) :
    readArgs draft (switch "no-sort-class-members" args.noSort ++
      (switch "hide-private-members" args.hidePrivate ++
      (switch "pretty" args.pretty ++ (switch "trace" args.trace ++ rest)))) =
      readArgs { draft with switches := switchesOf args } rest := by
  rw [readArgs_switches (by decide) rfl (by simp [off]),
    readArgs_switches (by decide) rfl (by simp [off, mem_turned]),
    readArgs_switches (by decide) rfl (by simp [off, mem_turned]),
    readArgs_switches (by decide) rfl (by simp [off, mem_turned]), off]
  rfl

theorem readArgs_config {draft : Draft} (unset : draft.config = none) {config : Option String}
    (nonempty : config ≠ some "") (rest : List String) :
    readArgs draft (config.toList.map (option "config") ++ rest) = readArgs { draft with config } rest := by
  cases config with
  | none =>
    cases draft
    cases unset
    rfl
  | some path =>
    have given : path.isEmpty = false := by simpa using nonempty
    rw [Option.toList_some, List.map_singleton, List.singleton_append, readArgs_option (by decide) draft rfl rfl,
      Draft.assign, unset, given]
    rfl

/-- What is known once the line of a request was read. -/
def drafted (args : ExtractArgs) : Draft where
  files := args.files
  program := some args.program
  config := args.config
  ignoreExports := args.ignoreExports
  keepNamespaces := args.keepNamespaces
  switches := switchesOf args

theorem finish_drafted {args : ExtractArgs} (files : args.files ≠ []) : (drafted args).finish = some args := by
  obtain ⟨_ | ⟨file, rest⟩, _, _, _, _, _, _, _, _⟩ := args
  · exact absurd rfl files
  · simp [drafted, Draft.finish, switchesOf, mem_turned]

theorem ofArgs_spelled {args : ExtractArgs} (askable : Askable args) :
    Command.ofArgs (spelled args) = some (.extract args) := by
  obtain ⟨program, config, files⟩ := askable
  have given : args.program.isEmpty = false := by simpa using program
  rw [spelled]
  simp only [List.cons_append, List.append_assoc, Command.ofArgs]
  rw [readArgs_option (by decide) {} rfl rfl, Draft.assign, given]
  simp only [Option.isSome_none, Bool.false_or, Bool.false_eq_true, if_false, Option.bind_eq_bind,
    Option.bind_some]
  rw [readArgs_config rfl config, readArgs_options (by decide) rfl rfl fun _ _ => rfl,
    readArgs_options (by decide) rfl rfl fun _ _ => rfl, readArgs_switchesOf rfl, readArgs_files, Option.bind_some]
  change (drafted args).finish.bind _ = _
  rw [finish_drafted files]
  rfl

end Reading

section Requests

/-- The paths that were read so far are not empty. -/
def Named (draft : Draft) : Prop := draft.program ≠ some "" ∧ draft.config ≠ some ""

theorem named_turnOn {draft next : Draft} {flag : Switch} (named : Named draft)
    (turned : draft.turnOn flag = some next) : Named next := by
  rw [Draft.turnOn] at turned
  split at turned
  · cases turned
  · cases turned
    exact named

theorem named_assign {draft next : Draft} {setting : Setting} {value : String} (named : Named draft)
    (assigned : draft.assign setting value = some next) : Named next := by
  cases setting with
  | program =>
    simp only [Draft.assign, Option.ite_none_left_eq_some, Bool.or_eq_true, not_or, Option.some.injEq] at assigned
    obtain ⟨⟨_, given⟩, rfl⟩ := assigned
    exact ⟨by simpa using given, named.2⟩
  | config =>
    simp only [Draft.assign, Option.ite_none_left_eq_some, Bool.or_eq_true, not_or, Option.some.injEq] at assigned
    obtain ⟨⟨_, given⟩, rfl⟩ := assigned
    exact ⟨named.1, by simpa using given⟩
  | ignoreExports | keepNamespace =>
    cases assigned
    exact named

theorem named_readArgs {draft last : Draft} {arguments : List String} (named : Named draft)
    (read : readArgs draft arguments = some last) : Named last := by
  fun_induction readArgs draft arguments with
  | case1 | case2 =>
    cases read
    exact named
  | case4 _ _ _ _ _ _ ih => exact ih named read
  | case5 _ _ _ _ _ _ _ _ _ _ ih =>
    obtain ⟨next, turned, remaining⟩ := Option.bind_eq_some_iff.mp read
    exact ih next (named_turnOn named turned) remaining
  | case6 _ _ _ _ _ _ _ _ _ _ _ _ ih | case8 _ _ _ _ _ _ _ _ _ _ _ _ _ ih =>
    obtain ⟨next, assigned, remaining⟩ := Option.bind_eq_some_iff.mp read
    exact ih next (named_assign named assigned) remaining
  | case3 | case7 | case9 | case10 => cases read

theorem askable_finish {draft : Draft} {args : ExtractArgs} (named : Named draft)
    (finished : draft.finish = some args) : Askable args := by
  rw [Draft.finish] at finished
  split at finished
  · next program file rest given _ =>
    cases finished
    exact ⟨fun empty => named.1 (given.trans (congrArg some empty)), named.2, by simp⟩
  · cases finished

/-- What a command line asks for, can be spelled out. -/
theorem askable_of_ofArgs {arguments : List String} {args : ExtractArgs}
    (asked : Command.ofArgs arguments = some (.extract args)) : Askable args := by
  unfold Command.ofArgs at asked
  split at asked
  · obtain ⟨draft, read, rest⟩ := Option.bind_eq_some_iff.mp asked
    obtain ⟨request, finished, made⟩ := Option.bind_eq_some_iff.mp rest
    cases made
    exact askable_finish (named_readArgs ⟨by simp, by simp⟩ read) finished
  · cases asked
  · obtain ⟨_, _, impossible⟩ := Option.map_eq_some_iff.mp asked
    cases impossible
  · cases asked

/-- The requests that can be asked for are those that can be spelled out. -/
theorem exists_arguments_iff {args : ExtractArgs} :
    (∃ arguments, Command.ofArgs arguments = some (.extract args)) ↔ Askable args :=
  ⟨fun ⟨_, asked⟩ => askable_of_ofArgs asked, fun askable => ⟨_, ofArgs_spelled askable⟩⟩

end Requests

end ApiDocs.Proofs.CommandLines
