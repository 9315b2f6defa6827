import ApiDocs.Extraction.Walk
import ApiDocs.Proofs.PatternReading

/-! Exports that are passed over. Without patterns of the caller they are those with one of the two names
of the marker of converted modules, and each such pattern adds the names in which it is found. -/

namespace ApiDocs.Proofs.IgnoredExports

open Pattern PatternMeaning PatternReading

section Words

variable {word before part after : List Char} {char : Char} {count : Nat} {last : Expr}

/-- One character after another, and then the last expression. -/
def spelled (word : List Char) (last : Expr) : Expr :=
  word.foldr (fun char rest => .seq (.one (.single char)) rest) last

theorem matches_single : Matches (.one (.single char)) before part after ↔ part = [char] := by
  constructor
  · rintro ⟨other, rfl, inside⟩
    simp only [CharSet.single, CharSet.contains, Bool.and_eq_true, decide_eq_true_eq] at inside
    rw [Char.le_antisymm inside.1 inside.2]
  · rintro rfl
    exact ⟨char, rfl, by simp [CharSet.single, CharSet.contains]⟩

theorem matches_spelled : Matches (spelled word last) before part after ↔
    ∃ rest, part = word ++ rest ∧ Matches last (before ++ word) rest after := by
  induction word generalizing before part with
  | nil => simp [spelled]
  | cons char word ih =>
    constructor
    · rintro ⟨_, rest, rfl, first, others⟩
      cases matches_single.mp first
      obtain ⟨rest, rfl, matched⟩ := ih.mp others
      exact ⟨rest, rfl, by simpa using matched⟩
    · rintro ⟨rest, rfl, matched⟩
      exact ⟨[char], word ++ rest, rfl, matches_single.mpr rfl, ih.mpr ⟨rest, rfl, by simpa using matched⟩⟩

theorem repeated_single : Repeated (Matches (.one (.single char))) count before part after ↔
    part = List.replicate count char := by
  induction count generalizing before part with
  | zero => rfl
  | succ count ih =>
    constructor
    · rintro ⟨_, rest, rfl, first, others⟩
      cases matches_single.mp first
      rw [ih.mp others]
      rfl
    · rintro rfl
      exact ⟨[char], List.replicate count char, rfl, matches_single.mpr rfl, ih.mpr rfl⟩

/-- A text that is described from its first to its last character, and ends with this word. -/
theorem foundIn_whole {body : Expr} {text : List Char} :
    FoundIn (.seq (.edge .textStart) (.seq body (spelled word (.edge .textEnd)))) text ↔
      ∃ part, text = part ++ word ∧ Matches body [] part word := by
  constructor
  · rintro ⟨before, _, after, rfl, _, _, rfl, ⟨rfl, atStart⟩, part, _, rfl, matched, ending⟩
    obtain ⟨_, rfl, rfl, atEnd⟩ := matches_spelled.mp ending
    cases List.getLast?_eq_none_iff.mp (Option.isNone_iff_eq_none.mp atStart)
    cases List.head?_eq_none_iff.mp (Option.isNone_iff_eq_none.mp atEnd)
    exact ⟨part, by simp, by simpa using matched⟩
  · rintro ⟨part, rfl, matched⟩
    have ending : Matches (spelled word (.edge .textEnd)) part word [] :=
      matches_spelled.mpr ⟨[], by simp, rfl, rfl⟩
    refine ⟨[], part ++ word, [], by simp, [], part ++ word, rfl, ⟨rfl, rfl⟩, part, word, rfl, ?_, ending⟩
    simpa using matched

end Words

section Marker

/-- What follows the underscores of the marker. -/
def markerWord : List Char := ['e', 's', 'M', 'o', 'd', 'u', 'l', 'e']

theorem moduleMarker_expr : Options.moduleMarker.expr = .seq (.edge .textStart)
    (.seq (.times (.one (.single '_')) 2 (some 3)) (spelled markerWord (.edge .textEnd))) := rfl

theorem moduleMarker_found {text : List Char} : FoundIn Options.moduleMarker.expr text ↔
    ∃ count, 2 ≤ count ∧ count ≤ 3 ∧ text = List.replicate count '_' ++ markerWord := by
  rw [moduleMarker_expr, foundIn_whole]
  constructor
  · rintro ⟨_, rfl, count, enough, allowed, marks⟩
    cases repeated_single.mp marks
    exact ⟨count, enough, allowed 3 rfl, rfl⟩
  · rintro ⟨count, enough, allowed, rfl⟩
    have fits : ∀ bound ∈ some 3, count ≤ bound := by
      rintro _ ⟨⟩
      exact allowed
    exact ⟨_, rfl, count, enough, fits, repeated_single.mpr rfl⟩

theorem moduleMarker_isMatch (name : String) :
    Options.moduleMarker.isMatch name = true ↔ name = "__esModule" ∨ name = "___esModule" := by
  have plain : "__esModule".toList = List.replicate 2 '_' ++ markerWord := by decide
  have escaped : "___esModule".toList = List.replicate 3 '_' ++ markerWord := by decide
  rw [isMatch_iff Options.read_moduleMarker, moduleMarker_found, ← String.toList_inj,
    ← String.toList_inj, plain, escaped]
  constructor
  · rintro ⟨count, enough, allowed, same⟩
    obtain rfl | rfl : count = 2 ∨ count = 3 := by omega
    · exact .inl same
    · exact .inr same
  · rintro (same | same)
    · exact ⟨2, by decide, by decide, same⟩
    · exact ⟨3, by decide, by decide, same⟩

end Marker

theorem ignores_iff {options : Options} {name : String} : options.ignores name = true ↔
    name = "__esModule" ∨ name = "___esModule" ∨
      ∃ pattern ∈ options.ignoreExports, pattern.isMatch name = true := by
  simp only [Options.ignores, Pattern.anyMatch, Bool.or_eq_true, moduleMarker_isMatch,
    List.any_eq_true, or_assoc]

theorem ignores_eq_false_iff {options : Options} {name : String} : options.ignores name = false ↔
    name ≠ "__esModule" ∧ name ≠ "___esModule" ∧
      ∀ pattern ∈ options.ignoreExports, pattern.isMatch name = false := by
  rw [← Bool.not_eq_true, ignores_iff]
  simp only [not_or, not_exists, not_and, Bool.not_eq_true, ne_eq]

/-- Only the names of the marker are ignored without patterns. What is retained are, in their order, the
exports whose name is none of these two and in which no pattern is found. A pattern that was read is
found where some part of the text is what it describes. -/
theorem retain_exact (options : Options) (exports : List ResolvedExport) :
    (∀ name, { options with ignoreExports := [] }.ignores name = true ↔
      name = "__esModule" ∨ name = "___esModule") ∧
    options.retain exports = exports.filter (fun export_ =>
      export_.name ≠ "__esModule" ∧ export_.name ≠ "___esModule" ∧
        ∀ pattern ∈ options.ignoreExports, pattern.isMatch export_.name = false) ∧
    ∀ pattern ∈ options.ignoreExports, ∀ source, Pattern.read source = some pattern →
      ∀ text, pattern.isMatch text = true ↔ FoundIn pattern.expr text.toList := by
  refine ⟨?_, ?_, ?_⟩
  · intro name
    simp [ignores_iff]
  · apply List.filter_congr
    intro export_ _
    rw [Bool.eq_iff_iff, Bool.not_eq_true', ignores_eq_false_iff, decide_eq_true_iff]
  · intro pattern _ source read text
    exact isMatch_iff read text

/-- Names that begin like the marker with fewer underscores. -/
def shortened : Pattern where
  source := "^_?es"
  expr := .seq (.edge .textStart)
    (.seq (.times (.one (.single '_')) 0 (some 1)) (spelled ['e'] (.one (.single 's'))))

def lookalikes : List ResolvedExport :=
  ["esModule", "_esModule", "__esModule", "___esModule", "____esModule", "__esModule\n", "x__esModule",
    "__esModuleX"].map ({ name := ·, symbol := ⟨0⟩, target := none })

/-- Names that are almost the marker stay, unless a pattern of the caller is found in them. -/
theorem retain_exact_lookalikes :
    (({ ignoreExports := [shortened] } : Options).retain lookalikes).map (·.name) =
        ["____esModule", "__esModule\n", "x__esModule", "__esModuleX"] ∧
      Pattern.read "^_?es" = some shortened ∧
      (shortened.isMatch "_esModule" = true ↔ FoundIn shortened.expr "_esModule".toList) := by
  obtain ⟨_, kept, found⟩ := retain_exact { ignoreExports := [shortened] } lookalikes
  have read : Pattern.read "^_?es" = some shortened := by decide +kernel
  refine ⟨?_, read, found shortened (List.mem_singleton_self _) _ read "_esModule"⟩
  rw [kept]
  decide +kernel

end ApiDocs.Proofs.IgnoredExports
