/-!
Taking a known beginning or ending off a text.
-/

namespace ApiDocs.Text

/-- What follows `start`, if the characters begin with it. -/
def after? : List Char → List Char → Option (List Char)
  | [], chars => some chars
  | _ :: _, [] => none
  | s :: start, c :: chars => if s = c then after? start chars else none

/-- What stands before `ending`, if the characters end with it. -/
def before? (ending chars : List Char) : Option (List Char) :=
  (after? ending.reverse chars.reverse).map List.reverse

theorem after?_eq_some {start chars rest : List Char} :
    after? start chars = some rest ↔ chars = start ++ rest := by
  induction start generalizing chars with
  | nil => simp [after?, eq_comm]
  | cons s start ih =>
    cases chars with
    | nil => simp [after?]
    | cons c chars =>
      by_cases same : s = c
      · simp [after?, same, ih]
      · simp [after?, same, Ne.symm same]

theorem before?_eq_some {ending chars rest : List Char} :
    before? ending chars = some rest ↔ chars = rest ++ ending := by
  simp only [before?, Option.map_eq_some_iff, after?_eq_some]
  constructor
  · rintro ⟨reversed, found, rfl⟩
    have := congrArg List.reverse found
    simpa using this
  · rintro rfl
    exact ⟨rest.reverse, by simp, by simp⟩

end ApiDocs.Text
