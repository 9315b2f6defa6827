import ApiDocs.Json.Read

/-! Values and their tokens. The tokens of a value can be read whatever arrays and objects are open
around it, and give the value back. -/

namespace ApiDocs.Proofs.JsonTokens

open Json Reader

theorem json_induction {motive : Json → Prop} (scalar : ∀ value, motive (.scalar value))
    (arr : ∀ elements, (∀ element ∈ elements, motive element) → motive (.arr elements))
    (obj : ∀ fields, (∀ field ∈ fields, motive field.2) → motive (.obj fields)) (value : Json) :
    motive value := by
  cases value with
  | scalar value => exact scalar value
  | arr elements => exact arr elements fun element _ => json_induction scalar arr obj element
  | obj fields => exact obj fields fun field _ => json_induction scalar arr obj field.2
termination_by sizeOf value
decreasing_by
  · have smaller := List.sizeOf_lt_of_mem ‹_›
    simp only [Json.arr.sizeOf_spec]
    omega
  · have smaller := List.sizeOf_lt_of_mem ‹_›
    have inside : sizeOf field.2 < sizeOf field := by
      cases field
      simp only [Prod.mk.sizeOf_spec]
      omega
    simp only [Json.obj.sizeOf_spec]
    omega

theorem elementTokens_eq (elements : List Json) : elementTokens elements = elements.map tokens := by
  induction elements with
  | nil => rfl
  | cons element elements ih => rw [elementTokens, ih, List.map_cons]

def ofField (field : String × Json) : List Token :=
  .scalar (.str field.1) :: .colon :: field.2.tokens

theorem fieldTokens_eq (fields : List (String × Json)) : fieldTokens fields = fields.map ofField := by
  induction fields with
  | nil => rfl
  | cons field fields ih => rw [fieldTokens, ih, List.map_cons, ofField]

theorem tokens_arr (elements : List Json) :
    tokens (.arr elements) = .beginArray :: (separated (elements.map tokens) ++ [.endArray]) := by
  rw [tokens, elementTokens_eq, List.cons_append]

theorem tokens_obj (fields : List (String × Json)) :
    tokens (.obj fields) = .beginObject :: (separated (fields.map ofField) ++ [.endObject]) := by
  rw [tokens, fieldTokens_eq, List.cons_append]

/-- The tokens of the value are read as the value, and reading goes on behind it. -/
def Reads (value : Json) : Prop :=
  ∀ frames rest, (value.tokens ++ rest).foldlM step (.atValue frames) =
    rest.foldlM step (deliver value frames)

theorem reads_elements {elements : List Json} (each : ∀ element ∈ elements, Reads element)
    (nonempty : elements ≠ []) (earlier : List Json) (frames : List Frame) (rest : List Token) :
    (separated (elements.map tokens) ++ .endArray :: rest).foldlM step
        (.atValue (.array earlier :: frames)) =
      rest.foldlM step (deliver (.arr (earlier.reverse ++ elements)) frames) := by
  induction elements generalizing earlier with
  | nil => exact absurd rfl nonempty
  | cons element elements ih =>
    have first := each element List.mem_cons_self (.array earlier :: frames)
    have others := ih fun other member => each other (List.mem_cons_of_mem _ member)
    cases elements with
    | nil =>
      rw [List.map_cons, List.map_nil, separated, first, List.foldlM_cons]
      simp [deliver, Frame.add, step]
    | cons next elements =>
      rw [List.map_cons, List.map_cons, separated, List.append_assoc, List.cons_append, first,
        List.foldlM_cons]
      · have more := others (by simp) (element :: earlier)
        simpa [deliver, Frame.add, step] using more
      · simp

theorem reads_fields {fields : List (String × Json)} (each : ∀ field ∈ fields, Reads field.2)
    (nonempty : fields ≠ []) (earlier : List (String × Json)) (first : Bool) (frames : List Frame)
    (rest : List Token) :
    (separated (fields.map ofField) ++ .endObject :: rest).foldlM step
        (.atName (some earlier) first frames) =
      rest.foldlM step (deliver (.obj (earlier.reverse ++ fields)) frames) := by
  induction fields generalizing earlier first with
  | nil => exact absurd rfl nonempty
  | cons field fields ih =>
    have value := each field List.mem_cons_self (.object (some earlier) (some field.1) :: frames)
    have others := ih fun other member => each other (List.mem_cons_of_mem _ member)
    have named : ∀ more, (ofField field ++ more).foldlM step (.atName (some earlier) first frames) =
        more.foldlM step (.atComma (.object (some (field :: earlier)) none) frames) :=
      fun more => value more
    cases fields with
    | nil =>
      rw [List.map_cons, List.map_nil, separated, named, List.foldlM_cons]
      simp [step, object]
    | cons next fields =>
      rw [List.map_cons, List.map_cons, separated, List.append_assoc, List.cons_append, named,
        List.foldlM_cons]
      · have more := others (by simp) (field :: earlier) false
        simpa [step] using more
      · simp

theorem tokens_ne_endArray (value : Json) :
    ∃ token rest, value.tokens = token :: rest ∧ token ≠ .endArray := by
  cases value with
  | scalar value => exact ⟨_, _, rfl, by simp⟩
  | arr elements => exact ⟨_, _, tokens_arr elements, by simp⟩
  | obj fields => exact ⟨_, _, tokens_obj fields, by simp⟩

/-- Before its first element an array is read like a value with the array open around it. -/
theorem foldlM_atElement {value : Json} (frames : List Frame) (rest : List Token) :
    (value.tokens ++ rest).foldlM step (.atElement frames) =
      (value.tokens ++ rest).foldlM step (.atValue (.array [] :: frames)) := by
  obtain ⟨token, tail, spelled, notEnd⟩ := tokens_ne_endArray value
  rw [spelled, List.cons_append, List.foldlM_cons, List.foldlM_cons]
  cases token <;> simp_all [step]

theorem reads (value : Json) : Reads value := by
  induction value using json_induction with
  | scalar value =>
    intro frames rest
    simp [tokens, step, begin]
  | arr elements each =>
    intro frames rest
    rw [tokens_arr, List.cons_append, List.append_assoc, List.foldlM_cons]
    cases elements with
    | nil => simp [separated, step, begin]
    | cons element elements =>
      have opened : step (.atValue frames) .beginArray = some (.atElement frames) := rfl
      have inside := reads_elements each (by simp) [] frames rest
      obtain ⟨tail, split⟩ : ∃ tail, separated ((element :: elements).map tokens) = element.tokens ++ tail := by
        cases elements with
        | nil => exact ⟨[], by simp [separated]⟩
        | cons next elements => exact ⟨_, by rw [List.map_cons, List.map_cons, separated]; simp⟩
      rw [opened, Option.bind_eq_bind, Option.bind_some]
      -- The reader has a state of its own before the first element, as the array may end there.
      rw [split, List.append_assoc] at inside ⊢
      rw [foldlM_atElement]
      simpa using inside
  | obj fields each =>
    intro frames rest
    rw [tokens_obj, List.cons_append, List.append_assoc, List.foldlM_cons]
    cases fields with
    | nil => simp [separated, step, begin, object]
    | cons field fields =>
      have opened : step (.atValue frames) .beginObject = some (.atName (some []) true frames) := rfl
      have inside := reads_fields each (by simp) [] true frames rest
      rw [opened, Option.bind_eq_bind, Option.bind_some]
      simpa using inside

theorem ofTokens_tokens (value : Json) : ofTokens value.tokens = some value := by
  have whole := reads value [] []
  rw [List.append_nil] at whole
  simp [ofTokens, whole, deliver, finish]

end ApiDocs.Proofs.JsonTokens
