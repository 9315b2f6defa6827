import Mathlib.Data.List.Forall2

/-! Computations that may fail, read as contracts. A contract says what a computation may fail
with and what its values satisfy; look-ups, loops over lists and folds keep contracts. -/

namespace ApiDocs.Proofs

variable {α β σ ε : Type}

theorem bind_ok_iff {computation : Except ε α} {next : α → Except ε β} {result : β} :
    computation >>= next = .ok result ↔
      ∃ value, computation = .ok value ∧ next value = .ok result := by
  cases computation with
  | error failure => simp [bind, Except.bind]
  | ok value => simp [bind, Except.bind]

theorem map_ok_iff {computation : Except ε α} {change : α → β} {result : β} :
    computation.map change = .ok result ↔ ∃ value, computation = .ok value ∧ change value = result := by
  cases computation with
  | error failure => simp [Except.map]
  | ok value => simp [Except.map]

theorem mapError_ok_iff {δ : Type} {computation : Except ε α} {change : ε → δ} {value : α} :
    computation.mapError change = .ok value ↔ computation = .ok value := by
  cases computation with
  | error failure => simp [Except.mapError]
  | ok value => simp [Except.mapError]

theorem bind_error_iff {computation : Except ε α} {next : α → Except ε β} {failure : ε} :
    computation >>= next = .error failure ↔
      computation = .error failure ∨ ∃ value, computation = .ok value ∧ next value = .error failure := by
  cases computation with
  | error other => simp [bind, Except.bind]
  | ok value => simp [bind, Except.bind]

theorem mapError_error_iff {δ : Type} {computation : Except ε α} {change : ε → δ} {failure : δ} :
    computation.mapError change = .error failure ↔
      ∃ other, computation = .error other ∧ change other = failure := by
  cases computation with
  | error other => simp [Except.mapError]
  | ok value => simp [Except.mapError]

theorem mapM_ok_iff {items : List α} {body : α → Except ε β} {results : List β} :
    items.mapM body = .ok results ↔
      List.Forall₂ (fun item result => body item = .ok result) items results := by
  induction items generalizing results with
  | nil => cases results <;> simp [pure, Except.pure]
  | cons item items ih =>
    rw [List.mapM_cons, bind_ok_iff]
    constructor
    · rintro ⟨first, returned, rest⟩
      obtain ⟨others, remaining, joined⟩ := bind_ok_iff.mp rest
      cases joined
      exact .cons returned (ih.mp remaining)
    · intro related
      cases related with
      | cons returned remaining =>
        exact ⟨_, returned, bind_ok_iff.mpr ⟨_, ih.mpr remaining, rfl⟩⟩

/-- A loop over computations that return what is known for each item. -/
theorem mapM_eq_map {m : Type → Type} [Monad m] [LawfulMonad m] {items : List α} {body : α → m β}
    {result : α → β} (each : ∀ item ∈ items, body item = pure (result item)) :
    items.mapM body = pure (items.map result) := by
  induction items with
  | nil => exact List.mapM_nil
  | cons item items ih =>
    have first := each item List.mem_cons_self
    have others := ih fun other member => each other (List.mem_cons_of_mem _ member)
    rw [List.mapM_cons, first, others]
    simp

theorem exists_related {relation : α → β → Prop} {items : List α} {results : List β}
    (related : List.Forall₂ relation items results) {result : β} (member : result ∈ results) :
    ∃ item ∈ items, relation item result := by
  induction related with
  | nil => cases member
  | cons first _ ih =>
    rcases List.mem_cons.mp member with rfl | member
    · exact ⟨_, List.mem_cons_self, first⟩
    · obtain ⟨item, inside, holds⟩ := ih member
      exact ⟨item, List.mem_cons_of_mem _ inside, holds⟩

theorem related_at {relation : α → β → Prop} {items : List α} {results : List β}
    (related : List.Forall₂ relation items results) {position : Nat} {item : α} {result : β}
    (here : items[position]? = some item) (there : results[position]? = some result) :
    relation item result := by
  obtain ⟨inside, rfl⟩ := List.getElem?_eq_some_iff.mp here
  obtain ⟨insideToo, rfl⟩ := List.getElem?_eq_some_iff.mp there
  exact related.get inside insideToo

theorem related_filterMap {γ : Type} {relation : α → β → Prop} {items : List α} {results : List β}
    {change : β → Option γ} (related : List.Forall₂ relation items results)
    (all : ∀ result ∈ results, ∃ value, change result = some value) :
    List.Forall₂ (fun item value => ∃ result, relation item result ∧ change result = some value) items
      (results.filterMap change) := by
  induction related with
  | nil => exact .nil
  | @cons item result items results here _ ih =>
    obtain ⟨value, changed⟩ := all result List.mem_cons_self
    rw [List.filterMap_cons, changed]
    exact .cons ⟨result, here, changed⟩ (ih fun other inside => all other (List.mem_cons_of_mem _ inside))

/-- A fold over computations that return is a fold over what they return. -/
theorem foldlM_related {items : List α} {results : List β} {body : α → Except ε β}
    (related : List.Forall₂ (fun item result => body item = .ok result) items results)
    (step : σ → β → Except ε σ) (start : σ) :
    items.foldlM (fun state item => body item >>= step state) start = results.foldlM step start := by
  induction related generalizing start with
  | nil => rfl
  | cons returned _ ih =>
    rw [List.foldlM_cons, List.foldlM_cons, returned]
    exact congrArg _ (funext ih)

/-- The computation returns, and its value meets the postcondition. -/
def Returns (post : α → Prop) (computation : Except ε α) : Prop :=
  ∃ value, computation = .ok value ∧ post value

namespace Returns

variable {post : α → Prop} {result : β → Prop}

theorem pure {value : α} (holds : post value) : Returns post (Except.ok value : Except ε α) :=
  ⟨value, rfl, holds⟩

@[simp] theorem ok_iff {value : α} : Returns post (Except.ok value : Except ε α) ↔ post value := by
  simp [Returns]

@[simp] theorem error_iff {failure : ε} : Returns post (Except.error failure) ↔ False := by
  simp [Returns]

theorem bind {computation : Except ε α} {next : α → Except ε β} (first : Returns post computation)
    (rest : ∀ value, computation = .ok value → post value → Returns result (next value)) :
    Returns result (computation >>= next) := by
  obtain ⟨value, returned, holds⟩ := first
  rw [returned]
  exact rest value returned holds

theorem weaken {computation : Except ε α} {weaker : α → Prop} (first : Returns post computation)
    (implies : ∀ value, computation = .ok value → post value → weaker value) :
    Returns weaker computation := by
  obtain ⟨value, returned, holds⟩ := first
  exact ⟨value, returned, implies value returned holds⟩

theorem mapM {items : List α} {body : α → Except ε β}
    (each : ∀ item ∈ items, Returns result (body item)) :
    Returns (fun values => ∀ value ∈ values, result value) (items.mapM body) := by
  induction items with
  | nil => exact ⟨[], rfl, by simp⟩
  | cons item items ih =>
    rw [List.mapM_cons]
    refine (each item List.mem_cons_self).bind fun value _ holds => ?_
    refine (ih fun item member => each item (List.mem_cons_of_mem _ member)).bind fun values _ all => ?_
    refine pure fun other member => ?_
    rcases List.mem_cons.mp member with rfl | member
    · exact holds
    · exact all other member

end Returns

/-- What every step keeps, a fold keeps. -/
theorem foldlM_keeps {step : σ → α → Except ε σ} {items : List α} {start final : σ}
    (invariant : σ → Prop)
    (keeps : ∀ before item after, step before item = .ok after → invariant before → invariant after)
    (folded : items.foldlM step start = .ok final) (initial : invariant start) :
    invariant final := by
  induction items generalizing start with
  | nil =>
    cases folded
    exact initial
  | cons item items ih =>
    rw [List.foldlM_cons] at folded
    obtain ⟨next, stepped, rest⟩ := bind_ok_iff.mp folded
    exact ih rest (keeps start item next stepped initial)

/-- What every step keeps of the items done so far and the state, a fold keeps of all items. -/
theorem foldlM_tracks {step : σ → α → Except ε σ} {items : List α} {start final : σ}
    (invariant : List α → σ → Prop)
    (keeps : ∀ done before item after, step before item = .ok after → invariant done before →
      invariant (done ++ [item]) after)
    (folded : items.foldlM step start = .ok final) {done : List α} (initial : invariant done start) :
    invariant (done ++ items) final := by
  induction items generalizing start done with
  | nil =>
    cases folded
    simpa using initial
  | cons item items ih =>
    rw [List.foldlM_cons] at folded
    obtain ⟨next, stepped, rest⟩ := bind_ok_iff.mp folded
    have whole := ih rest (keeps done start item next stepped initial)
    simpa using whole

/-- If every step appends to a view of the state what its item stands for, a fold appends what all
items stand for. -/
theorem foldlM_appends {step : σ → α → Except ε σ} {items : List α} {start final : σ}
    (view : σ → List β) (output : α → List β)
    (appends : ∀ before item after, step before item = .ok after →
      view after = view before ++ output item)
    (folded : items.foldlM step start = .ok final) :
    view final = view start ++ items.flatMap output := by
  induction items generalizing start with
  | nil =>
    cases folded
    simp
  | cons item items ih =>
    rw [List.foldlM_cons] at folded
    obtain ⟨next, stepped, rest⟩ := bind_ok_iff.mp folded
    rw [ih rest, appends start item next stepped, List.flatMap_cons, List.append_assoc]

end ApiDocs.Proofs
