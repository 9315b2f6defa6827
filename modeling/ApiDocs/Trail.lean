/-!
Chains of entries in a table, where each entry names the next one. A chain is followed until an
entry names none, or one that was met before, so it always ends.
-/

namespace ApiDocs.Trail

variable {ι δ ε : Type} [DecidableEq ι]

/-- How many of the ids have not been seen. -/
def unseen (ids seen : List ι) : Nat := ids.countP (· ∉ seen)

theorem unseen_cons_lt {ids seen : List ι} {id : ι} (member : id ∈ ids) (fresh : id ∉ seen) :
    unseen ids (id :: seen) < unseen ids seen := by
  unfold unseen
  induction ids with
  | nil => cases member
  | cons head tail ih =>
    have fewer : tail.countP (· ∉ id :: seen) ≤ tail.countP (· ∉ seen) :=
      List.countP_mono_left (by simp +contextual)
    rw [List.countP_cons, List.countP_cons]
    by_cases same : head = id
    · simp only [same, fresh, List.mem_cons_self, not_true, not_false_eq_true, decide_true,
        decide_false, Bool.false_eq_true, ↓reduceIte]
      omega
    · have := ih ((List.mem_cons.mp member).resolve_left (Ne.symm same))
      simp only [List.mem_cons, same, false_or]
      exact Nat.add_lt_add_right (by simpa only [List.mem_cons] using this) _

/-- A table with the ids of its entries. -/
structure Source (ι δ ε : Type) where
  ids : List ι
  get : ι → Except ε δ
  mem_ids : ∀ {id entry}, get id = .ok entry → id ∈ ids

/-- The entries from `id` on, each followed by the one that it names, except those in `seen`. -/
def follow (source : Source ι δ ε) (next : δ → Except ε (Option ι)) (seen : List ι) (id : ι) :
    Except ε (List (ι × δ)) :=
  if id ∈ seen then .ok []
  else
    match _ : source.get id with
    | .error fault => .error fault
    | .ok entry =>
      match next entry with
      | .error fault => .error fault
      | .ok none => .ok [(id, entry)]
      | .ok (some successor) =>
        match follow source next (id :: seen) successor with
        | .error fault => .error fault
        | .ok rest => .ok ((id, entry) :: rest)
termination_by unseen source.ids seen
decreasing_by exact unseen_cons_lt (source.mem_ids ‹_›) ‹_›

end ApiDocs.Trail
