import ApiDocs.Trail
import ApiDocs.Proofs.Outcome

/-! Trails through tables. A trail returns if every entry on the way can be looked up, and it leads
to the end of a chain exactly if the chain has one. It meets no entry twice and stops only at an end or
where it would. -/

namespace ApiDocs.Proofs.Trails

open Trail

variable {ι δ ε : Type} [DecidableEq ι] {source : Source ι δ ε} {next : δ → Except ε (Option ι)}

/-- One step of a trail, without the proof that it ends. -/
theorem follow_eq (seen : List ι) (id : ι) :
    follow source next seen id =
      if id ∈ seen then .ok []
      else source.get id >>= fun entry => next entry >>= fun successor =>
        match successor with
        | none => .ok [(id, entry)]
        | some successor =>
          follow source next (id :: seen) successor >>= fun rest => .ok ((id, entry) :: rest) := by
  rw [follow]
  split
  · rfl
  · cases source.get id with
    | error fault => rfl
    | ok entry =>
      simp only [bind, Except.bind]
      cases next entry with
      | error fault => rfl
      | ok successor =>
        cases successor with
        | none => rfl
        | some successor => cases followed : follow source next (id :: seen) successor <;> simp [followed]

/-- A trail returns if good ids have entries and lead to good ids. -/
theorem follow_returns (good : ι → Prop)
    (step : ∀ id, good id → Returns
      (fun entry => Returns (fun successor => ∀ id, successor = some id → good id) (next entry))
      (source.get id))
    (seen : List ι) (id : ι) (start : good id) :
    Returns (fun chain => ∀ pair ∈ chain, good pair.1 ∧ source.get pair.1 = .ok pair.2)
      (follow source next seen id) := by
  rw [follow_eq]
  split
  · exact .pure (by simp)
  · refine (step id start).bind fun entry found leads => leads.bind fun successor _ leadsOn => ?_
    cases successor with
    | none =>
      refine .pure fun pair member => ?_
      cases List.mem_singleton.mp member
      exact ⟨start, found⟩
    | some successor =>
      refine (follow_returns good step (id :: seen) successor (leadsOn successor rfl)).bind
        fun rest _ all => .pure fun pair member => ?_
      rcases List.mem_cons.mp member with rfl | member
      · exact ⟨start, found⟩
      · exact all pair member
termination_by unseen source.ids seen
decreasing_by exact unseen_cons_lt (source.mem_ids ‹_›) ‹_›

/-- All that a trail can be: empty, or an entry with the trail from its successor. -/
theorem follow_cases {seen : List ι} {id : ι} {chain : List (ι × δ)}
    (returned : follow source next seen id = .ok chain) :
    id ∈ seen ∧ chain = [] ∨
      id ∉ seen ∧ ∃ entry, source.get id = .ok entry ∧
        (next entry = .ok none ∧ chain = [(id, entry)] ∨
          ∃ successor rest, next entry = .ok (some successor) ∧
            follow source next (id :: seen) successor = .ok rest ∧ chain = (id, entry) :: rest) := by
  rw [follow_eq] at returned
  split at returned
  next known =>
    cases returned
    exact .inl ⟨known, rfl⟩
  next fresh =>
    obtain ⟨entry, found, rest⟩ := bind_ok_iff.mp returned
    obtain ⟨successor, led, rest⟩ := bind_ok_iff.mp rest
    refine .inr ⟨fresh, entry, found, ?_⟩
    cases successor with
    | none =>
      cases rest
      exact .inl ⟨led, rfl⟩
    | some successor =>
      obtain ⟨others, followed, joined⟩ := bind_ok_iff.mp rest
      cases joined
      exact .inr ⟨successor, others, led, followed, rfl⟩

/-- The chain from an id ends with an entry that names no other one, after some steps. -/
inductive Ends (source : Source ι δ ε) (next : δ → Except ε (Option ι)) : Nat → ι → ι × δ → Prop where
  | here {id entry} (found : source.get id = .ok entry) (last : next entry = .ok none) :
      Ends source next 0 id (id, entry)
  | link {steps id entry successor final} (found : source.get id = .ok entry)
      (led : next entry = .ok (some successor)) (rest : Ends source next steps successor final) :
      Ends source next (steps + 1) id final

omit [DecidableEq ι] in
theorem Ends.stops {steps : Nat} {id : ι} {final : ι × δ} (ends : Ends source next steps id final) :
    next final.2 = .ok none := by
  induction ends with
  | here _ last => exact last
  | link _ _ _ ih => exact ih

omit [DecidableEq ι] in
theorem Ends.steps_unique {steps others : Nat} {id : ι} {final other : ι × δ}
    (first : Ends source next steps id final) (second : Ends source next others id other) :
    steps = others := by
  induction first generalizing others with
  | here found last =>
    cases second with
    | here => rfl
    | link again led _ =>
      rw [found] at again
      cases again
      rw [last] at led
      cases led
  | link found led rest ih =>
    cases second with
    | here again last =>
      rw [found] at again
      cases again
      rw [led] at last
      cases last
    | link again ledAgain rest' =>
      rw [found] at again
      cases again
      rw [led] at ledAgain
      cases ledAgain
      rw [ih rest']

omit [DecidableEq ι] in
/-- The ids on the way to the end are all different, since they are at different distances from it. -/
theorem Ends.exists_distinct {steps : Nat} {id : ι} {final : ι × δ} (ends : Ends source next steps id final) :
    ∃ ids : List ι, ids.length = steps + 1 ∧ ids.Nodup ∧
      ∀ other ∈ ids, ∃ fewer ≤ steps, Ends source next fewer other final := by
  induction ends with
  | @here id entry found last =>
    refine ⟨[id], rfl, by simp, fun other member => ?_⟩
    cases List.mem_singleton.mp member
    exact ⟨0, Nat.le_refl 0, .here found last⟩
  | @link steps id entry successor final found led rest ih =>
    obtain ⟨ids, length, distinct, close⟩ := ih
    have here : Ends source next (steps + 1) id final := .link found led rest
    have fresh : id ∉ ids := by
      intro member
      obtain ⟨fewer, bound, again⟩ := close id member
      have same := again.steps_unique here
      omega
    refine ⟨id :: ids, by simp [length], List.nodup_cons.mpr ⟨fresh, distinct⟩, fun other member => ?_⟩
    rcases List.mem_cons.mp member with rfl | member
    · exact ⟨steps + 1, Nat.le_refl _, here⟩
    · obtain ⟨fewer, bound, ends⟩ := close other member
      exact ⟨fewer, by omega, ends⟩

omit [DecidableEq ι] in
/-- A chain that ends has fewer steps than the table has ids. -/
theorem Ends.steps_lt {steps : Nat} {id : ι} {final : ι × δ} (ends : Ends source next steps id final) :
    steps < source.ids.length := by
  obtain ⟨ids, length, distinct, close⟩ := ends.exists_distinct
  have inside : ids ⊆ source.ids := by
    intro other member
    obtain ⟨_, _, ends⟩ := close other member
    cases ends with
    | here found _ => exact source.mem_ids found
    | link found _ _ => exact source.mem_ids found
  have bound := distinct.length_le_of_subset inside
  omega

theorem getLast?_cons_of_some {α : Type} {items : List α} {last : α}
    (found : items.getLast? = some last) (item : α) : (item :: items).getLast? = some last := by
  cases items with
  | nil => cases found
  | cons head tail => simpa using found

omit [DecidableEq ι] in
/-- One step on, the id that was left is farther from the end than the rest of the chain. -/
theorem Ends.far_cons {steps : Nat} {id : ι} {final : ι × δ} {seen : List ι}
    (here : Ends source next (steps + 1) id final)
    (far : ∀ known ∈ seen, ∀ fewer ≤ steps + 1, ∀ other, ¬ Ends source next fewer known other) :
    ∀ known ∈ id :: seen, ∀ fewer ≤ steps, ∀ other, ¬ Ends source next fewer known other := by
  intro known member fewer bound other ends
  rcases List.mem_cons.mp member with rfl | member
  · have same := ends.steps_unique here
    omega
  · exact far known member fewer (by omega) other ends

/-- A trail does not stop before the end of a chain that has one: the ids on the way are at different
distances from the end, so none of them is met twice. -/
theorem follow_of_ends {steps : Nat} {id : ι} {final : ι × δ} (ends : Ends source next steps id final)
    (seen : List ι) (far : ∀ known ∈ seen, ∀ fewer ≤ steps, ∀ other,
      ¬ Ends source next fewer known other) :
    ∃ chain, follow source next seen id = .ok chain ∧ chain.getLast? = some final := by
  induction ends generalizing seen with
  | @here id entry found last =>
    have fresh : id ∉ seen := fun known => far id known 0 (Nat.le_refl 0) _ (.here found last)
    exact ⟨[(id, entry)], by simp [follow_eq, fresh, found, last, bind, Except.bind], rfl⟩
  | @link steps id entry successor final found led rest ih =>
    have here : Ends source next (steps + 1) id final := .link found led rest
    have fresh : id ∉ seen := fun known => far id known _ (Nat.le_refl _) _ here
    obtain ⟨chain, followed, reached⟩ := ih (id :: seen) (here.far_cons far)
    refine ⟨(id, entry) :: chain, ?_, getLast?_cons_of_some reached _⟩
    simp [follow_eq seen, fresh, found, led, followed, bind, Except.bind]

theorem follow_stop {id : ι} {entry : δ} (found : source.get id = .ok entry)
    (last : next entry = .ok none) : follow source next [] id = .ok [(id, entry)] := by
  simp [follow_eq, found, last, bind, Except.bind]

/-- What was seen before makes no difference to a chain with an end, if it is farther from the end. -/
theorem follow_seen_of_ends {steps : Nat} {id : ι} {final : ι × δ}
    (ends : Ends source next steps id final) (seen : List ι)
    (far : ∀ known ∈ seen, ∀ fewer ≤ steps, ∀ other, ¬ Ends source next fewer known other) :
    follow source next seen id = follow source next [] id := by
  induction ends generalizing seen with
  | @here id entry found last =>
    have fresh : id ∉ seen := fun known => far id known 0 (Nat.le_refl 0) _ (.here found last)
    rw [follow_stop found last]
    simp [follow_eq, fresh, found, last, bind, Except.bind]
  | @link steps id entry successor final found led rest ih =>
    have here : Ends source next (steps + 1) id final := .link found led rest
    have fresh : id ∉ seen := fun known => far id known _ (Nat.le_refl _) _ here
    rw [follow_eq seen, follow_eq [], if_neg fresh, if_neg List.not_mem_nil, found]
    simp only [led, bind, Except.bind, ih (id :: seen) (here.far_cons far), ih [id] (here.far_cons (by simp))]

/-- The trail of a chain with an end is its first entry before the trail of the rest. -/
theorem follow_link {steps : Nat} {id successor : ι} {entry : δ} {final : ι × δ}
    (found : source.get id = .ok entry) (led : next entry = .ok (some successor))
    (ends : Ends source next steps successor final) :
    follow source next [] id =
      follow source next [] successor >>= fun rest => .ok ((id, entry) :: rest) := by
  have here : Ends source next (steps + 1) id final := .link found led ends
  rw [follow_eq, if_neg List.not_mem_nil, found]
  simp only [led, bind, Except.bind, follow_seen_of_ends ends [id] (here.far_cons (by simp))]

theorem ends_of_follow {chain : List (ι × δ)} {seen : List ι} {id : ι} {final : ι × δ}
    (returned : follow source next seen id = .ok chain) (reached : chain.getLast? = some final)
    (last : next final.2 = .ok none) : ∃ steps, Ends source next steps id final := by
  induction chain generalizing seen id with
  | nil => cases reached
  | cons pair rest ih =>
    obtain ⟨_, empty⟩ | ⟨_, entry, found, ⟨stops, only⟩ | ⟨successor, others, led, followed, joined⟩⟩ :=
      follow_cases returned
    · cases empty
    · cases only
      cases reached
      exact ⟨0, .here found stops⟩
    · cases joined
      cases rest with
      | nil =>
        obtain rfl : (id, entry) = final := by simpa using reached
        rw [led] at last
        cases last
      | cons head tail =>
        obtain ⟨steps, ends⟩ := ih followed (by simpa using reached)
        exact ⟨steps + 1, .link found led ends⟩

section Visits

/-- The entries on a list stand in the table and name each other in turn. None is met twice or was seen
before, and the last one names none, or one that was met or seen. -/
structure Visits (source : Source ι δ ε) (next : δ → Except ε (Option ι)) (seen : List ι) (id : ι)
    (chain : List (ι × δ)) : Prop where
  starts : (chain.map Prod.fst).head? = some id
  found : ∀ pair ∈ chain, source.get pair.1 = .ok pair.2
  linked : chain.IsChain fun pair following => next pair.2 = .ok (some following.1)
  distinct : (chain.map Prod.fst).Nodup
  fresh : ∀ known ∈ seen, known ∉ chain.map Prod.fst
  stops : ∀ last ∈ chain.getLast?, next last.2 = .ok none ∨
    ∃ met ∈ chain.map Prod.fst ++ seen, next last.2 = .ok (some met)

variable {seen : List ι} {id successor : ι} {entry : δ} {chain : List (ι × δ)}

omit [DecidableEq ι] in
theorem visits_single (found : source.get id = .ok entry) (fresh : id ∉ seen)
    (stops : next entry = .ok none ∨ ∃ met ∈ id :: seen, next entry = .ok (some met)) :
    Visits source next seen id [(id, entry)] where
  starts := rfl
  found := by simpa using found
  linked := .singleton _
  distinct := by simp
  fresh := by
    intro known member met
    cases List.mem_singleton.mp met
    exact fresh member
  stops := by simpa using stops

omit [DecidableEq ι] in
theorem visits_cons (found : source.get id = .ok entry) (fresh : id ∉ seen)
    (led : next entry = .ok (some successor)) (rest : Visits source next (id :: seen) successor chain) :
    Visits source next seen id ((id, entry) :: chain) := by
  cases chain with
  | nil => cases rest.starts
  | cons following others =>
    obtain rfl : following.1 = successor := Option.some.inj rest.starts
    refine ⟨rfl, ?_, rest.linked.cons_cons led, ?_, ?_, ?_⟩
    · intro pair member
      rcases List.mem_cons.mp member with rfl | member
      · exact found
      · exact rest.found pair member
    · exact List.nodup_cons.mpr ⟨rest.fresh id List.mem_cons_self, rest.distinct⟩
    · intro known member met
      rcases List.mem_cons.mp met with rfl | met
      · exact fresh member
      · exact rest.fresh known (List.mem_cons_of_mem _ member) met
    · intro last ended
      rcases rest.stops last (by simpa using ended) with none | ⟨met, member, some⟩
      · exact .inl none
      · exact .inr ⟨met, (List.perm_middle.mem_iff).mp member, some⟩

omit [DecidableEq ι] in
/-- All that a list of visits can be: one entry, or an entry before the visits from the one it names. -/
theorem Visits.cases (visits : Visits source next seen id chain) :
    ∃ entry rest, chain = (id, entry) :: rest ∧ source.get id = .ok entry ∧ id ∉ seen ∧
      (rest = [] ∧ (next entry = .ok none ∨ ∃ met ∈ id :: seen, next entry = .ok (some met)) ∨
        ∃ successor, next entry = .ok (some successor) ∧
          Visits source next (id :: seen) successor rest) := by
  obtain ⟨starts, found, linked, distinct, fresh, stops⟩ := visits
  cases chain with
  | nil => cases starts
  | cons pair rest =>
    obtain rfl : pair.1 = id := Option.some.inj starts
    refine ⟨pair.2, rest, rfl, found pair List.mem_cons_self,
      fun known => fresh _ known List.mem_cons_self, ?_⟩
    cases rest with
    | nil => exact .inl ⟨rfl, by simpa using stops⟩
    | cons following others =>
      obtain ⟨led, linked⟩ := List.isChain_cons_cons.mp linked
      obtain ⟨absent, distinct⟩ := List.nodup_cons.mp distinct
      refine .inr ⟨following.1, led, rfl, ?_, linked, distinct, ?_, ?_⟩
      · exact fun other member => found other (List.mem_cons_of_mem _ member)
      · intro known member met
        rcases List.mem_cons.mp member with rfl | member
        · exact absent met
        · exact fresh known member (List.mem_cons_of_mem _ met)
      · intro last ended
        rcases stops last (getLast?_cons_of_some ended pair) with none | ⟨met, member, some⟩
        · exact .inl none
        · exact .inr ⟨met, (List.perm_middle.mem_iff).mpr member, some⟩

theorem visits_of_follow (returned : follow source next seen id = .ok chain) (fresh : id ∉ seen) :
    Visits source next seen id chain := by
  induction chain generalizing seen id with
  | nil =>
    obtain ⟨known, _⟩ | ⟨_, _, _, ⟨_, other⟩ | ⟨_, _, _, _, other⟩⟩ := follow_cases returned
    · exact absurd known fresh
    all_goals cases other
  | cons pair rest ih =>
    obtain ⟨known, _⟩ | ⟨_, entry, found, ⟨stops, only⟩ | ⟨successor, others, led, followed, joined⟩⟩ :=
      follow_cases returned
    · exact absurd known fresh
    · cases only
      exact visits_single found fresh (.inl stops)
    · cases joined
      by_cases met : successor ∈ id :: seen
      · rw [follow_eq, if_pos met] at followed
        cases followed
        exact visits_single found fresh (.inr ⟨successor, met, led⟩)
      · exact visits_cons found fresh led (ih followed met)

theorem follow_of_visits (visits : Visits source next seen id chain) :
    follow source next seen id = .ok chain := by
  induction chain generalizing seen id with
  | nil => cases visits.starts
  | cons pair rest ih =>
    obtain ⟨entry, others, same, found, fresh, stops⟩ := visits.cases
    cases same
    rw [follow_eq, if_neg fresh, found]
    rcases stops with ⟨rfl, none | ⟨met, known, some⟩⟩ | ⟨successor, led, onward⟩
    · simp [none, bind, Except.bind]
    · simp [some, follow_eq (id :: seen), known, bind, Except.bind]
    · simp [led, ih onward, bind, Except.bind]

/-- A trail is the one list of visits from its first entry. -/
theorem follow_ok_iff : follow source next [] id = .ok chain ↔ Visits source next [] id chain :=
  ⟨fun returned => visits_of_follow returned List.not_mem_nil, follow_of_visits⟩

end Visits

end ApiDocs.Proofs.Trails
