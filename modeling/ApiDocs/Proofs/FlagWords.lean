import ApiDocs.Program.Flags
import ApiDocs.Proofs.LeadingRuns
import ApiDocs.Proofs.Outcome

/-! Flag words and their text. Under names that stand for one bit each, a word is the union of its
named bits and the number for all others, and its text says exactly these. -/

namespace ApiDocs.Proofs.FlagWords

open Text FlagText

/-- A text that trimming and splitting leave as it is. -/
structure Clean (item : List Char) : Prop where
  nonempty : item ≠ []
  solid : ∀ c ∈ item, isWhite c = false
  whole : ∀ c ∈ item, c ≠ '|'

structure WellNamed {width : Nat} (names : Names width) : Prop where
  single : ∀ entry ∈ names.bits, ∃ place : Fin width, entry.2 = BitVec.twoPow width place
  found : ∀ entry ∈ names.bits, names.lookup entry.1 = some entry.2
  clean : ∀ entry ∈ names.bits, Clean entry.1.toList
  word : ∀ entry ∈ names.bits, after? ['0', 'x'] entry.1.toList = none

section Pieces

theorem dropWhile_clean {item : List Char} (clean : Clean item) (rest : List Char) :
    (item ++ rest).dropWhile isWhite = item ++ rest := by
  cases item with
  | nil => exact absurd rfl clean.nonempty
  | cons c item =>
    apply dropWhile_of_stops
    rintro other ⟨⟩
    exact clean.solid c List.mem_cons_self

theorem clean_reverse {item : List Char} (clean : Clean item) : Clean item.reverse :=
  ⟨by simpa using clean.nonempty, by simpa using clean.solid, by simpa using clean.whole⟩

theorem trimChars_padded (lead trail : List Char) {item : List Char} (clean : Clean item)
    (before : ∀ c ∈ lead, isWhite c = true) (behind : ∀ c ∈ trail, isWhite c = true) :
    trimChars (lead ++ (item ++ trail)) = item := by
  have ending := dropWhile_clean (clean_reverse clean) []
  rw [List.append_nil] at ending
  rw [trimChars, List.dropWhile_append_of_pos before, dropWhile_clean clean, List.reverse_append,
    List.dropWhile_append_of_pos (by simpa using behind), ending, List.reverse_reverse]

theorem trimChars_ne_nil {chars : List Char} {c : Char} (member : c ∈ chars)
    (solid : isWhite c = false) : trimChars chars ≠ [] := by
  intro empty
  have white : ∀ other ∈ chars.dropWhile isWhite, isWhite other = true := by
    simpa [trimChars, List.dropWhile_eq_nil_iff] using empty
  rw [← chars.takeWhile_append_dropWhile (p := isWhite)] at member
  rcases List.mem_append.mp member with front | behind
  · simp [List.mem_takeWhile_imp front] at solid
  · simp [white c behind] at solid

theorem splitOn_whole {item : List Char} (whole : ∀ c ∈ item, c ≠ '|') :
    splitOn '|' item = [item] := by
  induction item with
  | nil => rfl
  | cons c item ih =>
    have rest := ih fun other member => whole other (List.mem_cons_of_mem _ member)
    simp [splitOn, whole c List.mem_cons_self, rest]

theorem splitOn_append {item : List Char} (whole : ∀ c ∈ item, c ≠ '|') (rest : List Char) :
    splitOn '|' (item ++ '|' :: rest) = item :: splitOn '|' rest := by
  induction item with
  | nil => simp [splitOn]
  | cons c item ih =>
    have others := ih fun other member => whole other (List.mem_cons_of_mem _ member)
    simp [splitOn, whole c List.mem_cons_self, others]

theorem isWhite_blank : isWhite ' ' = true := by decide +kernel

/-- The pieces of a joined text are the items again, once they are trimmed. -/
theorem trimmed_pieces {items : List String} (clean : ∀ item ∈ items, Clean item.toList)
    (nonempty : items ≠ []) (lead : List Char) (blank : ∀ c ∈ lead, c = ' ') :
    (splitOn '|' (lead ++ (" | ".intercalate items).toList)).map trimChars =
      items.map String.toList := by
  induction items generalizing lead with
  | nil => exact absurd rfl nonempty
  | cons item items ih =>
    have first := clean item List.mem_cons_self
    have white : ∀ c ∈ lead, isWhite c = true := fun c member => blank c member ▸ isWhite_blank
    have whole : ∀ c ∈ lead ++ item.toList, c ≠ '|' := by
      intro c member
      rcases List.mem_append.mp member with outside | inside
      · simp [blank c outside]
      · exact first.whole c inside
    cases items with
    | nil =>
      have trimmed := trimChars_padded lead [] first white (by simp)
      rw [List.append_nil] at trimmed
      simp [splitOn_whole whole, trimmed]
    | cons next items =>
      have trimmed := trimChars_padded lead [' '] first white (by simp [isWhite_blank])
      have others := ih (fun other member => clean other (List.mem_cons_of_mem _ member)) (by simp)
        [' '] (by simp)
      have wholeToo : ∀ c ∈ lead ++ (item.toList ++ [' ']), c ≠ '|' := by
        rw [← List.append_assoc]
        intro c member
        rcases List.mem_append.mp member with inside | behind
        · exact whole c inside
        · simp [List.mem_singleton.mp behind]
      have joined : lead ++ (" | ".intercalate (item :: next :: items)).toList =
          lead ++ (item.toList ++ [' ']) ++
            '|' :: ([' '] ++ (" | ".intercalate (next :: items)).toList) := by
        simp [String.intercalate_cons_cons]
      rw [joined, splitOn_append wholeToo, List.map_cons, trimmed, others]
      rfl

end Pieces

section Numbers

theorem hexDigit?_digitChar {digit : Nat} (small : digit < 16) :
    hexDigit? digit.digitChar = some digit := by
  have all : ∀ digit < 16, hexDigit? (Nat.digitChar digit) = some digit := by decide
  exact all digit small

theorem foldlM_toDigits (value : Nat) :
    (Nat.toDigits 16 value).foldlM (fun number digit => (hexDigit? digit).map (number * 16 + ·)) 0 =
      some value := by
  induction value using Nat.strongRecOn with
  | ind value ih =>
    rw [Nat.toDigits_eq_if (by decide)]
    split
    next small => simp [hexDigit?_digitChar small]
    next large =>
      have digit := hexDigit?_digitChar (Nat.mod_lt value (show 0 < 16 by decide))
      have front := ih (value / 16) (by omega)
      rw [List.foldlM_append, front, Option.bind_eq_bind, Option.bind_some]
      simp [digit, Nat.div_add_mod']

theorem hexNumber?_toDigits (value : Nat) : hexNumber? (Nat.toDigits 16 value) = some value := by
  have folded := foldlM_toDigits value
  cases spelled : Nat.toDigits 16 value with
  | nil => exact absurd spelled Nat.toDigits_ne_nil
  | cons digit digits =>
    rw [spelled] at folded
    exact folded

theorem mem_toDigits {value : Nat} {c : Char} (member : c ∈ Nat.toDigits 16 value) :
    ∃ digit < 16, c = Nat.digitChar digit := by
  induction value using Nat.strongRecOn with
  | ind value ih =>
    rw [Nat.toDigits_eq_if (by decide)] at member
    split at member
    next small => exact ⟨value, small, List.mem_singleton.mp member⟩
    next large =>
      rcases List.mem_append.mp member with front | last
      · exact ih (value / 16) (by omega) front
      · exact ⟨value % 16, Nat.mod_lt _ (by decide), List.mem_singleton.mp last⟩

theorem digitChar_solid :
    ∀ digit < 16, isWhite (Nat.digitChar digit) = false ∧ Nat.digitChar digit ≠ '|' ∧
      Nat.digitChar digit ≠ '+' := by
  decide +kernel

theorem clean_number (value : Nat) : Clean ('0' :: 'x' :: Nat.toDigits 16 value) := by
  have start : ∀ c ∈ ['0', 'x'], isWhite c = false ∧ c ≠ '|' :=
    List.forall_mem_cons.mpr ⟨by decide +kernel, List.forall_mem_singleton.mpr (by decide +kernel)⟩
  have each : ∀ c ∈ ['0', 'x'] ++ Nat.toDigits 16 value, isWhite c = false ∧ c ≠ '|' := by
    intro c member
    rcases List.mem_append.mp member with front | inside
    · exact start c front
    · obtain ⟨digit, small, rfl⟩ := mem_toDigits inside
      obtain ⟨solid, whole, _⟩ := digitChar_solid digit small
      exact ⟨solid, whole⟩
  exact ⟨by simp, fun c member => (each c member).1, fun c member => (each c member).2⟩

theorem readNumber_toDigits {width : Nat} (word : BitVec width) :
    readNumber width (Nat.toDigits 16 word.toNat) = some word := by
  have unsigned : after? ['+'] (Nat.toDigits 16 word.toNat) = none := by
    cases signed : after? ['+'] (Nat.toDigits 16 word.toNat) with
    | none => rfl
    | some rest =>
      have member : '+' ∈ Nat.toDigits 16 word.toNat := by simp [after?_eq_some.mp signed]
      obtain ⟨digit, small, same⟩ := mem_toDigits member
      exact absurd same.symm (digitChar_solid digit small).2.2
  simp [readNumber, unsigned, hexNumber?_toDigits]

end Numbers

section Tables

theorem wellNamed_of_entries {width : Nat} {names : Names width}
    (each : ∀ entry ∈ names.bits, (∃ place : Fin width, entry.2 = BitVec.twoPow width place) ∧
      names.lookup entry.1 = some entry.2 ∧ entry.1.toList ≠ [] ∧
      entry.1.toList.all (fun c => !isWhite c && c != '|') = true ∧
      after? ['0', 'x'] entry.1.toList = none) : WellNamed names where
  single entry member := (each entry member).1
  found entry member := (each entry member).2.1
  clean entry member := by
    obtain ⟨_, _, nonempty, all, _⟩ := each entry member
    have chars : ∀ c ∈ entry.1.toList, isWhite c = false ∧ c ≠ '|' := by
      simpa using all
    exact ⟨nonempty, fun c inside => (chars c inside).1, fun c inside => (chars c inside).2⟩
  word entry member := (each entry member).2.2.2.2

theorem wellNamed_symbolFlags : WellNamed SymbolFlags.names :=
  wellNamed_of_entries (by decide +kernel)

theorem wellNamed_modifiers : WellNamed Modifiers.names :=
  wellNamed_of_entries (by decide +kernel)

end Tables

section Words

variable {width : Nat} {names : Names width}

/-- The words that the items of a text stand for. -/
def parts (names : Names width) (word : BitVec width) : List (BitVec width) :=
  (names.bits.filter fun entry => word &&& entry.2 != 0).map (·.2) ++
    if names.unnamed word = 0 then [] else [names.unnamed word]

theorem getLsbD_union (words : List (BitVec width)) (start : BitVec width) (place : Nat) :
    (words.foldl (· ||| ·) start).getLsbD place =
      (start.getLsbD place || words.any (·.getLsbD place)) := by
  induction words generalizing start with
  | nil => simp
  | cons word words ih => simp [ih, Bool.or_assoc]

theorem getLsbD_unnamed (names : Names width) (word : BitVec width) {place : Nat}
    (inside : place < width) :
    (names.unnamed word).getLsbD place =
      (word.getLsbD place && !names.bits.any (·.2.getLsbD place)) := by
  unfold Names.unnamed
  generalize names.bits = bits
  induction bits generalizing word with
  | nil => simp
  | cons entry bits ih =>
    rw [List.foldl_cons, ih, List.any_cons, BitVec.getLsbD_and, BitVec.getLsbD_not, Bool.not_or]
    simp only [inside, decide_true, Bool.true_and, Bool.and_assoc]

/-- A word meets a bit exactly if it has a one where the bit has it. -/
theorem meets_single (word : BitVec width) (place : Fin width) :
    (word &&& BitVec.twoPow width place != 0) = word.getLsbD place := by
  have nonzero : BitVec.twoPow width place ≠ 0 := by
    intro zero
    have one := congrArg (fun word => word.getLsbD place) zero
    simp at one
  rw [BitVec.and_twoPow]
  cases word.getLsbD place with
  | false => simp
  | true => simpa using nonzero

/-- The bits that a word meets are its ones at named places. -/
theorem getLsbD_chosen {bits : List (String × BitVec width)}
    (single : ∀ entry ∈ bits, ∃ place : Fin width, entry.2 = BitVec.twoPow width place)
    (word : BitVec width) (place : Nat) :
    ((bits.filter fun entry => word &&& entry.2 != 0).map (·.2)).any (·.getLsbD place) =
      (word.getLsbD place && bits.any (·.2.getLsbD place)) := by
  induction bits with
  | nil => simp
  | cons entry bits ih =>
    have others := ih fun other member => single other (List.mem_cons_of_mem _ member)
    obtain ⟨bit, same⟩ := single entry List.mem_cons_self
    have met := meets_single word bit
    rw [← same] at met
    rw [List.any_cons, Bool.and_or_distrib_left, ← others, List.filter_cons, met]
    -- The entry has its only one at this bit, so the places other than it go to the other entries.
    by_cases here : place = bit
    · subst here
      cases word.getLsbD bit <;> simp [same]
    · have zero : entry.2.getLsbD place = false := by
        rw [same, BitVec.getLsbD_twoPow]
        simp [here, eq_comm]
      cases word.getLsbD bit <;> simp [zero]

/-- The named bits of a word and the rest of it are all of it. -/
theorem union_parts (sound : WellNamed names) (word : BitVec width) :
    (parts names word).foldl (· ||| ·) 0 = word := by
  apply BitVec.eq_of_getLsbD_eq
  intro place inside
  have start : (0 : BitVec width).getLsbD place = false := BitVec.getLsbD_zero
  have rest : (if names.unnamed word = 0 then [] else [names.unnamed word]).any
      (·.getLsbD place) = (names.unnamed word).getLsbD place := by
    split
    next zero => simp [zero]
    next => simp
  rw [getLsbD_union, start, parts, List.any_append, rest, getLsbD_chosen sound.single,
    getLsbD_unnamed names word inside, ← Bool.and_or_distrib_left, Bool.or_not_self]
  simp

theorem toList_number (value : Nat) :
    ("0x" ++ String.ofList (Nat.toDigits 16 value)).toList = '0' :: 'x' :: Nat.toDigits 16 value := by
  simp

theorem clean_items (sound : WellNamed names) (word : BitVec width) :
    ∀ item ∈ items names word, Clean item.toList := by
  intro item member
  rcases List.mem_append.mp member with named | number
  · obtain ⟨entry, kept, rfl⟩ := List.mem_map.mp named
    exact sound.clean entry (List.mem_filter.mp kept).1
  · split at number
    · cases number
    · rw [List.mem_singleton.mp number, toList_number]
      exact clean_number _

theorem read_items (sound : WellNamed names) (word : BitVec width) :
    ((items names word).map String.toList).mapM (readItem names) = some (parts names word) := by
  have named : ((names.bits.filter fun entry => word &&& entry.2 != 0).map (·.1.toList)).mapM
      (readItem names) = some ((names.bits.filter fun entry => word &&& entry.2 != 0).map (·.2)) := by
    rw [List.mapM_map]
    apply mapM_eq_map
    intro entry member
    have known := (List.mem_filter.mp member).1
    simp [readItem, sound.word entry known, sound.found entry known]
  have number : ∀ word : BitVec width,
      readItem names ('0' :: 'x' :: Nat.toDigits 16 word.toNat) = some word := fun word =>
    readNumber_toDigits word
  have spelled : (items names word).map String.toList =
      (names.bits.filter fun entry => word &&& entry.2 != 0).map (·.1.toList) ++
        if names.unnamed word = 0 then []
        else ['0' :: 'x' :: Nat.toDigits 16 (names.unnamed word).toNat] := by
    simp only [items, List.map_append, List.map_map]
    split
    · rfl
    · rw [List.map_singleton, toList_number]
      rfl
  rw [spelled, List.mapM_append, named, parts]
  split
  · simp
  · rw [List.mapM_cons, number]
    simp

theorem read_write (sound : WellNamed names) (word : BitVec width) :
    FlagText.read names (FlagText.write names word) = some word := by
  have words := read_items sound word
  have whole := union_parts sound word
  cases spelled : items names word with
  | nil =>
    rw [spelled] at words
    rw [← Option.some.inj words] at whole
    rw [FlagText.write, spelled, ← whole]
    rfl
  | cons item others =>
    have clean := clean_items sound word
    have pieces := trimmed_pieces clean (by simp [spelled]) [] (by simp)
    have first := clean item (by simp [spelled])
    have solid : trimChars (FlagText.write names word).toList ≠ [] := by
      obtain ⟨c, inside⟩ := List.exists_mem_of_ne_nil _ first.nonempty
      have member : c ∈ (FlagText.write names word).toList := by
        rw [FlagText.write, spelled]
        cases others with
        | nil => simpa using inside
        | cons next others => simp [String.intercalate_cons_cons, inside]
      exact trimChars_ne_nil member (first.solid c inside)
    rw [← pieces, List.nil_append, List.mapM_map] at words
    unfold FlagText.read
    split
    next empty => exact absurd empty solid
    next =>
      have read : (splitOn '|' (FlagText.write names word).toList).mapM
          (fun item => readItem names (trimChars item)) = some (parts names word) := words
      rw [read]
      exact congrArg some whole

end Words

end ApiDocs.Proofs.FlagWords
