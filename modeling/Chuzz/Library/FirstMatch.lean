import Mathlib

/-! Changing the first element of a list that a test selects. -/
namespace Library.FirstMatch
variable {α : Type u} {β : Type v}

/-- `none` when the test selects nothing. -/
def modifyFirst? (selects : α → Bool) (change : α → α) : List α → Option (List α)
  | [] => none
  | item :: rest =>
    if selects item then some (change item :: rest)
    else (modifyFirst? selects change rest).map (item :: ·)

variable {selects : α → Bool} {change : α → α}

theorem modifyFirst?_eq_none {items : List α} :
    modifyFirst? selects change items = none ↔ ∀ item ∈ items, selects item = false := by
  induction items with
  | nil => simp [modifyFirst?]
  | cons item rest ih => cases selected : selects item <;> simp [modifyFirst?, selected, ih]

variable {items changed : List α}

/-- The elements before and after the change, and the one it finds. -/
theorem modifyFirst?_eq_some (found : modifyFirst? selects change items = some changed) :
    ∃ before item after, items = before ++ item :: after ∧ selects item ∧
      changed = before ++ change item :: after := by
  induction items generalizing changed with
  | nil => contradiction
  | cons first rest ih =>
    rw [modifyFirst?] at found
    split at found
    · cases found
      exact ⟨[], first, rest, rfl, ‹_›, rfl⟩
    · obtain ⟨later, located, rfl⟩ := Option.map_eq_some_iff.mp found
      obtain ⟨before, item, after, rfl, selected, rfl⟩ := ih located
      exact ⟨first :: before, item, after, rfl, selected, rfl⟩

/-- What the change keeps of every element is kept of the list. -/
theorem modifyFirst?_map {key : α → β} (found : modifyFirst? selects change items = some changed)
    (keeps : ∀ item, key (change item) = key item) : changed.map key = items.map key := by
  obtain ⟨before, item, after, rfl, _, rfl⟩ := modifyFirst?_eq_some found
  simp [keeps]

/-- Where a key identifies the elements, the one with the selected key is replaced. -/
theorem mem_modifyFirst?_key [DecidableEq β] {key : α → β} {value : β}
    (distinct : (items.map key).Nodup)
    (found : modifyFirst? (key · = value) change items = some changed) {item : α} :
    item ∈ changed ↔
      item ∈ items ∧ key item ≠ value ∨ ∃ old ∈ items, key old = value ∧ item = change old := by
  obtain ⟨before, old, after, rfl, selected, rfl⟩ := modifyFirst?_eq_some found
  have selected : key old = value := by simpa using selected
  simp only [List.map_append, List.map_cons] at distinct
  have earlier : ∀ item ∈ before, key item ≠ value := by
    intro item member same
    refine (List.nodup_append.mp distinct).2.2 (key item) (List.mem_map_of_mem member) (key old)
      List.mem_cons_self ?_
    rw [same, selected]
  have later : ∀ item ∈ after, key item ≠ value := by
    intro item member same
    refine (List.nodup_cons.mp (List.nodup_append.mp distinct).2.1).1 ?_
    exact List.mem_map.mpr ⟨item, member, by rw [same, selected]⟩
  simp only [List.mem_append, List.mem_cons]
  constructor
  · rintro (member | rfl | member)
    · exact .inl ⟨.inl member, earlier item member⟩
    · exact .inr ⟨old, .inr (.inl rfl), selected, rfl⟩
    · exact .inl ⟨.inr (.inr member), later item member⟩
  · rintro (⟨member | rfl | member, other⟩ | ⟨same, member | rfl | member, keyed, rfl⟩)
    · exact .inl member
    · exact absurd selected other
    · exact .inr (.inr member)
    · exact absurd keyed (earlier same member)
    · exact .inr (.inl rfl)
    · exact absurd keyed (later same member)

end Library.FirstMatch
