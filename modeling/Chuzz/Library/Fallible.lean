import Mathlib

/-! Fallible computations: what success says about the parts of a computation,
and how a change of the results passes through binds, folds and maps. -/
namespace Library.Fallible

theorem throw_eq (error : ε) : (throw error : Except ε α) = .error error := rfl

variable {first : Except ε α} {next : α → Except ε β}

theorem bind_ok {result : β} (success : first >>= next = .ok result) :
    ∃ value, first = .ok value ∧ next value = .ok result := by
  cases first with
  | error error => contradiction
  | ok value => exact ⟨value, rfl, success⟩

/-- A check that was passed. -/
theorem guard_ok {condition : Prop} [Decidable condition] {error : ε} {next : Except ε α}
    {result : α} (success : (if condition then throw error else next) = .ok result) :
    ¬ condition ∧ next = .ok result := by
  split at success
  · contradiction
  · exact ⟨‹_›, success⟩

theorem mapError_ok {change : ε → ε'} {value : α} (success : first.mapError change = .ok value) :
    first = .ok value := by
  cases first with
  | error error => contradiction
  | ok value' => exact congrArg Except.ok (Except.ok.inj success)

theorem map_bind {after : β → γ} :
    (first >>= next).map after = first >>= fun value => (next value).map after := by
  cases first <;> rfl

theorem bind_map {change : α → β} {next : β → Except ε γ} :
    first.map change >>= next = first >>= fun value => next (change value) := by
  cases first <;> rfl

variable {after : α → β}

theorem map_pure {value : α} : (pure value : Except ε α).map after = pure (after value) := rfl

theorem map_throw {error : ε} : (throw error : Except ε α).map after = throw error := rfl

theorem throw_bind {error : ε} : (throw error : Except ε α) >>= next = throw error := rfl

theorem map_ite {condition : Prop} [Decidable condition] {first second : Except ε α} :
    (if condition then first else second).map after =
      if condition then first.map after else second.map after := by
  split <;> rfl

/-- A fold over a moved state is the moved fold. -/
theorem foldlM_map {step : σ → α → Except ε σ} {move : σ → σ}
    (commutes : ∀ state item, step (move state) item = (step state item).map move)
    (items : List α) (state : σ) :
    items.foldlM step (move state) = (items.foldlM step state).map move := by
  induction items generalizing state with
  | nil => rfl
  | cons item rest ih =>
    rw [List.foldlM_cons, List.foldlM_cons, commutes, map_bind]
    cases step state item with
    | error error => rfl
    | ok next => exact ih next

/-- A loop that keeps an invariant. -/
theorem foldlM_range (Holds : Nat → σ → Prop) {step : σ → Nat → Except ε σ} {count : Nat}
    (next : ∀ index < count, ∀ state, Holds index state →
      ∃ after, step state index = .ok after ∧ Holds (index + 1) after)
    {state : σ} (start : Holds 0 state) :
    ∃ after, (List.range count).foldlM step state = .ok after ∧ Holds count after := by
  induction count with
  | zero => exact ⟨state, rfl, start⟩
  | succ count ih =>
    obtain ⟨before, folded, holds⟩ := ih fun index less => next index (Nat.lt_succ_of_lt less)
    obtain ⟨after, stepped, later⟩ := next count (Nat.lt_succ_self count) before holds
    rw [List.range_succ, List.foldlM_append, folded]
    exact ⟨after, by simp [bind, Except.bind, stepped, pure, Except.pure], later⟩

theorem mapM_map {items : List α} {first second : α → Except ε β} {change : β → β}
    (same : ∀ item, second item = (first item).map change) :
    items.mapM second = (items.mapM first).map (·.map change) := by
  induction items with
  | nil => rfl
  | cons item rest ih =>
    rw [List.mapM_cons, List.mapM_cons, same, ih]
    cases first item with
    | error error => rfl
    | ok value => cases rest.mapM first <;> rfl

theorem mapM_mem {items : List α} {step : α → Except ε β} {results : List β}
    (mapped : items.mapM step = .ok results) :
    ∀ result ∈ results, ∃ item ∈ items, step item = .ok result := by
  induction items generalizing results with
  | nil =>
    cases mapped
    simp
  | cons item rest ih =>
    rw [List.mapM_cons] at mapped
    cases first : step item with
    | error error => simp [first, bind, Except.bind] at mapped
    | ok value =>
      cases later : rest.mapM step with
      | error error => simp [first, later, bind, Except.bind] at mapped
      | ok values =>
        simp only [first, later, bind, Except.bind] at mapped
        cases mapped
        intro result member
        rcases List.mem_cons.mp member with rfl | member
        · exact ⟨item, List.mem_cons_self, first⟩
        · obtain ⟨source, found, located⟩ := ih later result member
          exact ⟨source, List.mem_cons_of_mem _ found, located⟩

end Library.Fallible
