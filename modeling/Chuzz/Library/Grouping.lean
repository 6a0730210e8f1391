import Mathlib

/-! Items laid out in consecutive groups: which group an item is in, and where in it. -/
namespace Library.Layout
variable {counts : Nat → Nat} {group index position bound : Nat}

/-- How many items the groups before a group hold. -/
def before (counts : Nat → Nat) (group : Nat) : Nat := ∑ other ∈ Finset.range group, counts other

@[simp] theorem before_zero (counts : Nat → Nat) : before counts 0 = 0 := Finset.sum_range_zero _

theorem before_succ (counts : Nat → Nat) (group : Nat) :
    before counts (group + 1) = before counts group + counts group := Finset.sum_range_succ _ _

theorem before_mono (counts : Nat → Nat) : Monotone (before counts) :=
  monotone_nat_of_le_succ fun group => by rw [before_succ]; exact Nat.le_add_right _ _

theorem before_add (counts : Nat → Nat) (group more : Nat) : before counts (group + more) =
    before counts group + before (fun other => counts (group + other)) more :=
  Finset.sum_range_add _ _ _

/-- An item is the one at `index` of its group. -/
structure At (counts : Nat → Nat) (group index position : Nat) : Prop where
  inside : index < counts group
  position : position = before counts group + index

namespace At

theorem le (place : At counts group index position) : before counts group ≤ position := by
  rw [place.position]
  exact Nat.le_add_right _ _

theorem lt (place : At counts group index position) : position < before counts (group + 1) := by
  have inside := place.inside
  rw [place.position, before_succ]
  omega

theorem within (place : At counts group index position) (earlier : group < bound) :
    position < before counts bound :=
  place.lt.trans_le (before_mono counts earlier)

/-- An item has one place. -/
theorem unique {group' index' : Nat} (place : At counts group index position)
    (place' : At counts group' index' position) : group = group' ∧ index = index' := by
  have same : group = group' := by
    rcases Nat.lt_trichotomy group group' with early | same | late
    · exact absurd (place.within early) (not_lt.mpr place'.le)
    · exact same
    · exact absurd (place'.within late) (not_lt.mpr place.le)
  subst same
  have one := place.position
  have two := place'.position
  exact ⟨rfl, by omega⟩

end At

/-- Every item has a place. -/
theorem exists_at (inside : position < before counts bound) :
    ∃ group index, group < bound ∧ At counts group index position := by
  induction bound with
  | zero => exact absurd inside (by simp)
  | succ bound ih =>
    by_cases early : position < before counts bound
    · obtain ⟨group, index, within, place⟩ := ih early
      exact ⟨group, index, within.trans (Nat.lt_succ_self _), place⟩
    · rw [before_succ] at inside
      exact ⟨bound, position - before counts bound, Nat.lt_succ_self _, by omega, by omega⟩

end Library.Layout

/-! A list in the order of its keys is the concatenation of its groups. -/
namespace Library.Grouping
universe u
variable {α : Type u} (key : α → Nat)

section
variable {bound : Nat} {items : List α}
  (sorted : items.Pairwise fun first second => key first ≤ key second)
include sorted

/-- The largest keys stand behind all others. -/
theorem filter_append_filter (bounded : ∀ item ∈ items, key item < bound + 1) :
    (items.filter fun item => decide (key item < bound)) ++
      (items.filter fun item => decide (key item = bound)) = items := by
  induction items with
  | nil => rfl
  | cons first rest ih =>
    obtain ⟨least, sorted⟩ := List.pairwise_cons.mp sorted
    have others := ih sorted fun item member => bounded item (List.mem_cons_of_mem _ member)
    rcases Nat.lt_succ_iff_lt_or_eq.mp (bounded first List.mem_cons_self) with below | last
    · rw [List.filter_cons_of_pos (by simpa using below),
        List.filter_cons_of_neg (by simpa using Nat.ne_of_lt below), List.cons_append, others]
    · have none : rest.filter (fun item => decide (key item < bound)) = [] := by
        apply List.filter_eq_nil_iff.mpr
        intro item member
        have := least item member
        simp only [decide_eq_true_eq]
        omega
      rw [none, List.nil_append] at others
      rw [List.filter_cons_of_neg (by simp [last]), none, List.nil_append,
        List.filter_cons_of_pos (by simpa using last), others]

theorem groups_sorted (bounded : ∀ item ∈ items, key item < bound) :
    ((List.range bound).flatMap fun group => items.filter fun item => decide (key item = group)) =
      items := by
  induction bound generalizing items with
  | zero =>
    cases items with
    | nil => rfl
    | cons first rest => exact absurd (bounded first List.mem_cons_self) (Nat.not_lt_zero _)
  | succ bound ih =>
    rw [List.range_succ, List.flatMap_append, List.flatMap_singleton]
    have below : ((List.range bound).flatMap fun group =>
        (items.filter fun item => decide (key item < bound)).filter fun item =>
          decide (key item = group)) = items.filter fun item => decide (key item < bound) :=
      ih (sorted.sublist List.filter_sublist)
        fun item member => by simpa using (List.mem_filter.mp member).2
    have groups : ((List.range bound).flatMap fun group =>
          items.filter fun item => decide (key item = group)) =
        items.filter fun item => decide (key item < bound) := by
      rw [← below]
      apply List.flatMap_congr
      intro group member
      rw [List.filter_filter]
      apply List.filter_congr
      intro item _
      have small := List.mem_range.mp member
      by_cases same : key item = group
      · simp [same, small]
      · simp [same]
    rw [groups]
    exact filter_append_filter key sorted bounded

end

end Library.Grouping
