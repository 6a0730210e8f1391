import Mathlib

/-! Events that have a place and come in an order of their own. Put in order of their places, they
say the same as long as an event only comes after events of later places when these are the same
event. -/
namespace Library.Arrivals
open List
variable {α : Type u} {events : List (Nat × α)} {bound place : Nat} {event : α}

/-- The events of the places below a bound, place by place. -/
def arranged (bound : Nat) (events : List (Nat × α)) : List (Nat × α) :=
  (List.range bound).flatMap fun place => events.filter (·.1 = place)

@[simp] theorem arranged_nil : arranged bound ([] : List (Nat × α)) = [] := by
  simp [arranged]

theorem arranged_succ : arranged (bound + 1) events =
    arranged bound events ++ events.filter (·.1 = bound) := by
  simp [arranged, range_succ]

/-- An event of a place at or beyond the bound is not arranged. -/
theorem arranged_beyond (beyond : bound ≤ place) :
    arranged bound (events ++ [(place, event)]) = arranged bound events := by
  induction bound with
  | zero => rfl
  | succ bound ih =>
    rw [arranged_succ, arranged_succ, ih (by omega)]
    simp [show place ≠ bound by omega]

/-- More places change nothing where no event has them. -/
theorem arranged_widen (below : ∀ event ∈ events, event.1 < bound) :
    arranged (bound + 1) events = arranged bound events := by
  rw [arranged_succ, filter_eq_nil_iff.mpr, append_nil]
  intro event member
  simpa using Nat.ne_of_lt (below event member)

/-- A new event is put at the end of the events of its place. -/
theorem arranged_concat (within : place < bound) : ∃ earlier later,
    arranged bound events = earlier ++ later ∧
    arranged bound (events ++ [(place, event)]) = earlier ++ (place, event) :: later ∧
    ∀ other ∈ later, place < other.1 ∧ other ∈ events := by
  induction bound with
  | zero => contradiction
  | succ bound ih =>
    rcases Nat.lt_succ_iff_lt_or_eq.mp within with within | rfl
    · obtain ⟨earlier, later, before, after, behind⟩ := ih within
      refine ⟨earlier, later ++ events.filter (·.1 = bound), ?_, ?_, ?_⟩
      · rw [arranged_succ, before, append_assoc]
      · rw [arranged_succ, after]
        simp [show place ≠ bound by omega]
      · intro other member
        rcases mem_append.mp member with member | member
        · exact behind other member
        · obtain ⟨member, here⟩ := mem_filter.mp member
          exact ⟨by simpa using (of_decide_eq_true here) ▸ within, member⟩
    · refine ⟨arranged (place + 1) events, [], (append_nil _).symm, ?_, nofun⟩
      rw [arranged_succ, arranged_beyond le_rfl, arranged_succ]
      simp

/-- Overtaken by none but events like itself, an event says the same at its place as at the end. -/
theorem arranged_values (within : place < bound)
    (overtakes : ∀ other ∈ events, place < other.1 → other.2 = event) :
    (arranged bound (events ++ [(place, event)])).map Prod.snd =
      (arranged bound events).map Prod.snd ++ [event] := by
  obtain ⟨earlier, later, before, after, behind⟩ := @arranged_concat _ events _ _ event within
  have same : later.map Prod.snd = List.replicate later.length event :=
    eq_replicate_iff.mpr ⟨length_map .., by
      simp only [mem_map]
      rintro value ⟨other, member, rfl⟩
      exact overtakes other (behind other member).2 (behind other member).1⟩
  rw [before, after, map_append, map_append, map_cons, same, append_assoc,
    ← replicate_succ, replicate_succ']

end Library.Arrivals
