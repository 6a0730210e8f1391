import Mathlib

/-! Lists of intervals in order: what it means to be the common part of two such lists, and to be some
intervals joined over small gaps. Both are kept by the steps of the usual sweeps. -/
namespace Library.Intervals
open List

structure Span (α : Type) where
  start : α
  stop : α
deriving DecidableEq, Repr

variable {α : Type}

section Order
variable [LinearOrder α]

/-- In the interior of the interval. -/
def Span.Inside (self : Span α) (x : α) : Prop := self.start < x ∧ x < self.stop

def Span.Within (self other : Span α) : Prop :=
  other.start ≤ self.start ∧ self.stop ≤ other.stop

/-- In the interior of one of the intervals. -/
def Inside (intervals : List (Span α)) (x : α) : Prop := ∃ r ∈ intervals, r.Inside x

/-- Intervals that are not empty, one behind the other. -/
structure Separated (intervals : List (Span α)) : Prop where
  forwards : ∀ r ∈ intervals, r.start < r.stop
  apart : intervals.Pairwise fun a b => a.stop < b.start

theorem Span.Within.inside {r s : Span α} {x : α} (within : r.Within s) (inside : r.Inside x) :
    s.Inside x := ⟨within.1.trans_lt inside.1, inside.2.trans_le within.2⟩

theorem Separated.nil : Separated ([] : List (Span α)) := ⟨nofun, .nil⟩

theorem Separated.tail {first : Span α} {rest : List (Span α)}
    (separated : Separated (first :: rest)) : Separated rest :=
  ⟨fun r member => separated.forwards r (mem_cons_of_mem _ member), separated.apart.tail⟩

theorem Separated.behind {first r : Span α} {rest : List (Span α)}
    (separated : Separated (first :: rest)) (member : r ∈ rest) : first.stop < r.start :=
  (pairwise_cons.mp separated.apart).1 r member

/-- The intervals found are the common part of two lists. -/
structure Meets (left right found : List (Span α)) : Prop where
  separated : Separated found
  leftwards : ∀ r ∈ found, ∃ a ∈ left, r.Within a
  rightwards : ∀ r ∈ found, ∃ b ∈ right, r.Within b
  inside : ∀ x, Inside left x → Inside right x → Inside found x

namespace Meets
variable {left right found : List (Span α)} {first second : Span α}

theorem inside_iff (meets : Meets left right found) (x : α) :
    Inside found x ↔ Inside left x ∧ Inside right x := by
  refine ⟨fun ⟨r, member, here⟩ => ⟨?_, ?_⟩, fun ⟨one, two⟩ => meets.inside x one two⟩
  · obtain ⟨a, inLeft, within⟩ := meets.leftwards r member
    exact ⟨a, inLeft, within.inside here⟩
  · obtain ⟨b, inRight, within⟩ := meets.rightwards r member
    exact ⟨b, inRight, within.inside here⟩

theorem symm (meets : Meets left right found) : Meets right left found :=
  ⟨meets.separated, meets.rightwards, meets.leftwards, fun x one two => meets.inside x two one⟩

theorem nil_left : Meets ([] : List (Span α)) right [] :=
  ⟨.nil, nofun, nofun, fun _ ⟨_, member, _⟩ => absurd member not_mem_nil⟩

/-- The interval that ends first has no more to do with the other list than with its first one. -/
theorem advance (separated : Separated (first :: left)) (separated' : Separated (second :: right))
    (ends : first.stop ≤ second.stop) (meets : Meets left (second :: right) found) :
    Meets (first :: left) (second :: right)
      (if max first.start second.start < min first.stop second.stop then
        ⟨max first.start second.start, min first.stop second.stop⟩ :: found else found) := by
  have widen : ∀ r ∈ found, ∃ a ∈ first :: left, r.Within a := fun r member =>
    let ⟨a, inLeft, within⟩ := meets.leftwards r member
    ⟨a, mem_cons_of_mem _ inLeft, within⟩
  have later : ∀ r ∈ found, first.stop < r.start := fun r member =>
    let ⟨_, inLeft, within⟩ := meets.leftwards r member
    (separated.behind inLeft).trans_le within.1
  have both : ∀ x, Inside (first :: left) x → Inside (second :: right) x →
      (first.Inside x ∧ second.Inside x) ∨ Inside found x := by
    rintro x ⟨a, inLeft, here⟩ ⟨b, inRight, there⟩
    rcases mem_cons.mp inLeft with rfl | inLeft
    · rcases mem_cons.mp inRight with rfl | inRight
      · exact .inl ⟨here, there⟩
      · have beyond := separated'.behind inRight
        exact absurd (here.2.trans_le ends) (not_lt.mpr (beyond.le.trans there.1.le))
    · exact .inr (meets.inside x ⟨a, inLeft, here⟩ ⟨b, inRight, there⟩)
  split
  · next some =>
    refine ⟨⟨fun r member => ?_, pairwise_cons.mpr ⟨fun r member => ?_, meets.separated.apart⟩⟩,
      fun r member => ?_, fun r member => ?_, fun x one two => ?_⟩
    · rcases mem_cons.mp member with rfl | member
      · exact some
      · exact meets.separated.forwards r member
    · exact (min_le_left _ _).trans_lt (later r member)
    · rcases mem_cons.mp member with rfl | member
      · exact ⟨first, mem_cons_self, le_max_left _ _, min_le_left _ _⟩
      · exact widen r member
    · rcases mem_cons.mp member with rfl | member
      · exact ⟨second, mem_cons_self, le_max_right _ _, min_le_right _ _⟩
      · exact meets.rightwards r member
    · rcases both x one two with ⟨here, there⟩ | ⟨r, member, inside⟩
      · exact ⟨_, mem_cons_self, max_lt here.1 there.1, lt_min here.2 there.2⟩
      · exact ⟨r, mem_cons_of_mem _ member, inside⟩
  · next none =>
    refine ⟨meets.separated, widen, meets.rightwards, fun x one two => ?_⟩
    rcases both x one two with ⟨here, there⟩ | found
    · exact absurd ((max_lt here.1 there.1).trans (lt_min here.2 there.2)) none
    · exact found

end Meets
end Order

section Group
variable [AddCommGroup α] [LinearOrder α] [IsOrderedAddMonoid α]

/-- The intervals found are the inputs, joined over gaps of at most `slack`. -/
structure Joins (slack : α) (inputs found : List (Span α)) : Prop where
  forwards : ∀ m ∈ found, m.start < m.stop
  apart : found.Pairwise fun a b => a.stop + slack < b.start
  covers : ∀ r ∈ inputs, ∃ m ∈ found, r.Within m
  ends : ∀ m ∈ found, ∃ r ∈ inputs, r.stop = m.stop
  fills : ∀ m ∈ found, ∀ x, m.start ≤ x → x ≤ m.stop →
    (∃ r ∈ inputs, r.start ≤ x ∧ x ≤ r.stop) ∨
      ∃ r ∈ inputs, ∃ r' ∈ inputs, r.stop ≤ x ∧ x ≤ r'.start ∧ r'.start ≤ r.stop + slack

namespace Joins
variable {slack : α} {inputs others found : List (Span α)} {last r : Span α}

theorem nil : Joins slack ([] : List (Span α)) [] := ⟨nofun, .nil, nofun, nofun, nofun⟩

theorem congr (joins : Joins slack inputs found) (same : ∀ r, r ∈ inputs ↔ r ∈ others) :
    Joins slack others found where
  forwards := joins.forwards
  apart := joins.apart
  covers r member := joins.covers r ((same r).mpr member)
  ends m member := by
    obtain ⟨r, held, stop⟩ := joins.ends m member
    exact ⟨r, (same r).mp held, stop⟩
  fills m member x low high := by
    rcases joins.fills m member x low high with ⟨r, held, here⟩ | ⟨r, held, r', held', gap⟩
    · exact .inl ⟨r, (same r).mp held, here⟩
    · exact .inr ⟨r, (same r).mp held, r', (same r').mp held', gap⟩

theorem separated (joins : Joins slack inputs found) (positive : 0 ≤ slack) : Separated found :=
  ⟨joins.forwards, joins.apart.imp fun less => (le_add_of_nonneg_right positive).trans_lt less⟩

theorem more {m : Span α} (member : m ∈ inputs) : m ∈ inputs ++ [r] :=
  mem_append_left _ member

theorem fills_more (joins : Joins slack inputs found) {m : Span α} (member : m ∈ found) {x : α}
    (low : m.start ≤ x) (high : x ≤ m.stop) :
    (∃ s ∈ inputs ++ [r], s.start ≤ x ∧ x ≤ s.stop) ∨ ∃ s ∈ inputs ++ [r], ∃ s' ∈ inputs ++ [r],
      s.stop ≤ x ∧ x ≤ s'.start ∧ s'.start ≤ s.stop + slack := by
  rcases joins.fills m member x low high with ⟨s, held, here⟩ | ⟨s, held, s', held', gap⟩
  · exact .inl ⟨s, more held, here⟩
  · exact .inr ⟨s, more held, s', more held', gap⟩

/-- An interval behind the last one, and not close to it. -/
theorem push (joins : Joins slack inputs found) (forward : r.start < r.stop)
    (behind : ∀ m ∈ found, m.stop + slack < r.start) :
    Joins slack (inputs ++ [r]) (found ++ [r]) := by
  have own : r ∈ inputs ++ [r] := mem_append_right _ mem_cons_self
  refine ⟨fun m member => ?_, pairwise_append.mpr ⟨joins.apart, pairwise_singleton _ _,
    fun m member s single => mem_singleton.mp single ▸ behind m member⟩, fun s member => ?_,
    fun m member => ?_, fun m member x low high => ?_⟩
  · rcases mem_append.mp member with before | single
    · exact joins.forwards m before
    · exact mem_singleton.mp single ▸ forward
  · rcases mem_append.mp member with before | single
    · obtain ⟨m, held, within⟩ := joins.covers s before
      exact ⟨m, mem_append_left _ held, within⟩
    · obtain rfl := mem_singleton.mp single
      exact ⟨s, mem_append_right _ mem_cons_self, le_refl _, le_refl _⟩
  · rcases mem_append.mp member with before | single
    · obtain ⟨s, held, stop⟩ := joins.ends m before
      exact ⟨s, more held, stop⟩
    · exact ⟨r, own, congrArg Span.stop (mem_singleton.mp single).symm⟩
  · rcases mem_append.mp member with before | single
    · exact joins.fills_more before low high
    · obtain rfl := mem_singleton.mp single
      exact .inl ⟨m, own, low, high⟩

/-- An interval that begins close to the last one, and not before it. -/
theorem extend (joins : Joins slack inputs (found ++ [last])) (forward : r.start < r.stop)
    (order : last.start ≤ r.start) (close : r.start ≤ last.stop + slack) :
    Joins slack (inputs ++ [r]) (found ++ [⟨last.start, max last.stop r.stop⟩]) := by
  have own : r ∈ inputs ++ [r] := mem_append_right _ mem_cons_self
  have known : last ∈ found ++ [last] := mem_append_right _ mem_cons_self
  obtain ⟨before, _, behind⟩ := pairwise_append.mp joins.apart
  refine ⟨fun m member => ?_, pairwise_append.mpr ⟨before, pairwise_singleton _ _,
    fun m member s single => ?_⟩, fun s member => ?_, fun m member => ?_,
    fun m member x low high => ?_⟩
  · rcases mem_append.mp member with earlier | single
    · exact joins.forwards m (mem_append_left _ earlier)
    · obtain rfl := mem_singleton.mp single
      exact (joins.forwards last known).trans_le (le_max_left _ _)
  · obtain rfl := mem_singleton.mp single
    exact behind m member last mem_cons_self
  · rcases mem_append.mp member with earlier | single
    · obtain ⟨m, held, within⟩ := joins.covers s earlier
      rcases mem_append.mp held with inside | single
      · exact ⟨m, mem_append_left _ inside, within⟩
      · obtain rfl := mem_singleton.mp single
        exact ⟨_, mem_append_right _ mem_cons_self, within.1,
          within.2.trans (le_max_left _ _)⟩
    · obtain rfl := mem_singleton.mp single
      exact ⟨_, mem_append_right _ mem_cons_self, order, le_max_right _ _⟩
  · rcases mem_append.mp member with earlier | single
    · obtain ⟨s, held, stop⟩ := joins.ends m (mem_append_left _ earlier)
      exact ⟨s, more held, stop⟩
    · obtain rfl := mem_singleton.mp single
      rcases max_choice last.stop r.stop with same | same
      · obtain ⟨s, held, stop⟩ := joins.ends last known
        exact ⟨s, more held, stop.trans same.symm⟩
      · exact ⟨r, own, same.symm⟩
  · rcases mem_append.mp member with earlier | single
    · exact joins.fills_more (mem_append_left _ earlier) low high
    · obtain rfl := mem_singleton.mp single
      rcases le_or_gt x last.stop with inside | beyond
      · exact joins.fills_more known low inside
      · have stop : x ≤ r.stop := (le_max_iff.mp high).resolve_left (not_le.mpr beyond)
        rcases le_or_gt r.start x with inside | gap
        · exact .inl ⟨r, own, inside, stop⟩
        · obtain ⟨s, held, ends⟩ := joins.ends last known
          exact .inr ⟨s, more held, r, own, ends.trans_le beyond.le, gap.le, ends ▸ close⟩

end Joins
end Group
end Library.Intervals
