import Chuzz.Audio.Automation
import Chuzz.Library.Interpolation

/-! Cancelling and holding, with exact numbers. The events before the cancellation are kept, so the
parameter can only change on the segment that ends there; what follows is held. -/
namespace Chuzz.Audio
open Library.Throwing Library.Interpolation List

namespace Anchor

/-- Where some events take the parameter. -/
noncomputable def after (self : Anchor ℝ) (events : List (Event ℝ)) : Anchor ℝ :=
  events.foldl next self

/-- The value before the next event, if there is one. -/
noncomputable def segment (self : Anchor ℝ) (time : ℝ) : Option (Event ℝ) → ℝ
  | some event => self.before event time
  | none => held time self.value self.target

/-- The value that the segment before an event leads to. -/
def goal (self : Anchor ℝ) (event : Event ℝ) : ℝ :=
  if event.kind.isRamp then event.value else self.value

/-- The segment before an event is an exponential. -/
def Curved (self : Anchor ℝ) (event : Event ℝ) : Prop :=
  event.kind = .exponential ∧ 0 < self.value

section
variable {self : Anchor ℝ} {time : ℝ} {first rest other : List (Event ℝ)} {event : Event ℝ}

theorem valueOf_past (past : ∀ event ∈ first, event.time ≤ time) :
    self.valueOf time (first ++ rest) = (self.after first).valueOf time rest := by
  induction first generalizing self with
  | nil => rfl
  | cons event later ih =>
    have here : ¬ time < event.time := not_lt.mpr (past event mem_cons_self)
    rw [cons_append, valueOf, if_neg here]
    exact ih fun other member => past other (mem_cons_of_mem _ member)

theorem valueOf_early (early : ∃ event ∈ first, time < event.time) :
    self.valueOf time (first ++ rest) = self.valueOf time (first ++ other) := by
  induction first generalizing self with
  | nil => simp at early
  | cons event later ih =>
    rw [cons_append, cons_append, valueOf, valueOf]
    split
    · rfl
    · next here =>
      obtain ⟨found, member, before⟩ := early
      rcases mem_cons.mp member with rfl | after
      · contradiction
      · exact ih ⟨found, after, before⟩

theorem valueOf_segment (later : ∀ event ∈ rest, time < event.time) :
    self.valueOf time rest = self.segment time rest.head? := by
  cases rest with
  | nil => rfl
  | cons event rest =>
    rw [valueOf, if_pos (later event mem_cons_self)]
    rfl

@[simp] theorem next_time : (self.next event).time = event.time := by
  unfold next
  split <;> rfl

theorem after_time_le {bound : ℝ} (start : self.time ≤ bound)
    (past : ∀ event ∈ first, event.time ≤ bound) : (self.after first).time ≤ bound := by
  induction first generalizing self with
  | nil => exact start
  | cons event later ih =>
    exact ih (by simpa using past event mem_cons_self) fun other member =>
      past other (mem_cons_of_mem _ member)

theorem le_after_time (sorted : first.Pairwise (·.time ≤ ·.time)) :
    ∀ event ∈ first, event.time ≤ (self.after first).time := by
  induction first generalizing self with
  | nil => simp
  | cons head later ih =>
    obtain ⟨least, sorted'⟩ := pairwise_cons.mp sorted
    have rest := @ih (self.next head) sorted'
    intro event member
    rcases mem_cons.mp member with rfl | after
    · cases later with
      | nil => exact next_time.ge
      | cons second later =>
        exact (least second mem_cons_self).trans (rest second mem_cons_self)
    · exact rest event after

theorem before_held (holds : self.target ≠ none ∨ event.kind.isRamp = false) :
    self.before event time = held time self.value self.target := by
  rw [before, if_neg]
  rintro ⟨ramp, _, none⟩
  rcases holds with target | still
  · exact target (Option.isNone_iff_eq_none.mp none)
  · simp [ramp] at still

theorem clamp_real (fraction : ℝ) : clamp fraction = max 0 (min fraction 1) := by
  unfold clamp
  split_ifs with low high
  · exact (max_eq_left ((min_le_left _ _).trans low.le)).symm
  · rw [min_eq_right high.le, max_eq_right zero_le_one]
  · rw [min_eq_left (not_lt.mp high), max_eq_right (not_lt.mp low)]

theorem clamp_part {span step : ℝ} (span' : 0 < span) (some : 0 ≤ step) (within : step ≤ span) :
    clamp (step / span) = step / span := by
  rw [clamp_real, min_eq_left ((div_le_one span').mpr within),
    max_eq_right (div_nonneg some span'.le)]

open Classical in
theorem before_path (free : self.target = none) (ahead : self.time < event.time)
    (positive : self.Curved event → 0 < event.value) :
    self.before event time = path (self.Curved event) self.value (self.goal event)
      (clamp ((time - self.time) / (event.time - self.time))) := by
  by_cases ramp : event.kind.isRamp
  · rw [before, if_pos ⟨ramp, ahead, by simp [free]⟩]
    simp only [goal, if_pos ramp, path, Curved]
    by_cases bent : event.kind = .exponential ∧ 0 < self.value
    · rw [if_pos ⟨bent.1, bent.2, positive bent⟩, if_pos bent]
      rfl
    · rw [if_neg fun all => bent ⟨all.1, all.2.1⟩, if_neg bent]
  · have still : event.kind.isRamp = false := by simpa using ramp
    have kind : event.kind ≠ .exponential := by
      intro exponential
      simp [exponential, EventKind.isRamp] at ramp
    rw [before_held (.inr still), free]
    simp [held, goal, still, path, Curved, kind]

theorem before_anchor (free : self.target = none) (early : time ≤ self.time) :
    self.before event time = self.value := by
  by_cases ramp : event.kind.isRamp ∧ self.time < event.time
  · have start : clamp ((time - self.time) / (event.time - self.time)) = 0 := by
      rw [clamp_real, max_eq_left]
      exact (min_le_left _ _).trans
        (div_nonpos_of_nonpos_of_nonneg (sub_nonpos.mpr early) (sub_pos.mpr ramp.2).le)
    rw [before, if_pos ⟨ramp.1, ramp.2, by simp [free]⟩, start]
    split
    · change self.value * (event.value / self.value) ^ (0 : ℝ) = _
      rw [Real.rpow_zero, mul_one]
    · exact (congrArg (self.value + ·) (mul_zero _)).trans (add_zero _)
  · rw [before, if_neg fun all => ramp ⟨all.1, all.2.1⟩, free]
    rfl

theorem segment_anchor (free : self.target = none) (early : time ≤ self.time)
    {ends : Option (Event ℝ)} : self.segment time ends = self.value := by
  cases ends with
  | none =>
    rw [segment, free]
    rfl
  | some event => exact before_anchor free early

theorem before_cut {shorter : Event ℝ} (positive : self.Curved event → 0 < event.value)
    (kind : shorter.kind = event.kind) (ahead : self.time < shorter.time)
    (sooner : shorter.time < event.time) (value : shorter.value = self.before event shorter.time)
    (low : self.time ≤ time) (high : time ≤ shorter.time) :
    self.before shorter time = self.before event time := by
  classical
  by_cases still : self.target ≠ none ∨ event.kind.isRamp = false
  · rw [before_held still, before_held (by rwa [kind])]
  · obtain ⟨free, ramp⟩ := not_or.mp still
    have free : self.target = none := not_not.mp free
    have farther : self.time < event.time := ahead.trans sooner
    have curved : self.Curved shorter = self.Curved event := by rw [Curved, kind, Curved]
    have goals : self.goal event = event.value ∧ self.goal shorter = shorter.value := by
      simp [goal, kind, ramp]
    have near : 0 < shorter.time - self.time := sub_pos.mpr ahead
    have far : 0 < event.time - self.time := sub_pos.mpr farther
    have reached : shorter.value = path (self.Curved event) self.value event.value
        ((shorter.time - self.time) / (event.time - self.time)) := by
      rw [value, before_path free farther positive, goals.1,
        clamp_part far near.le (sub_le_sub_right sooner.le _)]
    have positive' : self.Curved event → 0 < self.value ∧ 0 < event.value :=
      fun bent => ⟨bent.2, positive bent⟩
    have positive'' : self.Curved shorter → 0 < shorter.value := fun bent => by
      rw [curved] at bent
      rw [reached]
      exact path_pos bent bent.2 (positive bent)
    rw [before_path free ahead positive'', before_path free farther positive, goals.1, goals.2,
      clamp_part near (sub_nonneg.mpr low) (sub_le_sub_right high _),
      clamp_part far (sub_nonneg.mpr low) (sub_le_sub_right (high.trans sooner.le) _), reached]
    simp only [curved]
    rw [path_part positive']
    congr 1
    field_simp

end

/-- Two events at one time end the same segment. -/
def Same (self : Anchor ℝ) (first second : Event ℝ) : Prop :=
  self.goal first = self.goal second ∧
    (self.goal first = self.value ∨ (self.Curved first ↔ self.Curved second))

section
variable {self : Anchor ℝ} {first second : Event ℝ}

theorem curved_positive (positive : self.Curved first → 0 < first.value)
    (bent : self.Curved first) : 0 < self.value ∧ 0 < self.goal first := by
  refine ⟨bent.2, ?_⟩
  rw [goal, if_pos (by simp [bent.1, EventKind.isRamp])]
  exact positive bent

/-- The parameter is the same up to either of two events at one time if they end the same segment, or
if the parameter does not head for them. -/
theorem before_same_iff (positive : self.Curved first → 0 < first.value)
    (positive' : self.Curved second → 0 < second.value) (time : first.time = second.time) :
    (∀ at', self.time ≤ at' → at' < first.time → self.before first at' = self.before second at') ↔
      (self.target = none → self.time < first.time → self.Same first second) := by
  classical
  by_cases free : self.target = none ∧ self.time < first.time
  · obtain ⟨free, ahead⟩ := free
    have ahead' : self.time < second.time := time ▸ ahead
    have span : 0 < first.time - self.time := sub_pos.mpr ahead
    have bent := @curved_positive self first positive
    have bent' := @curved_positive self second positive'
    have along (fraction : ℝ) (low : 0 ≤ fraction) (high : fraction ≤ 1) :
        clamp ((self.time + (first.time - self.time) * fraction - self.time) /
          (first.time - self.time)) = fraction := by
      rw [add_sub_cancel_left, mul_div_cancel_left₀ _ span.ne', clamp_real, min_eq_left high,
        max_eq_right low]
    refine ⟨fun same _ _ => (path_eq_iff bent bent').mp ?_, fun same at' _ _ => ?_⟩
    · have ways (fraction : ℝ) (low : 0 ≤ fraction) (high : fraction < 1) :
          path (self.Curved first) self.value (self.goal first) fraction =
            path (self.Curved second) self.value (self.goal second) fraction := by
        have here := same (self.time + (first.time - self.time) * fraction)
          (by nlinarith) (by nlinarith)
        rwa [before_path free ahead positive, before_path free ahead' positive', ← time,
          along fraction low high.le] at here
      exact ⟨ways _ (by norm_num) (by norm_num), ways _ (by norm_num) (by norm_num)⟩
    · rw [before_path free ahead positive, before_path free ahead' positive', time]
      exact path_congr bent bent' (same free ahead) _
  · refine ⟨fun _ none ahead => absurd ⟨none, ahead⟩ free, fun _ at' low high => ?_⟩
    have target : self.target ≠ none := fun none => free ⟨none, low.trans_lt high⟩
    rw [before_held (.inl target), before_held (.inl target)]

end
end Anchor

namespace Param
section
variable {self after : Param ℝ} {time : ℝ}

/-- The events are in order, and each has passed the checks of `insert`. -/
structure Sound (param : Param ℝ) : Prop where
  sorted : param.events.Pairwise (·.time ≤ ·.time)
  accepted : ∀ event ∈ param.events, refused event = false

variable {event : Event ℝ}

theorem accepted_positive (accepted : refused event = false)
    (kind : event.kind = .exponential) : 0 < event.value := by
  simp only [refused, Bool.or_eq_false_iff, Bool.and_eq_false_iff, decide_eq_false_iff_not,
    not_le] at accepted
  exact accepted.1.2.resolve_left fun other => other kind

variable {events : List (Event ℝ)}

theorem sorted_inserted (sorted : events.Pairwise (·.time ≤ ·.time)) :
    (inserted event events).Pairwise (·.time ≤ ·.time) := by
  induction events with
  | nil => simp [inserted]
  | cons first rest ih =>
    obtain ⟨least, sorted'⟩ := pairwise_cons.mp sorted
    by_cases early : first.time ≤ event.time
    · have here : inserted event (first :: rest) = first :: inserted event rest := by
        simp [inserted, early]
      rw [here]
      refine pairwise_cons.mpr ⟨fun other member => ?_, ih sorted'⟩
      rcases mem_inserted.mp member with rfl | member
      · exact early
      · exact least other member
    · have here : inserted event (first :: rest) = event :: first :: rest := by
        simp [inserted, early]
      rw [here]
      refine pairwise_cons.mpr ⟨fun other member => ?_, sorted⟩
      rcases mem_cons.mp member with rfl | member
      · exact (not_le.mp early).le
      · exact (not_le.mp early).le.trans (least other member)

theorem inserted_last (past : ∀ other ∈ events, other.time ≤ event.time) :
    inserted event events = events ++ [event] := by
  have all : ∀ other ∈ events, decide (other.time ≤ event.time) = true := fun other member =>
    decide_eq_true (past other member)
  rw [inserted, takeWhile_eq_self_iff.mpr all, dropWhile_eq_nil_iff.mpr all]

theorem insert_sound : Keeps Sound (insert event : EStateM String (Param ℝ) Unit) := by
  intro self sound
  rw [insert_run]
  split_ifs with range full
  · exact sound
  · exact sound
  · refine ⟨sorted_inserted sound.sorted, fun other member => ?_⟩
    rcases mem_inserted.mp member with rfl | before
    · simpa using range
    · exact sound.accepted other before

theorem Sound.cut (sound : self.Sound) (time : ℝ) : (self.cut time).Sound :=
  ⟨sound.sorted.filter _, fun event member => sound.accepted event (mem_filter.mp member).1⟩

theorem cancel_sound {hold : Bool} :
    Keeps Sound (cancel time hold : EStateM String (Param ℝ) Unit) := by
  unfold cancel
  split
  · exact Keeps.thrown
  · refine Triple.looked fun self sound => Triple.changed ?_
    refine Triple.started (Keeps.provided fun _ => Keeps.next ?_ fun _ => insert_sound)
      (sound.cut time)
    cases self.interrupted time with
    | some kind => exact insert_sound
    | none => exact Keeps.returned

theorem Built.sound (built : Built self) : self.Sound := by
  induction built with
  | new default => exact ⟨List.Pairwise.nil, nofun⟩
  | insert event _ ih => exact insert_sound.left ih
  | cancel time hold _ ih => exact cancel_sound.left ih

/-- The events from a time on. -/
noncomputable def following (self : Param ℝ) (time : ℝ) : List (Event ℝ) :=
  self.events.filter (¬ ·.time < time)

theorem sorted_split (sorted : events.Pairwise (·.time ≤ ·.time)) (time : ℝ) :
    events = events.filter (·.time < time) ++ events.filter (¬ ·.time < time) := by
  induction events with
  | nil => rfl
  | cons first rest ih =>
    obtain ⟨least, sorted'⟩ := pairwise_cons.mp sorted
    by_cases early : first.time < time
    · simpa [early] using ih sorted'
    · have none : rest.filter (·.time < time) = [] := by
        refine filter_eq_nil_iff.mpr fun other member => ?_
        simpa using (not_lt.mp early).trans (least other member)
      have all : rest.filter (¬ ·.time < time) = rest := by
        refine filter_eq_self.mpr fun other member => ?_
        simpa using (not_lt.mp early).trans (least other member)
      rw [filter_cons_of_neg (by simpa using early), none,
        filter_cons_of_pos (by simpa using early), all]
      rfl

theorem Sound.split (sound : self.Sound) (time : ℝ) :
    self.events = self.remaining time ++ self.following time :=
  sorted_split sound.sorted time

/-- The event that ends the segment before a cancellation, and the one that holds the value. -/
noncomputable def closing (self : Param ℝ) (time : ℝ) : List (Event ℝ) :=
  (self.interrupted time).toList.map
      (fun kind => { kind, time, value := self.value time, timeConstant := 0 }) ++
    [{ kind := .set, time, value := self.value time, timeConstant := 0 }]

theorem closing_time (member : event ∈ self.closing time) : event.time = time := by
  simp only [closing, mem_append, mem_map, mem_singleton] at member
  rcases member with ⟨kind, _, rfl⟩ | rfl <;> rfl

theorem insert_last (past : ∀ other ∈ self.events, other.time ≤ event.time)
    (done : insert event self = .ok () after) :
    refused event = false ∧ after = { self with events := self.events ++ [event] } := by
  rw [insert_run] at done
  split_ifs at done with range full
  injection done with _ same
  refine ⟨by simpa using range, ?_⟩
  rw [← same, inserted_last past]

/-- A cancellation that succeeds has put the closing events behind those it kept. -/
theorem cancel_events (done : cancel time true self = .ok () after) :
    (∀ event ∈ self.closing time, refused event = false) ∧
      after = { self with events := self.remaining time ++ self.closing time } := by
  have time' : timely time = true := by
    by_contra late
    rw [cancel_untimely (by simpa using late)] at done
    contradiction
  have early : ∀ event ∈ (self.cut time).events, event.time ≤ time := fun event member =>
    le_of_lt (by simpa using (mem_filter.mp member).2)
  rw [cancel_timely time'] at done
  simp only [provided, if_true] at done
  cases found : self.interrupted time with
  | none =>
    rw [found] at done
    obtain ⟨accepted, rfl⟩ := insert_last early done
    simp only [closing, found]
    exact ⟨by simpa using accepted, rfl⟩
  | some kind =>
    rw [found] at done
    simp only [insertRamp] at done
    cases first : insert { kind, time, value := self.value time, timeConstant := 0 }
        (self.cut time) with
    | error error failed =>
      rw [bind_error first] at done
      contradiction
    | ok result between =>
      rw [bind_ok first] at done
      obtain ⟨ramp, rfl⟩ := insert_last early first
      obtain ⟨accepted, rfl⟩ := insert_last (fun other member => by
        rcases mem_append.mp member with before | last
        · exact early other before
        · rw [mem_singleton.mp last]) done
      simp only [closing, found]
      refine ⟨by simpa using ⟨ramp, accepted⟩, ?_⟩
      simp [cut]

variable {at' : ℝ}

theorem value_held (done : cancel time true self = .ok () after) (later : time ≤ at') :
    after.value at' = self.value time := by
  obtain ⟨_, rfl⟩ := cancel_events done
  have past : ∀ event ∈ self.remaining time ++ self.closing time, event.time ≤ at' := by
    intro event member
    rcases mem_append.mp member with before | last
    · have early : event.time < time := by simpa using (mem_filter.mp before).2
      exact early.le.trans later
    · exact (closing_time last).le.trans later
  have whole := @Anchor.valueOf_past self.anchor at' _ [] past
  rw [append_nil] at whole
  change self.anchor.valueOf at' _ = _
  rw [whole, Anchor.after, foldl_append, closing, foldl_append]
  rfl

/-- Where the events before a cancellation leave the parameter. -/
noncomputable def atCut (self : Param ℝ) (time : ℝ) : Anchor ℝ :=
  self.anchor.after (self.remaining time)

/-- Before the first event from the cancellation on, only the next one matters. -/
theorem value_segment (split : self.events = self.remaining time ++ events)
    (later : ∀ event ∈ events, time ≤ event.time) (before : at' < time)
    (past : ∀ event ∈ self.remaining time, event.time ≤ at') :
    self.value at' = (self.atCut time).segment at' events.head? := by
  rw [value, split, Anchor.valueOf_past past,
    Anchor.valueOf_segment fun event member => before.trans_le (later event member)]
  rfl

theorem remaining_early (member : event ∈ self.remaining time) :
    event.time < time := by simpa using (mem_filter.mp member).2

theorem following_late (member : event ∈ self.following time) :
    time ≤ event.time := by simpa using (mem_filter.mp member).2

theorem Sound.following_sorted (sound : self.Sound) (time : ℝ) :
    (self.following time).Pairwise (·.time ≤ ·.time) := sound.sorted.filter _

/-- With no event at the cancellation, the next one is what it interrupts. -/
theorem interrupted_following (sound : self.Sound)
    (apart : ∀ event ∈ self.following time, time < event.time) :
    self.interrupted time = (((self.following time).head?).filter (·.kind.isRamp)).map (·.kind) := by
  have none : (self.remaining time).find? (time < ·.time) = none :=
    find?_eq_none.mpr fun event member => by simpa using (remaining_early member).le
  rw [interrupted, sound.split time, find?_append, none, Option.none_or]
  cases following : self.following time with
  | nil => rfl
  | cons first rest =>
    rw [find?_cons_of_pos (by simpa using apart first (by simp [following]))]
    rfl

theorem closing_plain (found : self.interrupted time = none) : self.closing time =
    [{ kind := .set, time, value := self.value time, timeConstant := 0 }] := by
  simp [closing, found]

theorem closing_ramp {kind : EventKind} (found : self.interrupted time = some kind) :
    (self.closing time).head? =
      some { kind, time, value := self.value time, timeConstant := 0 } := by
  simp [closing, found]

theorem value_following (sound : self.Sound) :
    self.value time = (self.atCut time).valueOf time (self.following time) := by
  rw [value, sound.split time, Anchor.valueOf_past fun event member => (remaining_early member).le]
  rfl

/-- With no event at the cancellation, the segment that ends there is as it was. -/
theorem segment_open (sound : self.Sound) (apart : ∀ event ∈ self.following time, time < event.time)
    (low : (self.atCut time).time ≤ at') (high : at' < time) :
    (self.atCut time).segment at' (self.closing time).head? =
      (self.atCut time).segment at' (self.following time).head? := by
  have found := interrupted_following sound apart
  cases following : self.following time with
  | nil =>
    rw [closing_plain (by simpa [following] using found)]
    exact Anchor.before_held (.inr rfl)
  | cons first rest =>
    have member : first ∈ self.following time := by simp [following]
    cases ramp : first.kind.isRamp with
    | false =>
      rw [closing_plain (by simp [found, following, Option.filter, ramp])]
      exact (Anchor.before_held (.inr rfl)).trans (Anchor.before_held (.inr ramp)).symm
    | true =>
      have ends : self.interrupted time = some first.kind := by
        simp [found, following, Option.filter, ramp]
      rw [closing_ramp ends]
      have value : self.value time = (self.atCut time).before first time := by
        rw [value_following sound, Anchor.valueOf_segment apart, following]
        rfl
      have accepted := sound.accepted first (mem_filter.mp member).1
      exact Anchor.before_cut (fun bent => accepted_positive accepted bent.1) rfl
        (low.trans_lt high) (apart first member) value low high.le

/-- The parameter heads for the cancellation as before: no event lies there, or the first one that
does ends the same segment as the closing events. -/
def Steady (self : Param ℝ) (time : ℝ) : Prop :=
  ∀ first ∈ (self.following time).head?, first.time = time → (self.atCut time).target = none →
    (self.atCut time).time < time → ∀ last ∈ (self.closing time).head?,
      (self.atCut time).Same last first

theorem atCut_free (past : ∀ event ∈ self.remaining time, event.time ≤ at')
    (early : at' < (self.atCut time).time) : (self.atCut time).target = none := by
  cases remaining : self.remaining time with
  | nil => simp [atCut, remaining, Anchor.after, anchor]
  | cons first rest =>
    rw [remaining] at past
    have reached : (self.atCut time).time ≤ at' := by
      rw [atCut, remaining]
      change (Anchor.after (self.anchor.next first) rest).time ≤ at'
      exact Anchor.after_time_le (Anchor.next_time.trans_le (past first mem_cons_self))
        fun event member => past event (mem_cons_of_mem _ member)
    exact absurd early (not_lt.mpr reached)

theorem closing_head (self : Param ℝ) (time : ℝ) :
    ∃ last ∈ self.closing time, (self.closing time).head? = some last := by
  cases found : self.interrupted time with
  | none => exact ⟨_, by rw [closing_plain found]; exact mem_cons_self, by
      rw [closing_plain found]; rfl⟩
  | some kind =>
    have head := closing_ramp found
    exact ⟨_, mem_of_mem_head? head, head⟩

theorem segment_steady (sound : self.Sound)
    (accepted : ∀ event ∈ self.closing time, refused event = false) (steady : self.Steady time)
    (low : (self.atCut time).time ≤ at') (high : at' < time) :
    (self.atCut time).segment at' (self.closing time).head? =
      (self.atCut time).segment at' (self.following time).head? := by
  cases following : self.following time with
  | nil =>
    have opened := segment_open sound (by simp [following]) low high
    rwa [following] at opened
  | cons first rest =>
    have member : first ∈ self.following time := by simp [following]
    by_cases here : first.time = time
    · obtain ⟨last, closed, head⟩ := closing_head self time
      rw [head]
      refine (Anchor.before_same_iff
        (fun bent => accepted_positive (accepted last closed) bent.1)
        (fun bent => accepted_positive (sound.accepted first (mem_filter.mp member).1) bent.1)
        ((closing_time closed).trans here.symm)).mpr (fun free ahead => ?_) at' low
        (high.trans_eq (closing_time closed).symm)
      exact steady first (by simp [following]) here free (closing_time closed ▸ ahead) last head
    · have sorted := sound.following_sorted time
      rw [following] at sorted
      have apart : ∀ event ∈ self.following time, time < event.time := by
        rw [following]
        have next := lt_of_le_of_ne (following_late member) (Ne.symm here)
        intro event held
        rcases mem_cons.mp held with rfl | later
        · exact next
        · exact next.trans_le ((pairwise_cons.mp sorted).1 event later)
      have opened := segment_open sound apart low high
      rwa [following] at opened

/-- Cancelling and holding keeps the value up to the cancellation and holds it from there on, just when
the segment that ends there stays the same. -/
theorem cancel_holds_iff (built : Built self) (done : cancel time true self = .ok () after) :
    ((∀ at' ≤ time, after.value at' = self.value at') ∧
      ∀ at', time ≤ at' → after.value at' = self.value time) ↔ self.Steady time := by
  have sound := built.sound
  obtain ⟨accepted, same⟩ := cancel_events done
  have before {at' : ℝ} (early : at' < time)
      (past : ∀ event ∈ self.remaining time, event.time ≤ at') :
      self.value at' = (self.atCut time).segment at' (self.following time).head? ∧
        after.value at' = (self.atCut time).segment at' (self.closing time).head? := by
    refine ⟨value_segment (sound.split time) (fun _ => following_late) early past, ?_⟩
    rw [same, value, Anchor.valueOf_past past, Anchor.valueOf_segment fun event member =>
      early.trans_eq (closing_time member).symm]
    rfl
  refine ⟨fun both => ?_, fun steady => ⟨fun at' early => ?_, fun at' => value_held done⟩⟩
  · obtain ⟨same', _⟩ := both
    intro first head here free ahead last closes
    have closed : last ∈ self.closing time := mem_of_mem_head? closes
    have followed : first ∈ self.following time := mem_of_mem_head? head
    refine (@Anchor.before_same_iff (self.atCut time) last first
      (fun bent => accepted_positive (accepted last closed) bent.1)
      (fun bent => accepted_positive (sound.accepted first (mem_filter.mp followed).1) bent.1)
      ((closing_time closed).trans here.symm)).mp (fun at' low high => ?_) free
      ((closing_time closed).symm ▸ ahead)
    rw [closing_time closed] at high
    obtain ⟨old, new⟩ := before high fun event member =>
      (Anchor.le_after_time (sound.sorted.filter _) event member).trans low
    have equal := same' at' high.le
    rw [old, new, Option.mem_def.mp head, Option.mem_def.mp closes] at equal
    exact equal
  · rcases early.eq_or_lt with rfl | early
    · exact value_held done le_rfl
    by_cases past : ∀ event ∈ self.remaining time, event.time ≤ at'
    · obtain ⟨old, new⟩ := before early past
      rw [old, new]
      rcases lt_or_ge at' (self.atCut time).time with first | low
      · have free := atCut_free past first
        rw [Anchor.segment_anchor free first.le, Anchor.segment_anchor free first.le]
      · exact segment_steady sound accepted steady low early
    · push Not at past
      rw [same, value, value, sound.split time]
      exact Anchor.valueOf_early past

end

/-- A linear ramp up from nothing. -/
def climbing : Param ℝ where
  default := 0
  events := [{ kind := .linear, time := 1, value := 1, timeConstant := 0 }]

theorem climbing_built : Built climbing := by
  let ramp : Event ℝ := { kind := .linear, time := 1, value := 1, timeConstant := 0 }
  have accepted : refused ramp = false := by
    simp only [refused, ramp, Number.isFinite, Number.f32Max, Number.abs]
    norm_num [show EventKind.linear ≠ .exponential ∧ EventKind.linear ≠ .target by decide]
  have reached := Built.insert ramp (Built.new (0 : ℝ))
  rwa [left, insert_run, accepted] at reached

theorem climbing_value {time : ℝ} (low : 0 ≤ time) (high : time ≤ 1) :
    climbing.value time = time := by
  rcases high.eq_or_lt with rfl | high
  · simp [value, climbing, anchor, Anchor.valueOf, Anchor.next, held]
  · have fraction : clamp time = time := by
      rw [Anchor.clamp_real, min_eq_left high.le, max_eq_right low]
    simp [value, climbing, anchor, Anchor.valueOf, high, Anchor.before, EventKind.isRamp, fraction]

theorem cancel_holds_halfway : ∃ after, cancel (1 / 2) true climbing = .ok () after ∧
    (∀ at' ≤ 1 / 2, after.value at' = climbing.value at') ∧
      ∀ at', 1 / 2 ≤ at' → after.value at' = climbing.value (1 / 2) := by
  have time' : timely (1 / 2 : ℝ) = true := by
    simp only [timely, Number.isFinite]
    norm_num
  have found : climbing.interrupted (1 / 2) = some .linear := by
    have later : (1 / 2 : ℝ) < 1 := by norm_num
    simp only [interrupted, climbing, find?_cons, later, decide_true]
    rfl
  have value : climbing.value (1 / 2) = 1 / 2 := climbing_value (by norm_num) (by norm_num)
  obtain ⟨after, done⟩ := (cancel_ramp_ok climbing_built found time').mpr
    ⟨by rw [value]; simp only [settable, Number.isFinite, Number.f32Max, Number.abs]; norm_num, (by rintro ⟨⟩),
      Nat.le_trans (Nat.add_le_add_right (length_filter_le _ _) 2) (by decide)⟩
  refine ⟨after, done, (cancel_holds_iff climbing_built done).mpr ?_⟩
  intro first head here
  obtain rfl := mem_singleton.mp (mem_filter.mp (mem_of_mem_head? head)).1
  norm_num at here

/-- The ramp ends at the cancellation and is deleted, so nothing leads up to the held value. -/
theorem cancel_jumps : Built climbing ∧ ∃ after, cancel 1 true climbing = .ok () after ∧
    after.value (1 / 2) = 0 ∧ climbing.value (1 / 2) = 1 / 2 := by
  have time' : timely (1 : ℝ) = true := by
    simp only [timely, Number.isFinite]
    norm_num
  have found : climbing.interrupted 1 = none := by simp [interrupted, climbing]
  have remaining : climbing.remaining 1 = [] := by simp [Param.remaining, climbing]
  have value : climbing.value 1 = 1 := climbing_value zero_le_one le_rfl
  obtain ⟨after, inserted⟩ := insert_fails_iff.mpr
    ⟨show refused { kind := .set, time := (1 : ℝ), value := 1, timeConstant := 0 } = false by
      rw [refused_set time']
      simp only [settable, Number.isFinite, Number.f32Max, Number.abs]
      norm_num, show (climbing.cut 1).events.length ≠ automationEvents by
      simp [cut, remaining, automationEvents]⟩
  have done : cancel 1 true climbing = .ok () after := by
    rw [cancel_timely time', found, value]
    exact inserted
  obtain ⟨_, rfl⟩ := cancel_events done
  refine ⟨climbing_built, _, done, ?_, climbing_value (by norm_num) (by norm_num)⟩
  have early : (1 / 2 : ℝ) < 1 := by norm_num
  simp only [Param.value, remaining, closing, found, Option.toList_none, map_nil,
    nil_append, Anchor.valueOf, early, if_true]
  exact (Anchor.before_held (.inr rfl)).trans rfl

end Param
end Chuzz.Audio
