import Chuzz.Library.Throwing

/-! The automation of an audio parameter: a list of events, the value they give at a time, and
cancelling. The arithmetic is a parameter, so that what is proved here holds of rounded numbers with
infinities as well as of exact ones. -/
namespace Chuzz.Audio
open Library.Throwing List Bool
local instance two_ok : Nat.AtLeastTwo 2 := ⟨by decide⟩

def automationEvents : Nat := 128

/-- What the automation asks of its numbers. -/
class Number (α : Type) extends Zero α, One α, Add α, Sub α, Mul α, Div α, Neg α, LT α, LE α where
  decidableLT : DecidableLT α
  decidableLE : DecidableLE α
  exp : α → α
  powf : α → α → α
  abs : α → α
  isFinite : α → Bool
  f32Max : α

attribute [reducible, instance] Number.decidableLT Number.decidableLE

/-- Exact numbers, with the largest finite `f32`. -/
noncomputable instance : Number ℝ where
  decidableLT := inferInstance
  decidableLE := inferInstance
  exp := Real.exp
  powf base power := base ^ power
  abs value := |value|
  isFinite _ := true
  f32Max := (2 ^ 24 - 1) * 2 ^ 104

inductive EventKind where
  | set
  | linear
  | exponential
  | target
deriving DecidableEq, Repr

def EventKind.isRamp : EventKind → Bool
  | .linear | .exponential => true
  | _ => false

structure Event (α : Type) where
  kind : EventKind
  time : α
  value : α
  timeConstant : α

/-- A target that is being approached. -/
structure Target (α : Type) where
  start : α
  initial : α
  goal : α
  constant : α

structure Param (α : Type) where
  default : α
  events : List (Event α)

/-- Where the events so far have left the parameter. -/
structure Anchor (α : Type) where
  time : α
  value : α
  target : Option (Target α)

section
variable {α : Type} [Number α]
open Number

/-- `clamp(0.0, 1.0)` -/
def clamp (fraction : α) : α :=
  if fraction < 0 then 0 else if 1 < fraction then 1 else fraction

def held (at' value : α) : Option (Target α) → α
  | some target =>
    target.goal + (target.initial - target.goal) * exp (-(at' - target.start) / target.constant)
  | none => value

namespace Anchor

/-- The value at a time before the next event. -/
def before (self : Anchor α) (event : Event α) (time : α) : α :=
  if event.kind.isRamp ∧ self.time < event.time ∧ self.target.isNone then
    let fraction := clamp ((time - self.time) / (event.time - self.time))
    if event.kind = .exponential ∧ 0 < self.value ∧ 0 < event.value then
      self.value * powf (event.value / self.value) fraction
    else self.value + (event.value - self.value) * fraction
  else held time self.value self.target

def next (self : Anchor α) (event : Event α) : Anchor α :=
  let previous := held event.time self.value self.target
  match event.kind with
  | .target => {
      time := event.time
      value := previous
      target := some {
        start := event.time
        initial := previous
        goal := event.value
        constant := event.timeConstant } }
  | _ => { time := event.time, value := event.value, target := none }

/-- The value that the events from an anchor on give. -/
def valueOf (self : Anchor α) (time : α) : List (Event α) → α
  | [] => held time self.value self.target
  | event :: rest =>
    if time < event.time then self.before event time else (self.next event).valueOf time rest

end Anchor

namespace Param

def new (default : α) : Param α := { default, events := [] }

def anchor (self : Param α) : Anchor α := { time := 0, value := self.default, target := none }

def value (self : Param α) (time : α) : α := self.anchor.valueOf time self.events

/-- What `insert` refuses as out of range. -/
def refused (event : Event α) : Bool :=
  !isFinite event.time || event.time < 0 || !isFinite event.value || f32Max < abs event.value ||
    (event.kind = .exponential && event.value ≤ 0) ||
    (event.kind = .target && (!isFinite event.timeConstant || event.timeConstant ≤ 0))

/-- The events up to the time of the new one come first. -/
def inserted (event : Event α) (events : List (Event α)) : List (Event α) :=
  events.takeWhile (·.time ≤ event.time) ++ event :: events.dropWhile (·.time ≤ event.time)

def insert (event : Event α) : EStateM String (Param α) Unit := do
  let self ← get
  if refused event then throw "RangeError: invalid audio automation event"
  else if self.events.length = automationEvents then
    throw "QuotaExceededError: audio automation event limit"
  else set { self with events := inserted event self.events }

/-- The kind of the ramp that a cancellation interrupts. -/
def interrupted (self : Param α) (time : α) : Option EventKind :=
  ((self.events.find? (time < ·.time)).filter (·.kind.isRamp)).map (·.kind)

def remaining (self : Param α) (time : α) : List (Event α) := self.events.filter (·.time < time)

/-- The parameter after the deletions of a cancellation. -/
def cut (time : α) (self : Param α) : Param α := { self with events := self.remaining time }

/-- The interrupted ramp ends at the cancellation. -/
def insertRamp (time value : α) : Option EventKind → EStateM String (Param α) Unit
  | some kind => insert { kind, time, value, timeConstant := 0 }
  | none => pure ()

def cancel (time : α) (hold : Bool) : EStateM String (Param α) Unit := do
  if !isFinite time || time < 0 then throw "RangeError: invalid automation cancellation time"
  else do
    let self ← get
    modify (cut time)
    provided hold do
      insertRamp time (self.value time) (self.interrupted time)
      insert { kind := .set, time, value := self.value time, timeConstant := 0 }

/-- The parameters that a page can make. A call that fails has done what it did before. -/
inductive Built : Param α → Prop where
  | new (default : α) : Built (new default)
  | insert {self : Param α} (event : Event α) :
      Built self → Built (left (insert event) self)
  | cancel {self : Param α} (time : α) (hold : Bool) :
      Built self → Built (left (cancel time hold) self)

section
variable {self after : Param α} {event : Event α} {time value : α} {hold : Bool}

theorem insert_run : insert event self =
    if refused event then .error "RangeError: invalid audio automation event" self
    else if self.events.length = automationEvents then
      .error "QuotaExceededError: audio automation event limit" self
    else .ok () { self with events := inserted event self.events } := by
  unfold insert
  rw [get_bind]
  split
  · rfl
  · split <;> rfl

theorem length_inserted {events : List (Event α)} :
    (inserted event events).length = events.length + 1 := by
  have parts := congrArg List.length
    (takeWhile_append_dropWhile (p := (·.time ≤ event.time)) (l := events))
  simp only [inserted, length_append, length_cons] at parts ⊢
  omega

theorem mem_inserted {events : List (Event α)} {other : Event α} :
    other ∈ inserted event events ↔ other = event ∨ other ∈ events := by
  have parts := takeWhile_append_dropWhile (p := (·.time ≤ event.time)) (l := events)
  have before : other ∈ events ↔ other ∈ events.takeWhile (·.time ≤ event.time) ∨
      other ∈ events.dropWhile (·.time ≤ event.time) := by rw [← mem_append, parts]
  rw [before, inserted, mem_append, mem_cons]
  exact or_left_comm

/-- A number that a parameter can be set to. -/
def settable (value : α) : Bool := isFinite value && !decide (f32Max < abs value)

/-- The time of a cancellation that is not refused at once. -/
def timely (time : α) : Bool := isFinite time && !decide (time < 0)

theorem refused_set (time' : timely time = true) :
    refused { kind := .set, time, value, timeConstant := 0 } = !settable value := by
  simp only [timely, and_eq_true, not_eq_true', decide_eq_false_iff_not] at time'
  simp [refused, settable, time']

variable {kind : EventKind}

theorem refused_ramp (ramp : kind.isRamp = true) (time' : timely time = true) :
    refused { kind, time, value, timeConstant := 0 } =
      (!settable value || (kind = .exponential && decide (value ≤ 0))) := by
  simp only [timely, and_eq_true, not_eq_true', decide_eq_false_iff_not] at time'
  cases kind <;> simp_all [refused, settable, EventKind.isRamp]

theorem interrupted_some (found : self.interrupted time = some kind) :
    ∃ event ∈ self.events, time < event.time ∧ event.kind = kind ∧ kind.isRamp = true := by
  obtain ⟨event, filtered, rfl⟩ := Option.map_eq_some_iff.mp found
  obtain ⟨later, ramp⟩ := Option.filter_eq_some_iff.mp filtered
  exact ⟨event, mem_of_find?_eq_some later, by simpa using find?_some later, rfl, ramp⟩

theorem cancel_untimely (untimely : timely time = false) : cancel time hold self =
    .error "RangeError: invalid automation cancellation time" self := by
  have out : (!isFinite time || decide (time < 0)) = true := by
    cases finite : isFinite time <;> simp_all [timely]
  unfold cancel
  rw [if_pos (by simpa using out)]
  rfl

theorem cancel_timely (time' : timely time = true) : cancel time hold self =
    provided hold (do
      insertRamp time (self.value time) (self.interrupted time)
      insert { kind := .set, time, value := self.value time, timeConstant := 0 }) (self.cut time) := by
  simp only [timely, and_eq_true, not_eq_true', decide_eq_false_iff_not] at time'
  unfold cancel
  rw [if_neg (by simp [time'])]
  rfl

/-- A parameter never has more events than it may have. -/
def Within (self : Param α) : Prop := self.events.length ≤ automationEvents

theorem insert_within : Keeps Within (insert event : EStateM String (Param α) Unit) := by
  intro self within
  rw [insert_run]
  simp only [Within] at within
  split_ifs with range full
  · exact within
  · exact within
  · simp only [Within, length_inserted]
    omega

theorem cancel_within : Keeps Within (cancel time hold : EStateM String (Param α) Unit) := by
  unfold cancel
  split
  · exact Keeps.thrown
  · refine Triple.looked fun self within => Triple.changed ?_
    have kept : (self.cut time).Within :=
      Nat.le_trans (length_filter_le _ self.events) within
    refine Triple.started (Keeps.provided fun _ => Keeps.next ?_ fun _ => insert_within) kept
    cases self.interrupted time with
    | some kind => exact insert_within
    | none => exact Keeps.returned

theorem Built.within (built : Built self) : self.Within := by
  induction built with
  | new default => exact Nat.zero_le _
  | insert event _ ih => exact insert_within.left ih
  | cancel time hold _ ih => exact cancel_within.left ih

theorem insert_fails_iff : (∃ after, insert event self = .ok () after) ↔
    refused event = false ∧ self.events.length ≠ automationEvents := by
  rw [insert_run]
  split_ifs with range full
  · simp [range]
  · simp [full]
  · simp [range, full]

section
variable [Std.Asymm (α := α) (· < ·)]

theorem cut_shorter (found : self.interrupted time = some kind) :
    (self.cut time).events.length < self.events.length := by
  obtain ⟨event, member, later, _⟩ := interrupted_some found
  refine length_filter_lt_length_iff_exists.mpr ⟨event, member, ?_⟩
  simpa using Std.Asymm.asymm _ _ later

theorem cut_changed (found : self.interrupted time = some kind)
    (events : List (Event α)) (early : ∀ event ∈ events, ¬ time < event.time) :
    events ≠ self.events := by
  rintro rfl
  obtain ⟨event, member, later, _⟩ := interrupted_some found
  exact early event member later

theorem cancel_ramp_ok (built : Built self)
    (found : self.interrupted time = some kind) (time' : timely time = true) :
    (∃ after, cancel time true self = .ok () after) ↔
      settable (self.value time) = true ∧ (kind = .exponential → ¬ self.value time ≤ 0) ∧
        (self.remaining time).length + 2 ≤ automationEvents := by
  obtain ⟨_, _, _, _, ramp⟩ := interrupted_some found
  have shorter := cut_shorter found
  have within : self.events.length ≤ automationEvents := built.within
  rw [cancel_timely time', found]
  simp only [provided, insertRamp, if_true]
  cases first : insert { kind, time, value := self.value time, timeConstant := 0 } (self.cut time)
    with
  | error error failed =>
    rw [bind_error first]
    refine iff_of_false nofun fun ⟨settable', positive, room⟩ => ?_
    obtain ⟨after, done⟩ := insert_fails_iff.mpr
      ⟨show refused { kind, time, value := self.value time, timeConstant := 0 } = false by
        rw [refused_ramp ramp time']
        simpa [settable'] using positive, show (self.cut time).events.length ≠ automationEvents by
        simp only [cut]
        omega⟩
    rw [done] at first
    contradiction
  | ok result between =>
    obtain ⟨accepted, _⟩ := insert_fails_iff.mp ⟨between, first⟩
    have grown : between.events.length = (self.remaining time).length + 1 := by
      rw [insert_run] at first
      split_ifs at first
      injection first with _ same
      rw [← same]
      exact length_inserted
    rw [refused_ramp ramp time'] at accepted
    rw [bind_ok first, insert_fails_iff, refused_set time', grown]
    have fits : (self.remaining time).length < automationEvents := Nat.lt_of_lt_of_le shorter within
    simp only [or_eq_false_iff, not_eq_false', and_eq_false_iff,
      decide_eq_false_iff_not] at accepted ⊢
    refine ⟨fun ⟨settable', room⟩ => ⟨settable', fun same => ?_, by omega⟩,
      fun ⟨settable', _, room⟩ => ⟨settable', by omega⟩⟩
    exact accepted.2.resolve_left (fun other => other same)

/-- A cancellation that fails after an interrupted ramp has lost that ramp. -/
theorem cancel_ramp_error {error : String}
    (found : self.interrupted time = some kind) (time' : timely time = true)
    (failed : cancel time true self = .error error after) : after.events ≠ self.events := by
  have irrefl : ¬ time < time := fun less => Std.Asymm.asymm _ _ less less
  have early : ∀ event ∈ (self.cut time).events, ¬ time < event.time := fun event member =>
    Std.Asymm.asymm _ _ (by simpa using (mem_filter.mp member).2)
  have holds : Triple (fun self : Param α => ∀ event ∈ self.events, ¬ time < event.time)
      (provided true (do
        insertRamp time (self.value time) (self.interrupted time)
        insert { kind := .set, time, value := self.value time, timeConstant := 0 }))
      (fun _ self => ∀ event ∈ self.events, ¬ time < event.time)
      (fun self => ∀ event ∈ self.events, ¬ time < event.time) := by
    have inserts (event : Event α) (here : event.time = time) :
        Keeps (fun self : Param α => ∀ event ∈ self.events, ¬ time < event.time)
          (insert event) := by
      intro self early
      rw [insert_run]
      split_ifs
      · exact early
      · exact early
      · intro other member
        rcases mem_inserted.mp member with rfl | before
        · rwa [here]
        · exact early other before
    rw [found]
    exact Keeps.provided fun _ => Keeps.next (inserts _ rfl) fun _ => inserts _ rfl
  rw [cancel_timely time'] at failed
  have ended := holds (self.cut time) early
  rw [failed] at ended
  exact cut_changed found after.events ended

end

/-- The cancellation is refused at once or can be done as a whole. -/
def Cancellable (self : Param α) (time : α) (hold : Bool) : Prop :=
  hold = true → timely time = true →
    match self.interrupted time with
    | some kind => settable (self.value time) = true ∧
        (kind = .exponential → ¬ self.value time ≤ 0) ∧
        (self.remaining time).length + 2 ≤ automationEvents
    | none => settable (self.value time) = true ∨
        self.remaining time = self.events ∧ automationEvents ≤ self.events.length + 1

theorem cancel_plain_iff (within : self.events.length ≤ automationEvents)
    (time' : timely time = true) (found : self.interrupted time = none) :
    ((∀ error after, cancel time true self = .error error after → after.events = self.events) ∧
      (true = true → (self.remaining time).length < automationEvents - 1 →
        ∃ after, cancel time true self = .ok () after)) ↔ self.Cancellable time true := by
  have condition : self.Cancellable time true ↔ settable (self.value time) = true ∨
      self.remaining time = self.events ∧ automationEvents ≤ self.events.length + 1 := by
    simp [Cancellable, time', found]
  have shorter : (self.remaining time).length ≤ self.events.length := length_filter_le _ _
  have ran : cancel time true self =
      insert { kind := .set, time, value := self.value time, timeConstant := 0 }
        (self.cut time) := by
    rw [cancel_timely time', found]
    rfl
  rw [condition, ran, insert_fails_iff, refused_set time']
  cases settable' : settable (self.value time) with
  | true =>
    refine iff_of_true ⟨fun error after failed => ?_, fun _ room => ⟨rfl, ?_⟩⟩ (.inl rfl)
    · rw [insert_run, refused_set time', settable', if_neg (by decide)] at failed
      split_ifs at failed with full
      injection failed with _ same
      rw [← same]
      change self.remaining time = self.events
      refine List.Sublist.eq_of_length_le filter_sublist ?_
      change (self.remaining time).length = _ at full
      omega
    · change (self.remaining time).length ≠ _
      omega
  | false =>
    have failed : insert { kind := .set, time, value := self.value time, timeConstant := 0 }
        (self.cut time) = .error "RangeError: invalid audio automation event" (self.cut time) := by
      rw [insert_run, refused_set time', settable', if_pos (by decide)]
    rw [failed]
    refine ⟨fun ⟨unchanged, room⟩ => .inr ?_, fun known => ?_⟩
    · have same : self.remaining time = self.events := unchanged _ _ rfl
      refine ⟨same, ?_⟩
      by_contra small
      have := (room rfl (by rw [same]; omega)).1
      contradiction
    · obtain ⟨same, full⟩ := known.resolve_left (by decide)
      refine ⟨fun error after thrown => ?_, fun _ room => ?_⟩
      · injection thrown with _ reached
        rw [← reached]
        exact same
      · rw [same] at room
        omega

end

/-- An exponential ramp up from nothing. -/
def rising : Param ℝ where
  default := 0
  events := [{ kind := .exponential, time := 1, value := 1, timeConstant := 0 }]

end Param
end
end Chuzz.Audio
