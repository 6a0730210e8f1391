import Chuzz.Library.Transition

/-! One capture track: its native status, its entry in the host's registry and its object in the
page. A pass of the host looks at the status up to three times, and other threads may change it
between any two of the loads. -/
namespace Chuzz.Media
open Library.Transition

structure Status where
  enabled : Bool
  muted : Bool
  ended : Bool
deriving DecidableEq, Repr

/-- What other threads do to the source of a track. -/
inductive Change
  | mute (muted : Bool)
  | finish
deriving DecidableEq, Repr

/-- The changes that precede a reading of the status, and those that fall between its loads. -/
structure Moment where
  preceding : List Change := []
  between : List Change := []
deriving DecidableEq, Repr

namespace Status

def change (status : Status) : Change → Status
  | .mute muted => { status with muted }
  | .finish => { status with ended := true }

def after (status : Status) (changes : List Change) : Status := changes.foldl change status

/-- `Track::status`, which loads `muted` first and then whether the track is stopped, with the
native status it leaves. -/
def read (native : Status) (moment : Moment) : Status × Status :=
  let first := native.after moment.preceding
  let second := first.after moment.between
  ({ first with ended := second.ended }, second)

theorem after_enabled (status : Status) (changes : List Change) :
    (status.after changes).enabled = status.enabled := by
  induction changes generalizing status with
  | nil => rfl
  | cons change rest ih =>
    apply (ih (status.change change)).trans
    cases change <;> rfl

theorem after_ended (status : Status) (changes : List Change) (ended : status.ended = true) :
    (status.after changes).ended = true := by
  induction changes generalizing status with
  | nil => exact ended
  | cons change rest ih =>
    apply ih (status.change change)
    cases change with
    | mute => exact ended
    | finish => rfl

@[simp] theorem read_enabled (native : Status) (moment : Moment) :
    (native.read moment).1.enabled = native.enabled := after_enabled ..

@[simp] theorem read_native_enabled (native : Status) (moment : Moment) :
    (native.read moment).2.enabled = native.enabled :=
  (after_enabled ..).trans (after_enabled ..)

theorem read_native_ended (native : Status) (moment : Moment) (ended : native.ended = true) :
    (native.read moment).2.ended = true :=
  after_ended _ _ (after_ended _ _ ended)

@[simp] theorem read_quiet (native : Status) : native.read {} = (native, native) := rfl

end Status

/-- When one pass reads the status of the track. -/
structure Pass where
  compared : Moment := {}
  described : Moment := {}
  remembered : Moment := {}
deriving DecidableEq, Repr

/-- What one pass reads, and the native status it leaves. -/
structure Readings where
  compared : Status
  described : Option Status
  remembered : Status
  native : Status
deriving DecidableEq, Repr

def readings (native : Status) (published : Option Status) (pass : Pass) : Readings :=
  let (compared, native) := native.read pass.compared
  if published = some compared then
    let (remembered, native) := native.read pass.remembered
    ⟨compared, none, remembered, native⟩
  else
    let (described, native) := native.read pass.described
    let (remembered, native) := native.read pass.remembered
    ⟨compared, some described, remembered, native⟩

inductive Event
  | mute
  | unmute
  | ended
deriving DecidableEq, Repr

structure Capture where
  native : Status
  /-- The host has the track among its `tracks`. -/
  kept : Bool := true
  published : Option Status
  /-- `state.data` of the page's track. -/
  data : Status
  /-- The page has the track among its `liveTracks`. -/
  listed : Bool := true
  /-- A `stop()` of the page found the track live. -/
  stopped : Bool := false
  queued : List Event := []
  fired : List Event := []
  /-- Whether `state.data` was ended, from the track's construction on. -/
  history : List Bool
deriving DecidableEq, Repr

inductive Label
  | change (change : Change)
  | updates (pass : Pass)
  /-- `getSettings`, or `applyConstraints` with whether the host accepts the constraints. -/
  | ask (accepted : Bool) (reply : Moment) (pass : Pass)
  | setEnabled (value : Bool) (pass : Pass)
  | stop
  | deliver
deriving DecidableEq, Repr

namespace Capture

/-- The page's track as it is constructed, after the pass of the call that made it. -/
def opened (enabled muted : Bool) : Capture :=
  let status := ⟨enabled, muted, false⟩
  { native := status, published := some status, data := status, history := [false] }

def assign (capture : Capture) (data : Status) : Capture :=
  { capture with data, history := capture.history ++ [data.ended] }

def remember (capture : Capture) (seen : Readings) : Capture :=
  { capture with
    native := seen.native
    kept := !seen.compared.ended
    published := if seen.compared.ended then none else some seen.remembered }

/-- `Host::updates`, with the descriptor it has for the track. -/
def updates (capture : Capture) (pass : Pass) : Option Status × Capture :=
  if capture.kept then
    let seen := readings capture.native capture.published pass
    (seen.described, capture.remember seen)
  else (none, capture)

/-- `update`, the page's part. -/
def update (capture : Capture) : Option Status → Capture
  | none => capture
  | some descriptor =>
    if capture.listed then
      let previous := capture.data
      let capture := capture.assign descriptor
      if !previous.ended && descriptor.ended then
        { capture with listed := false, queued := capture.queued ++ [.ended] }
      else if !descriptor.ended && previous.muted != descriptor.muted then
        { capture with
          queued := capture.queued ++ [if descriptor.muted then .mute else .unmute] }
      else capture
    else capture

def pass (capture : Capture) (pass : Pass) : Capture :=
  let (descriptor, capture) := capture.updates pass
  capture.update descriptor

/-- The descriptor of the reply is read first, the pass is delivered next, and then the reply
takes the place of `state.data`. -/
def ask (capture : Capture) (accepted : Bool) (reply : Moment) (pass : Pass) : Capture :=
  if capture.data.ended then capture
  else if capture.kept && accepted then
    let (value, native) := capture.native.read reply
    ({ capture with native }.pass pass).assign value
  else capture.pass pass

def setEnabled (capture : Capture) (value : Bool) (pass : Pass) : Capture :=
  if capture.data.ended then { capture with data := { capture.data with enabled := value } }
  else if capture.kept then
    let called :=
      { capture with native := { capture.native with enabled := value } }.pass pass
    { called with data := { called.data with enabled := value } }
  else capture

def stop (capture : Capture) : Capture :=
  if capture.data.ended then capture
  else
    let capture := { capture.assign { capture.data with ended := true } with
      listed := false
      stopped := true }
    if capture.kept then { capture with
      native := { capture.native with ended := true }
      kept := false
      published := none }
    else capture

def deliver (capture : Capture) : Capture :=
  match capture.queued with
  | [] => capture
  | event :: rest => { capture with queued := rest, fired := capture.fired ++ [event] }

def perform (capture : Capture) : Label → Capture
  | .change change => { capture with native := capture.native.change change }
  | .updates pass => capture.pass pass
  | .ask accepted reply pass => capture.ask accepted reply pass
  | .setEnabled value pass => capture.setEnabled value pass
  | .stop => capture.stop
  | .deliver => capture.deliver

/-- One more pass while nothing changes, and then every event that is queued. -/
def settled (capture : Capture) : Capture :=
  let told := capture.pass {}
  (List.replicate told.queued.length Label.deliver).foldl perform told

/-- The number of `ended` events, delivered or on their way. -/
def endings (capture : Capture) : Nat := (capture.fired ++ capture.queued).count .ended

/-- What the page sees of the track is what became of it. -/
structure Faithful (capture : Capture) : Prop where
  onward : capture.history.Pairwise fun earlier later => earlier = true → later = true
  current : capture.history.getLast? = some capture.data.ended
  once : capture.endings = if capture.data.ended && !capture.stopped then 1 else 0
  ready : capture.settled.data.ended = capture.native.ended
  muted : capture.native.ended = false → capture.settled.data.muted = capture.native.muted
  told : capture.settled.fired.count .ended =
    if capture.native.ended && !capture.stopped then 1 else 0

/-- A pass remembers the status that it has just reported, unless it lets go of the track. -/
def Told (capture : Capture) (pass : Pass) : Prop :=
  let seen := readings capture.native capture.published pass
  capture.kept = true → seen.compared.ended = true ∨
    seen.remembered = seen.described.getD seen.compared

/-- The pass in a call remembers the status of the reply, unless both have the track ended. -/
def Answered (capture : Capture) (reply : Moment) (pass : Pass) : Prop :=
  let (value, native) := capture.native.read reply
  let seen := readings native capture.published pass
  (seen.compared.ended = true ∧ value.ended = true) ∨ seen.remembered = value

def Timely (capture : Capture) : Label → Prop
  | .updates pass => capture.Told pass
  | .setEnabled value pass =>
    { capture with native := { capture.native with enabled := value } }.Told pass
  | .ask accepted reply pass =>
    if capture.data.ended then True
    else if capture.kept && accepted then capture.Answered reply pass
    else capture.Told pass
  | .change _ | .stop | .deliver => True

end Capture
end Chuzz.Media
