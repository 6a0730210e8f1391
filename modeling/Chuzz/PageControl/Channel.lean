import Chuzz.Library.Transition

/-! The channel that carries control requests to the page, one atomic operation of a thread
at a time. The receiver looks at the queue before it looks whether the sender is there, so a
sender that sends and goes between the two looks makes it report a queue with a request in it
as disconnected; in every other run nothing is lost, doubled or slept over. -/
namespace Chuzz.PageControl
open Library.Transition

/-- One permit for the next waiter, and the waiter, if one is registered, with whether it has
been notified. -/
structure Notify where
  permit : Bool := false
  waiter : Option Bool := none
deriving DecidableEq, Repr

namespace Notify

def notifyOne (notify : Notify) : Notify :=
  match notify.waiter with
  | some false => { notify with waiter := some true }
  | _ => { notify with permit := true }

/-- `Notified::enable`: takes the permit or registers. -/
def enable (notify : Notify) : Bool × Notify :=
  if notify.permit then (true, { notify with permit := false })
  else (false, { notify with waiter := some false })

/-- The future is dropped. A notification it had not seen may go back to the permit. -/
def drop (notify : Notify) (forwards : Bool) : Notify :=
  { permit := notify.permit || (notify.waiter == some true && forwards), waiter := none }

end Notify

/-- Where the next operation of `receive` stands; `enabled` is what `enable` returned. -/
inductive Stage
  | enable
  | pop (enabled : Bool)
  | check (enabled : Bool)
  | swap (enabled : Bool)
  | await
deriving DecidableEq, Repr

inductive Consumer
  | idle
  | receiving (timed : Bool) (stage : Stage)
  | trying (popped : Bool)
  | draining
  | gone
deriving DecidableEq, Repr

/-- `notifying`: a `try_send` has pushed and still holds the lock. `dropping`: the sender has
cleared `producer_open`, and its notification is still to come. -/
inductive Producer
  | idle
  | notifying
  | dropping
  | gone
deriving DecidableEq, Repr

variable {Request : Type}

structure Channel (Request : Type) where
  capacity : Nat
  queue : List Request := []
  producerOpen : Bool := true
  consumerOpen : Bool := true
  page : Bool := false
  notify : Notify := {}
  producer : Producer := .idle
  /-- Document wakes that have set `page` and not yet notified. -/
  waking : Nat := 0
  consumer : Consumer := .idle
  accepted : List Request := []
  received : List Request := []
  abandoned : List Request := []
  /-- The queue at each report of `Disconnected`. -/
  disconnects : List (List Request) := []
deriving DecidableEq, Repr

inductive TrySendError
  | full
  | disconnected
deriving DecidableEq, Repr

inductive Label (Request : Type)
  | trySend (request : Request)
  | notifySent
  | dropSender
  | notifyDropped
  | wake
  | notifyWake
  | receive (timed : Bool)
  | tryRecv
  /-- The next operation of the call the receiver is in. -/
  | proceed (forwards : Bool)
  | timeout (forwards : Bool)
  | dropReceiver

namespace Channel

/-- `Sender::try_send` up to its push, under the lock. -/
def trySend (channel : Channel Request) (request : Request) :
    Except TrySendError (Channel Request) :=
  if !channel.consumerOpen then .error .disconnected
  else if channel.queue.length ≥ channel.capacity then .error .full
  else .ok { channel with
    queue := channel.queue ++ [request]
    accepted := channel.accepted ++ [request]
    producer := .notifying }

/-- A call of the receiver returns, and with it goes the future it waited on. -/
def finish (channel : Channel Request) (forwards : Bool) : Channel Request :=
  { channel with consumer := .idle, notify := channel.notify.drop forwards }

def pop (channel : Channel Request) : Option (Request × Channel Request) :=
  match channel.queue with
  | [] => none
  | request :: rest => some (request, { channel with queue := rest })

/-- The receiver sees whether the sender is still there, once the lock is free. -/
def check (channel : Channel Request) (forwards : Bool) (next : Consumer) : Channel Request :=
  if channel.producer = .notifying then channel
  else if channel.producerOpen then { channel with consumer := next }
  else { channel.finish forwards with disconnects := channel.disconnects ++ [channel.queue] }

def receive (channel : Channel Request) (timed : Bool) (forwards : Bool) :
    Stage → Channel Request
  | .enable =>
    let (enabled, notify) := channel.notify.enable
    { channel with notify, consumer := .receiving timed (.pop enabled) }
  | .pop enabled =>
    match channel.pop with
    | some (request, channel) =>
      { channel.finish forwards with received := channel.received ++ [request] }
    | none => { channel with consumer := .receiving timed (.check enabled) }
  | .check enabled => channel.check forwards (.receiving timed (.swap enabled))
  | .swap enabled =>
    if channel.page then { channel.finish forwards with page := false }
    else if enabled then { channel with consumer := .receiving timed .enable }
    else { channel with consumer := .receiving timed .await }
  | .await =>
    if channel.notify.waiter = some true then
      { channel with
        notify := { channel.notify with waiter := none }
        consumer := .receiving timed .enable }
    else channel

def proceed (channel : Channel Request) (forwards : Bool) : Channel Request :=
  match channel.consumer with
  | .receiving timed stage => channel.receive timed forwards stage
  | .trying false =>
    match channel.pop with
    | some (request, channel) =>
      { channel.finish forwards with received := channel.received ++ [request] }
    | none => { channel with consumer := .trying true }
  | .trying true => channel.check forwards .idle
  | .draining =>
    match channel.pop with
    | some (request, channel) => { channel with abandoned := channel.abandoned ++ [request] }
    | none => { channel with consumer := .gone }
  | .idle | .gone => channel

/-- A label that no thread is ready for changes nothing. -/
def perform (channel : Channel Request) : Label Request → Channel Request
  | .trySend request =>
    if channel.producer = .idle then
      match channel.trySend request with
      | .ok channel => channel
      | .error _ => channel
    else channel
  | .notifySent =>
    if channel.producer = .notifying then
      { channel with notify := channel.notify.notifyOne, producer := .idle }
    else channel
  | .dropSender =>
    if channel.producer = .idle then
      { channel with producerOpen := false, producer := .dropping }
    else channel
  | .notifyDropped =>
    if channel.producer = .dropping then
      { channel with notify := channel.notify.notifyOne, producer := .gone }
    else channel
  | .wake => { channel with page := true, waking := channel.waking + 1 }
  | .notifyWake =>
    if channel.waking = 0 then channel
    else { channel with notify := channel.notify.notifyOne, waking := channel.waking - 1 }
  | .receive timed =>
    if channel.consumer = .idle then { channel with consumer := .receiving timed .enable }
    else channel
  | .tryRecv =>
    if channel.consumer = .idle then { channel with consumer := .trying false } else channel
  | .proceed forwards => channel.proceed forwards
  | .timeout forwards =>
    if channel.consumer = .receiving true .await then channel.finish forwards else channel
  | .dropReceiver =>
    if channel.consumer = .idle ∧ channel.producer ≠ .notifying then
      { channel with consumerOpen := false, consumer := .draining }
    else channel

/-- The receiver has found the queue empty and not yet looked for the sender. -/
def looking (channel : Channel Request) : Bool :=
  match channel.consumer with
  | .receiving _ (.check _) => true
  | .trying true => true
  | _ => false

/-- The sender does not go, leaving a request, between the two looks of the receiver. -/
def Steady (channel : Channel Request) (label : Label Request) : Prop :=
  match label with
  | .dropSender => channel.looking = true → channel.queue = []
  | _ => True

instance (channel : Channel Request) (label : Label Request) [DecidableEq Request] :
    Decidable (channel.Steady label) :=
  match label with
  | .dropSender => inferInstanceAs (Decidable (_ → _))
  | .trySend _ | .notifySent | .notifyDropped | .wake | .notifyWake | .receive _ | .tryRecv
  | .proceed _ | .timeout _ | .dropReceiver => inferInstanceAs (Decidable True)

abbrev Reached (capacity : Nat) : Channel Request → Prop :=
  Reachable (· = { capacity }) fun before label after => before.perform label = after

abbrev ReachedSteadily (capacity : Nat) : Channel Request → Prop :=
  Reachable (· = { capacity })
    (restrict (fun before label after => before.perform label = after) Steady)

/-- The receiver waits unnotified, and no thread is about to notify it. -/
def Asleep (channel : Channel Request) : Prop :=
  (∃ timed, channel.consumer = .receiving timed .await) ∧ channel.notify.waiter ≠ some true ∧
    channel.producer ≠ .notifying ∧ channel.producer ≠ .dropping ∧ channel.waking = 0

/-- What the channel owes the callers at its two ends. -/
structure Delivers (channel : Channel Request) : Prop where
  /-- Each accepted request is, in order, received, abandoned or still queued. -/
  once : channel.accepted = channel.received ++ channel.abandoned ++ channel.queue
  dropped : channel.abandoned ≠ [] → channel.consumerOpen = false
  settled : channel.consumer = .gone → channel.queue = []
  disconnects : ∀ queued ∈ channel.disconnects, queued = []
  woken : channel.Asleep →
    channel.queue = [] ∧ channel.page = false ∧ channel.producerOpen = true

end Channel

namespace Stage

/-- Whether the receiver's future is registered from here on. -/
def registered : Stage → Bool
  | enable => false
  | pop enabled | check enabled | swap enabled => !enabled
  | await => true

/-- Which of the three looks at the channel lie behind. -/
def popped : Stage → Bool
  | enable | pop _ => false
  | check _ | swap _ | await => true

def checked : Stage → Bool
  | enable | pop _ | check _ => false
  | swap _ | await => true

end Stage

namespace Channel

/-- Between its looks and its sleep: what a look has ruled out can only have come about since
by a thread that has not notified yet. -/
structure Watches (channel : Channel Request) (stage : Stage) : Prop where
  registered : stage.registered = true → channel.notify.waiter ≠ none
  queue : stage.popped = true → channel.notify.waiter = some false → channel.queue ≠ [] →
    channel.producer = .notifying
  sender : stage.checked = true → channel.notify.waiter = some false →
    channel.producerOpen = false → channel.producer = .dropping
  page : stage = .await → channel.notify.waiter = some false → channel.page = true →
    0 < channel.waking

structure Sound (channel : Channel Request) : Prop where
  once : channel.accepted = channel.received ++ channel.abandoned ++ channel.queue
  kept : channel.consumerOpen = true → channel.abandoned = []
  closed : channel.consumerOpen = false ↔ channel.consumer = .draining ∨ channel.consumer = .gone
  settled : channel.consumer = .gone → channel.queue = []
  ended : channel.producerOpen = false ↔ channel.producer = .dropping ∨ channel.producer = .gone
  disconnects : ∀ queued ∈ channel.disconnects, queued = []
  looks : channel.looking = true → channel.producerOpen = false → channel.queue = []
  watches : ∀ timed stage, channel.consumer = .receiving timed stage → channel.Watches stage

variable {channel : Channel Request}

theorem Sound.delivers (sound : channel.Sound) : channel.Delivers := by
  have dropped : channel.abandoned ≠ [] → channel.consumerOpen = false := by
    intro some
    by_contra open_
    exact some (sound.kept (by simpa using open_))
  refine ⟨sound.once, dropped, sound.settled, sound.disconnects, ?_⟩
  rintro ⟨⟨timed, waiting⟩, unnotified, sent, going, quiet⟩
  have watches := sound.watches timed .await waiting
  have waiter : channel.notify.waiter = some false := by
    rcases none : channel.notify.waiter with _ | _ | _
    · exact absurd none (watches.registered rfl)
    · rfl
    · exact absurd none unnotified
  refine ⟨?_, ?_, ?_⟩
  · by_contra queued
    exact sent (watches.queue rfl waiter queued)
  · by_contra page
    have := watches.page rfl waiter (by simpa using page)
    omega
  · by_contra closed
    exact going (watches.sender rfl waiter (by simpa using closed))

theorem Notify.waiter_notifyOne (notify : Notify) :
    notify.notifyOne.waiter = some true ∨ notify.notifyOne.waiter = none ∧ notify.waiter = none := by
  unfold Notify.notifyOne
  rcases same : notify.waiter with _ | _ | _ <;> simp

variable {after : Channel Request} {request : Request}

/-- Once it is notified, the receiver will look again whatever else has changed. -/
theorem Watches.notified {stage : Stage} (watches : channel.Watches stage)
    (notified : after.notify = channel.notify.notifyOne) : after.Watches stage := by
  rcases Notify.waiter_notifyOne channel.notify with woken | ⟨none, before⟩
  · constructor <;> simp [notified, woken]
  · constructor
    · intro registered
      exact absurd before (watches.registered registered)
    all_goals simp [notified, none]

section
variable (sound : channel.Sound)
include sound

theorem Sound.trySend (idle : channel.producer = .idle)
    (sent : channel.trySend request = .ok after) : after.Sound := by
  have there : channel.producerOpen = true := by
    by_contra closed
    have := sound.ended.mp (by simpa using closed)
    simp [idle] at this
  unfold Channel.trySend at sent
  split at sent
  · cases sent
  rename_i unclosed
  split at sent
  · cases sent
  · cases sent
    have open_ : channel.consumerOpen = true := by simpa using unclosed
    constructor
    · simp [sound.once, sound.kept open_]
    · exact sound.kept
    · exact sound.closed
    · intro gone
      have := sound.closed.mpr (.inr gone)
      simp [open_] at this
    · simp [there]
    · exact sound.disconnects
    · simp [there]
    · intro timed stage receiving
      have watches := sound.watches timed stage receiving
      exact ⟨watches.registered, fun _ _ _ => rfl, fun _ _ closed => by simp [there] at closed,
        watches.page⟩

theorem Sound.notified (same : after = { channel with
      notify := channel.notify.notifyOne, producer := after.producer, waking := after.waking })
    (ended : after.producerOpen = false ↔ after.producer = .dropping ∨ after.producer = .gone) :
    after.Sound := by
  rw [same]
  rw [same] at ended
  exact ⟨sound.once, sound.kept, sound.closed, sound.settled, ended, sound.disconnects,
    sound.looks, fun timed stage receiving =>
      (sound.watches timed stage receiving).notified rfl⟩

theorem Sound.dropSender (idle : channel.producer = .idle)
    (steady : channel.looking = true → channel.queue = []) :
    ({ channel with producerOpen := false, producer := .dropping } : Channel Request).Sound := by
  constructor
  · exact sound.once
  · exact sound.kept
  · exact sound.closed
  · exact sound.settled
  · simp
  · exact sound.disconnects
  · exact fun looking _ => steady looking
  · intro timed stage receiving
    have watches := sound.watches timed stage receiving
    refine ⟨watches.registered, fun popped waiter queued => ?_, fun _ _ _ => rfl, watches.page⟩
    exact absurd (watches.queue popped waiter queued) (by simp [idle])

theorem Sound.wake :
    ({ channel with page := true, waking := channel.waking + 1 } : Channel Request).Sound := by
  refine ⟨sound.once, sound.kept, sound.closed, sound.settled, sound.ended,
    sound.disconnects, sound.looks, ?_⟩
  intro timed stage receiving
  have watches := sound.watches timed stage receiving
  exact ⟨watches.registered, watches.queue, watches.sender, fun _ _ _ => Nat.succ_pos _⟩

theorem Sound.calls (open_ : channel.consumerOpen = true)
    {consumer : Consumer} {page : Bool} {notify : Notify}
    (same : after = { channel with consumer, page, notify })
    (running : consumer ≠ .draining ∧ consumer ≠ .gone) (unlooked : after.looking = false)
    (watches : ∀ timed stage, consumer = .receiving timed stage → after.Watches stage) :
    after.Sound := by
  subst same
  constructor
  · exact sound.once
  · exact sound.kept
  · simp [open_, running]
  · exact fun gone => absurd gone running.2
  · exact sound.ended
  · exact sound.disconnects
  · simp [unlooked]
  · exact watches

theorem Sound.finish (open_ : channel.consumerOpen = true)
    (forwards : Bool) : (channel.finish forwards).Sound :=
  sound.calls open_ rfl (by simp) rfl (by simp)

end

theorem pop_some (popped : channel.pop = some (request, after)) :
    channel.queue = request :: after.queue ∧ after = { channel with queue := after.queue } := by
  unfold Channel.pop at popped
  split at popped
  · cases popped
  · cases popped
    exact ⟨by assumption, rfl⟩

theorem pop_none (none : channel.pop = none) : channel.queue = [] := by
  unfold Channel.pop at none
  split at none
  · assumption
  · cases none

section
variable (sound : channel.Sound)
include sound

theorem Sound.received (open_ : channel.consumerOpen = true)
    (popped : channel.pop = some (request, after)) (forwards : Bool) :
    ({ after.finish forwards with received := after.received ++ [request] } :
      Channel Request).Sound := by
  obtain ⟨queue, same⟩ := pop_some popped
  have once := sound.once
  rw [sound.kept open_, queue] at once
  rw [same]
  constructor
  · simp [Channel.finish, sound.kept open_, once]
  · exact sound.kept
  · simp [Channel.finish, open_]
  · simp [Channel.finish]
  · exact sound.ended
  · exact sound.disconnects
  · simp [looking, Channel.finish]
  · simp [Channel.finish]

theorem Sound.abandoned (draining : channel.consumer = .draining)
    (popped : channel.pop = some (request, after)) :
    ({ after with abandoned := after.abandoned ++ [request] } : Channel Request).Sound := by
  obtain ⟨queue, same⟩ := pop_some popped
  have once := sound.once
  have closed := sound.closed.mpr (.inl draining)
  rw [queue] at once
  rw [same]
  constructor
  · simp [once]
  · simp [closed]
  · exact sound.closed
  · simp [draining]
  · exact sound.ended
  · exact sound.disconnects
  · simp [looking, draining]
  · simp [draining]

theorem Sound.drained (draining : channel.consumer = .draining) (nothing : channel.pop = none) :
    ({ channel with consumer := .gone } : Channel Request).Sound := by
  have closed := sound.closed.mpr (.inl draining)
  have queue := pop_none nothing
  constructor
  · exact sound.once
  · exact sound.kept
  · simp [closed]
  · exact fun _ => queue
  · exact sound.ended
  · exact sound.disconnects
  · simp [looking]
  · simp

/-- The queue was empty, so the receiver goes on to look for the sender. -/
theorem Sound.empty (open_ : channel.consumerOpen = true)
    (nothing : channel.pop = none) {consumer : Consumer}
    (running : consumer ≠ .draining ∧ consumer ≠ .gone)
    (watches : ∀ timed stage, consumer = .receiving timed stage →
      stage.checked = false ∧ (stage.registered = true → channel.notify.waiter ≠ none)) :
    ({ channel with consumer } : Channel Request).Sound := by
  have queue := pop_none nothing
  constructor
  · exact sound.once
  · exact sound.kept
  · simp [open_, running]
  · exact fun _ => queue
  · exact sound.ended
  · exact sound.disconnects
  · exact fun _ _ => queue
  · intro timed stage receiving
    obtain ⟨unchecked, registered⟩ := watches timed stage receiving
    refine ⟨registered, fun _ _ queued => absurd queue queued, ?_, ?_⟩
    · simp [unchecked]
    · rintro rfl
      cases unchecked

theorem Sound.check (open_ : channel.consumerOpen = true)
    (looking_ : channel.looking = true) (forwards : Bool) {next : Consumer}
    (running : next ≠ .draining ∧ next ≠ .gone)
    (unlooked : ({ channel with consumer := next } : Channel Request).looking = false)
    (watches : channel.producerOpen = true → ∀ timed stage, next = .receiving timed stage →
      ({ channel with consumer := next } : Channel Request).Watches stage) :
    (channel.check forwards next).Sound := by
  unfold Channel.check
  split
  · exact sound
  split
  · rename_i there
    exact sound.calls open_ rfl running unlooked (watches there)
  · rename_i closed
    have queue := sound.looks looking_ (by simpa using closed)
    have finished := sound.finish open_ forwards
    refine ⟨finished.once, finished.kept, finished.closed, finished.settled, finished.ended, ?_,
      finished.looks, by simp [Channel.finish]⟩
    intro queued member
    rcases List.mem_append.mp member with old | new
    · exact sound.disconnects queued old
    · rw [List.mem_singleton.mp new, queue]

theorem Sound.running (calls : channel.consumer ≠ .draining ∧ channel.consumer ≠ .gone) :
    channel.consumerOpen = true := by
  by_contra closed
  rcases sound.closed.mp (by simpa using closed) with draining | gone
  · exact calls.1 draining
  · exact calls.2 gone

theorem Sound.receive {timed : Bool} {stage : Stage}
    (receiving : channel.consumer = .receiving timed stage) (forwards : Bool) :
    (channel.receive timed forwards stage).Sound := by
  have open_ := sound.running (by simp [receiving])
  have watches := sound.watches timed stage receiving
  cases stage with
  | enable =>
    have registers : channel.notify.enable.1 = false → channel.notify.enable.2.waiter ≠ none := by
      unfold Notify.enable
      split <;> simp
    have same : channel.receive timed forwards .enable = { channel with
      consumer := .receiving timed (.pop channel.notify.enable.1), page := channel.page
      notify := channel.notify.enable.2 } := rfl
    refine sound.calls open_ same (by simp) rfl ?_
    rintro _ _ ⟨⟩
    constructor
    · intro registered
      exact registers (by simpa [Stage.registered] using registered)
    all_goals simp [Stage.popped, Stage.checked]
  | pop enabled =>
    rw [Channel.receive]
    split
    next popped => exact sound.received open_ popped forwards
    next none =>
      refine sound.empty open_ none (by simp) ?_
      rintro _ _ ⟨⟩
      exact ⟨rfl, watches.registered⟩
  | check enabled =>
    refine sound.check open_ (by simp [looking, receiving]) forwards (by simp) rfl ?_
    rintro there _ _ ⟨⟩
    exact ⟨watches.registered, fun _ => watches.queue rfl, by simp [there], by simp⟩
  | swap enabled =>
    rw [Channel.receive]
    split
    · have same : { channel.finish forwards with page := false } = { channel with
        consumer := .idle, page := false, notify := channel.notify.drop forwards } := rfl
      exact sound.calls open_ same (by simp) rfl (by simp)
    rename_i quiet
    split
    · refine sound.calls open_ rfl (by simp) rfl ?_
      rintro _ _ ⟨⟩
      constructor <;> simp [Stage.registered, Stage.popped, Stage.checked]
    · rename_i registered
      refine sound.calls open_ rfl (by simp) rfl ?_
      rintro _ _ ⟨⟩
      exact ⟨fun _ => watches.registered (by simpa [Stage.registered] using registered),
        fun _ => watches.queue rfl, fun _ => watches.sender rfl, by simp [quiet]⟩
  | await =>
    rw [Channel.receive]
    split
    · refine sound.calls open_ rfl (by simp) rfl ?_
      rintro _ _ ⟨⟩
      constructor <;> simp [Stage.registered, Stage.popped, Stage.checked]
    · exact sound

theorem Sound.proceed (forwards : Bool) : (channel.proceed forwards).Sound := by
  unfold Channel.proceed
  split
  next timed stage receiving => exact sound.receive receiving forwards
  next trying =>
    have open_ := sound.running (by simp [trying])
    split
    next popped => exact sound.received open_ popped forwards
    next none => exact sound.empty open_ none (by simp) (by simp)
  next trying =>
    have open_ := sound.running (by simp [trying])
    exact sound.check open_ (by simp [looking, trying]) forwards (by simp) rfl (by simp)
  next draining =>
    split
    next popped => exact sound.abandoned draining popped
    next none => exact sound.drained draining none
  next => exact sound
  next => exact sound

theorem Sound.perform (label : Label Request)
    (steady : channel.Steady label) : (channel.perform label).Sound := by
  cases label with
  | trySend request =>
    rw [Channel.perform]
    split
    · rename_i idle
      split
      next sent => exact sound.trySend idle sent
      next => exact sound
    · exact sound
  | notifySent =>
    rw [Channel.perform]
    split
    · rename_i notifying
      exact sound.notified rfl (by simpa [notifying] using sound.ended)
    · exact sound
  | dropSender =>
    rw [Channel.perform]
    split
    · rename_i idle
      exact sound.dropSender idle steady
    · exact sound
  | notifyDropped =>
    rw [Channel.perform]
    split
    · rename_i dropping
      exact sound.notified rfl (by simpa [dropping] using sound.ended)
    · exact sound
  | wake => exact sound.wake
  | notifyWake =>
    rw [Channel.perform]
    split
    · exact sound
    · exact sound.notified rfl sound.ended
  | receive timed =>
    rw [Channel.perform]
    split
    · rename_i idle
      refine sound.calls (sound.running (by simp [idle])) rfl (by simp) rfl ?_
      rintro _ _ ⟨⟩
      constructor <;> simp [Stage.registered, Stage.popped, Stage.checked]
    · exact sound
  | tryRecv =>
    rw [Channel.perform]
    split
    · rename_i idle
      exact sound.calls (sound.running (by simp [idle])) rfl (by simp) rfl (by simp)
    · exact sound
  | proceed forwards => exact sound.proceed forwards
  | timeout forwards =>
    rw [Channel.perform]
    split
    · rename_i waiting
      exact sound.finish (sound.running (by simp [waiting])) forwards
    · exact sound
  | dropReceiver =>
    rw [Channel.perform]
    split
    · rename_i idle
      exact ⟨sound.once, by simp, by simp, by simp, sound.ended, sound.disconnects,
        by simp [looking], by simp⟩
    · exact sound

end

theorem start_sound (capacity : Nat) : ({ capacity } : Channel Request).Sound :=
  ⟨rfl, fun _ => rfl, by simp, by simp, by simp, by simp, by simp [looking], by simp⟩

end Channel

/-- However the threads at the two ends interleave, every accepted request is received once
and in order or, the receiver dropped, abandoned; a report that the sender is gone leaves no
request behind; and a receiver that nobody is about to wake has nothing to wake for. -/
theorem reached_delivers {capacity : Nat} {channel : Channel Request}
    (reached : Channel.ReachedSteadily capacity channel) : channel.Delivers := by
  apply Channel.Sound.delivers
  apply Reachable.invariant _ _ reached
  · rintro _ rfl
    exact Channel.start_sound capacity
  · rintro before label _ _ sound ⟨rfl, steady⟩
    exact sound.perform label steady

/-- The receiver falls asleep, is woken by a request and by the document, and is then dropped
with a second request in its queue. -/
def sampleLabels : List (Label Nat) :=
  [.receive true, .proceed true, .proceed true, .proceed true, .proceed true, .trySend 7, .wake,
    .notifySent, .proceed true, .proceed true, .proceed true, .notifyWake, .tryRecv,
    .proceed true, .proceed true, .trySend 8, .notifySent, .dropSender, .dropReceiver,
    .notifyDropped, .proceed true, .proceed true]

def sampleChannel : Channel Nat := sampleLabels.foldl Channel.perform { capacity := 4 }

theorem reached_delivers_dropped : sampleChannel.Delivers ∧ sampleChannel.consumer = .gone ∧
    sampleChannel.received = [7] ∧ sampleChannel.abandoned = [8] := by
  have meets : Meets Channel.perform Channel.Steady { capacity := 4 } sampleLabels := by decide
  exact ⟨reached_delivers (Reachable.run_meeting sampleLabels (.start rfl) meets), by decide,
    by decide, by decide⟩

/-- Between the receiver's two looks a request is accepted and the sender goes. -/
def crossedLabels : List (Label Nat) :=
  [.receive false, .proceed true, .proceed true, .trySend 7, .notifySent, .dropSender,
    .proceed true]

def crossedChannel : Channel Nat := crossedLabels.foldl Channel.perform { capacity := 4 }

theorem not_delivers_crossed : Channel.Reached 4 crossedChannel ∧ ¬ crossedChannel.Delivers := by
  refine ⟨Reachable.run crossedLabels (.start rfl), fun delivers => ?_⟩
  have reported : [7] ∈ crossedChannel.disconnects := by decide
  exact absurd (delivers.disconnects [7] reported) (by decide)

end Chuzz.PageControl
