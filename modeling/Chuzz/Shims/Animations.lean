import Chuzz.Library.Transition

/-! One animation of an element: its play state, its frame callbacks and the inline style. Numbers
are those of an ordered field. Events are dispatched last, so that what their listeners call comes
after the call that dispatches. -/
namespace Chuzz.Animations
open Library.Transition

/-- The value of a property and its priority. A property without a value is not set. -/
abbrev Style : Type := String → Option (String × String)

structure Property (K : Type) where
  name : String
  start : K
  stop : K
  unit : String
  before : Option (String × String)

/-- What an animation is made with, and how numbers are printed. -/
structure Config (K : Type) where
  properties : List (Property K)
  duration : K
  forwards : Bool
  print : K → String

inductive PlayState where
  | idle
  | running
  | paused
  | finished
deriving DecidableEq

inductive Promise where
  | pending
  | resolved
  | rejected
deriving DecidableEq

/-- An animation with the callbacks that wait for a frame. `finishes` counts the finish events since
the animation was last played from its beginning, and `fresh` tells that no frame came since `play`. -/
structure Animation (K : Type) where
  currentTime : K
  startTime : Option K
  frame : Option Nat
  playState : PlayState
  finished : Promise
  listed : Bool
  style : Style
  callbacks : List Nat
  handles : Nat
  clock : K
  finishes : Nat
  fresh : Bool

inductive Event (K : Type) where
  | play
  | pause
  | cancel
  | finish
  | setCurrentTime (value : K)
  | frame (handle : Nat) (timestamp : K)

variable {K : Type} [Field K] [LinearOrder K] (config : Config K)

def setProperty (style : Style) (name : String) (value : Option (String × String)) : Style :=
  fun other => if other = name then value else style other

def restore (style : Style) : Style :=
  config.properties.foldl (fun style item => setProperty style item.name item.before) style

def apply (style : Style) (progress : K) : Style :=
  config.properties.foldl (fun style item => setProperty style item.name
    (some (config.print (item.start + (item.stop - item.start) * progress) ++ item.unit, ""))) style

def Config.progress (currentTime : K) : K :=
  if config.duration = 0 then 1 else min 1 (currentTime / config.duration)

/-- A promise is settled once. -/
def Promise.settle (promise outcome : Promise) : Promise :=
  if promise = .pending then outcome else promise

namespace Animation
variable (anim : Animation K)

def requestFrame : Animation K :=
  { anim with frame := some anim.handles, callbacks := anim.callbacks ++ [anim.handles],
              handles := anim.handles + 1 }

def cancelFrame : Animation K :=
  { anim with frame := none, callbacks := anim.callbacks.filter (some · ≠ anim.frame) }

/-- The end of `finish` and of the last frame. -/
def complete : Animation K :=
  { anim with playState := .finished, frame := none, listed := false,
              style := if config.forwards then anim.style else restore config anim.style,
              finished := anim.finished.settle .resolved, finishes := anim.finishes + 1 }

def tick (timestamp : K) : Animation K :=
  if anim.playState ≠ .running then anim
  else
    let startTime := anim.startTime.getD (timestamp - anim.currentTime)
    let currentTime := max 0 (timestamp - startTime)
    let progress := config.progress currentTime
    let anim := { anim with startTime := some startTime, currentTime, fresh := false,
                            style := apply config anim.style progress }
    if 1 ≤ progress then anim.complete config else anim.requestFrame

def perform : Event K → Animation K
  | .play =>
    let anim := if anim.playState = .finished ∨ anim.playState = .idle then
      { anim with finished := .pending, currentTime := 0, startTime := none, finishes := 0 } else anim
    { anim with playState := .running, listed := true, fresh := true }.requestFrame
  | .pause => if anim.playState = .running then { anim.cancelFrame with playState := .paused } else anim
  | .cancel =>
    let active := anim.playState = .running ∨ anim.playState = .paused
    { anim.cancelFrame with
        currentTime := 0, startTime := none, playState := .idle, listed := false,
        style := restore config anim.style,
        finished := if active then anim.finished.settle .rejected else anim.finished }
  | .finish =>
    { anim.cancelFrame with
        currentTime := config.duration, style := apply config anim.style 1 }.complete config
  | .setCurrentTime value =>
    { anim with
        currentTime := value
        style := if anim.playState = .running then
          apply config anim.style (max 0 (min 1 (value / max 1 config.duration))) else anim.style }
  | .frame handle timestamp =>
    { anim with callbacks := anim.callbacks.erase handle, clock := timestamp }.tick config timestamp

/-- A frame calls a callback that waits for it, and the clock does not go back. -/
def Enabled : Event K → Prop
  | .frame handle timestamp => handle ∈ anim.callbacks ∧ anim.clock ≤ timestamp
  | _ => True

def Step (before : Animation K) (event : Event K) (after : Animation K) : Prop :=
  before.Enabled event ∧ before.perform config event = after

/-- A new animation of an element with an inline style. -/
structure Begins (style : Style) : Prop where
  saved : ∀ item ∈ config.properties, item.before = style item.name
  state : anim = { anim with
    currentTime := 0, startTime := none, frame := none, playState := .idle, finished := .pending
    listed := false, style, callbacks := [], finishes := 0, fresh := false }

/-- What is asked of an animation in every state. -/
structure Right (style : Style) : Prop where
  single : anim.callbacks.length ≤ 1
  resumes : anim.fresh = true → ∀ handle timestamp, anim.Enabled (.frame handle timestamp) →
    (anim.perform config (.frame handle timestamp)).currentTime = max 0 anim.currentTime
  rests : anim.playState ≠ .running → ∀ handle timestamp,
    (anim.perform config (.frame handle timestamp)).currentTime = anim.currentTime
  once : anim.finishes ≤ 1 ∧ (anim.finished = .resolved ↔ anim.finishes = 1)
  ended : anim.playState = .finished → anim.finishes = 1
  going : anim.playState = .running ∨ anim.playState = .paused → anim.finishes = 0
  listed : anim.listed = true ↔ anim.playState = .running ∨ anim.playState = .paused
  restored : anim.playState = .idle ∨ anim.playState = .finished ∧ config.forwards = false →
    anim.style = style

/-- Only what does not run is played, and from a pause only if no frame came before it. Only what
has not ended is finished. -/
def Careful (anim : Animation K) : Event K → Prop
  | .play => anim.playState ≠ .running ∧ (anim.playState = .paused → anim.startTime = none)
  | .finish => anim.playState = .running ∨ anim.playState = .paused
  | _ => True

/-- The invariant of careful runs. -/
structure Kept (style : Style) : Prop where
  pending : anim.callbacks = anim.frame.toList
  ticking : anim.frame.isSome = true ↔ anim.playState = .running
  fresh : anim.playState = .running → anim.fresh = true → anim.startTime = none
  once : anim.finishes ≤ 1 ∧ (anim.finished = .resolved ↔ anim.finishes = 1)
  ended : anim.playState = .finished → anim.finishes = 1
  going : anim.playState = .running ∨ anim.playState = .paused →
    anim.finishes = 0 ∧ anim.finished = .pending
  listed : anim.listed = true ↔ anim.playState = .running ∨ anim.playState = .paused
  others : ∀ name, (∀ item ∈ config.properties, item.name ≠ name) → anim.style name = style name
  restored : anim.playState = .idle ∨ anim.playState = .finished ∧ config.forwards = false →
    anim.style = style

end Animation

section Styles
variable {config} {style first : Style} {name : String}

section
omit [Field K] [LinearOrder K]

theorem setProperties_other (value : Property K → Option (String × String))
    (items : List (Property K)) (other : ∀ item ∈ items, item.name ≠ name) :
    items.foldl (fun style item => setProperty style item.name (value item)) style name =
      style name := by
  induction items generalizing style with
  | nil => rfl
  | cons item rest ih =>
    rw [List.foldl_cons, ih fun item member => other item (.tail _ member)]
    exact if_neg (other item (.head _)).symm

theorem restore_first (saved : ∀ item ∈ config.properties, item.before = first item.name)
    (others : ∀ name, (∀ item ∈ config.properties, item.name ≠ name) → style name = first name) :
    restore config style = first := by
  have parts : ∀ (items : List (Property K)) (style : Style),
      (∀ item ∈ items, item.before = first item.name) →
      (∀ name, (∀ item ∈ items, item.name ≠ name) → style name = first name) →
      items.foldl (fun style item => setProperty style item.name item.before) style = first := by
    intro items
    induction items with
    | nil => exact fun style _ others => funext fun name => others name nofun
    | cons item rest ih =>
      intro style saved others
      refine ih _ (fun item member => saved item (.tail _ member)) fun name apart => ?_
      show (if name = item.name then item.before else style name) = first name
      split
      next same => rw [same, saved item (.head _)]
      next other => exact others name (List.forall_mem_cons.mpr ⟨fun same => other same.symm, apart⟩)
  exact parts _ _ saved others

end

end Styles

namespace Animation
variable {config} {anim : Animation K} {style : Style}

section
omit [Field K] [LinearOrder K]

theorem cancelFrame_callbacks (pending : anim.callbacks = anim.frame.toList) :
    anim.cancelFrame.callbacks = [] := by
  rw [cancelFrame]
  rw [pending]
  cases anim.frame <;> simp

theorem Kept.complete (saved : ∀ item ∈ config.properties, item.before = style item.name)
    (quiet : anim.callbacks = []) (going : anim.finishes = 0 ∧ anim.finished = .pending)
    (others : ∀ name, (∀ item ∈ config.properties, item.name ≠ name) →
      anim.style name = style name) : (anim.complete config).Kept config style := by
  have restored : config.forwards = false → (anim.complete config).style = style := by
    intro plain
    rw [Animation.complete, plain]
    exact restore_first saved others
  refine ⟨quiet, by simp [Animation.complete], nofun, ?_, fun _ => ?_, nofun, by simp [Animation.complete],
    fun name apart => ?_, fun plain => ?_⟩
  · simp [Animation.complete, going.1, going.2, Promise.settle]
  · simp [Animation.complete, going.1]
  · by_cases plain : config.forwards = false
    · rw [restored plain]
    · rw [Animation.complete, if_pos (Bool.not_eq_false _ ▸ plain)]
      exact others name apart
  · rcases plain with idle | plain
    · cases idle
    · exact restored plain.2

theorem Kept.requested (running : anim.playState = .running) (quiet : anim.callbacks = [])
    (fresh : anim.fresh = true → anim.startTime = none)
    (going : anim.finishes = 0 ∧ anim.finished = .pending) (listed : anim.listed = true)
    (others : ∀ name, (∀ item ∈ config.properties, item.name ≠ name) →
      anim.style name = style name) : anim.requestFrame.Kept config style := by
  refine ⟨by simp [requestFrame, quiet], by simp [requestFrame, running], fun _ => fresh, ?_, ?_,
    fun _ => going, by simp [requestFrame, running, listed], others, ?_⟩
  · simp [requestFrame, going.1, going.2]
  · simp [requestFrame, running]
  · simp [requestFrame, running]

end

section
variable (saved : ∀ item ∈ config.properties, item.before = style item.name)
  (kept : anim.Kept config style)
include saved kept

theorem tick_kept {handle : Nat} {timestamp : K}
    (enabled : anim.Enabled (.frame handle timestamp)) :
    (anim.perform config (.frame handle timestamp)).Kept config style := by
  obtain ⟨waits, -⟩ := enabled
  have waiting := kept.pending
  obtain ⟨frame, framed⟩ : ∃ frame, anim.frame = some frame := by
    cases framed : anim.frame with
    | none => simp [waiting, framed] at waits
    | some frame => exact ⟨frame, rfl⟩
  have running := kept.ticking.mp (by rw [framed]; rfl)
  have quiet : anim.callbacks.erase handle = [] := by
    rw [waiting, framed] at waits ⊢
    rw [List.mem_singleton.mp waits]
    simp
  have going := kept.going (.inl running)
  have others : ∀ (progress : K) name, (∀ item ∈ config.properties, item.name ≠ name) →
      apply config anim.style progress name = style name := fun progress name apart =>
    (setProperties_other _ _ apart).trans (kept.others name apart)
  rw [perform, tick, if_neg (not_not.mpr running)]
  dsimp only
  split
  · apply Kept.complete saved
    · exact quiet
    · exact going
    · exact others _
  · apply Kept.requested
    · exact running
    · exact quiet
    · exact nofun
    · exact going
    · exact kept.listed.mpr (.inl running)
    · exact others _

theorem perform_kept {event : Event K} (enabled : anim.Enabled event)
    (careful : anim.Careful event) : (anim.perform config event).Kept config style := by
  have quiet := cancelFrame_callbacks kept.pending
  have others : ∀ (progress : K) name, (∀ item ∈ config.properties, item.name ≠ name) →
      apply config anim.style progress name = style name := fun progress name apart =>
    (setProperties_other _ _ apart).trans (kept.others name apart)
  cases event with
  | play =>
    have still : anim.callbacks = [] := by
      rw [kept.pending, Option.not_isSome_iff_eq_none.mp fun framed => careful.1 (kept.ticking.mp framed)]
      rfl
    rw [perform]
    split
    · exact Kept.requested rfl still (fun _ => rfl) ⟨rfl, rfl⟩ rfl kept.others
    next paused =>
      have paused : anim.playState = .paused := by
        have notRunning := careful.1
        cases state : anim.playState <;> simp_all
      exact Kept.requested rfl still (fun _ => careful.2 paused) (kept.going (.inr paused)) rfl
        kept.others
  | pause =>
    rw [perform]
    split
    next running =>
      refine ⟨quiet, by simp [cancelFrame], nofun, kept.once, nofun,
        fun _ => kept.going (.inl running), ?_, kept.others, by simp⟩
      exact iff_of_true (kept.listed.mpr (.inl running)) (.inr rfl)
    next => exact kept
  | cancel =>
    refine ⟨quiet, by simp [perform, cancelFrame], nofun, ?_, nofun, by simp [perform],
      by simp [perform], fun name apart => ?_, fun _ => restore_first saved kept.others⟩
    · rw [perform]
      split
      next active =>
        have going := kept.going active
        simp [going.1, going.2, Promise.settle, cancelFrame]
      next => exact kept.once
    · exact (setProperties_other _ _ apart).trans (kept.others name apart)
  | finish => exact Kept.complete saved quiet (kept.going careful) (others 1)
  | setCurrentTime value =>
    refine ⟨kept.pending, kept.ticking, kept.fresh, kept.once, kept.ended, kept.going, kept.listed,
      fun name apart => ?_, fun ended => ?_⟩
    · rw [perform]
      split
      · exact others _ name apart
      · exact kept.others name apart
    · rw [perform, if_neg (fun running => ?_)]
      · exact kept.restored ended
      · rcases ended with idle | ⟨finished, -⟩
        · exact PlayState.noConfusion (running.symm.trans idle)
        · exact PlayState.noConfusion (running.symm.trans finished)
  | frame handle timestamp => exact tick_kept saved kept enabled

end

omit [LinearOrder K] in
theorem Begins.kept (begins : anim.Begins config style) : anim.Kept config style := by
  rw [begins.state]
  exact ⟨rfl, by simp, nofun, by simp, nofun, by simp, by simp, fun _ _ => rfl, fun _ => rfl⟩

theorem Kept.right (kept : anim.Kept config style) : anim.Right config style := by
  refine ⟨?_, fun fresh handle timestamp enabled => ?_, fun rests handle timestamp => ?_, kept.once,
    kept.ended, fun going => (kept.going going).1, kept.listed, kept.restored⟩
  · rw [kept.pending]
    cases anim.frame <;> simp
  · have framed : anim.frame.isSome = true := by
      have waits := enabled.1
      rw [kept.pending] at waits
      exact Option.isSome_iff_exists.mpr ⟨handle, by simpa using waits⟩
    have running := kept.ticking.mp framed
    rw [perform, tick, if_neg (not_not.mpr running)]
    have first := kept.fresh running fresh
    dsimp only
    rw [first, Option.getD_none, sub_sub_cancel]
    split <;> rfl
  · rw [perform, tick, if_pos rests]

def still : Config ℚ := ⟨[], 1000, false, fun _ => ""⟩

/-- A new animation that changes nothing. -/
def unplayed : Animation ℚ :=
  ⟨0, none, none, .idle, .pending, false, fun _ => none, [], 0, 0, 0, false⟩

theorem unplayed_begins : unplayed.Begins still fun _ => none := ⟨nofun, rfl⟩

theorem unplayed_plays : Step still unplayed .play (unplayed.perform still .play) := ⟨trivial, rfl⟩

end Animation

end Chuzz.Animations
