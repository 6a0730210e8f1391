import Chuzz.Library.Transition

/-! A worker and its thread. The thread runs the script, then its loop; between two of its
steps the page thread may do anything. What the worker's scripts do is left open: while
they run they may post, report and close as often as they like. -/
namespace Chuzz.Workers
variable {W : Type}

inductive Input (W : Type) where
  | message (wire : W)
  | fetch
deriving DecidableEq, Repr

inductive Output (W : Type) where
  | message (wire : W)
  | error (report : String)
  | closed
deriving DecidableEq, Repr

/-- Where the worker's thread is. Scripts run in `script`, `draining`, `dispatching` and
`timers`. -/
inductive Control (W : Type) where
  | submitted
  | script
  /-- The condition of the loop. -/
  | top
  /-- Notifications are drained. -/
  | draining
  | receive
  /-- `none` where the wait timed out or a notification came. -/
  | received (input : Option (Input W))
  /-- An input that was just received, or a deferred message. -/
  | dispatching (fresh : Bool)
  /-- Behind the match on the input. -/
  | passed
  | timers
  /-- `run` has returned. -/
  | ending
  | finished
  | cleared
  | done
deriving DecidableEq, Repr

inductive PromiseState where
  | pending
  | fulfilled
  | rejected (report : String)
deriving DecidableEq, Repr

/-- The last five fields are history: what was pushed to the inbox and dispatched, what was
pushed to the page and delivered there, and whether a call of `terminate` has returned. -/
structure Endpoint (W : Type) where
  canceled : Bool := false
  closing : Bool := false
  finished : Bool := false
  inbox : List (Input W) := []
  control : Control W := .submitted
  /-- The module's promise was not yet seen to be settled. -/
  startup : Bool := false
  deferred : List W := []
  /-- An output that `post` is about to push, having seen that the worker is not canceled. -/
  pushing : Option (Output W) := none
  sent : List W := []
  dispatched : List W := []
  posted : List (Output W) := []
  delivered : List (Output W) := []
  terminated : Bool := false
deriving DecidableEq, Repr

inductive Act (W : Type) where
  | start
  | evaluated (module failed : Bool)
  | post (wire : W)
  | report (text : String)
  | push
  | close
  | loop
  | settle (startup : PromiseState)
  | recv
  | timeout
  | handle
  | returned
  | pass
  | panic
  | finish
  | clear
  | notify
deriving DecidableEq, Repr

def Control.scripted : Control W → Bool
  | .script | .draining | .dispatching _ | .timers => true
  | _ => false

/-- Inside `run`. -/
def Control.running : Control W → Bool
  | .ending | .finished | .cleared | .done => false
  | _ => true

namespace Endpoint

def stopped (endpoint : Endpoint W) : Bool := endpoint.canceled || endpoint.finished

/-- The check of `post`. -/
def post (endpoint : Endpoint W) (output : Output W) : Endpoint W :=
  if endpoint.canceled then endpoint else { endpoint with pushing := some output }

def dispatch (endpoint : Endpoint W) (wire : W) (fresh : Bool) : Endpoint W :=
  { endpoint with
    control := .dispatching fresh, dispatched := endpoint.dispatched ++ [wire] }

/-- A deferred message is dispatched once the module has started. -/
def proceed (endpoint : Endpoint W) (startup : Bool) : Endpoint W :=
  match startup, endpoint.deferred with
  | false, wire :: rest => { endpoint with startup := false, deferred := rest }.dispatch wire false
  | startup, _ => { endpoint with startup, control := .receive }

/-- The look at the module's promise, and what the loop does before it waits for an input. -/
def settle (endpoint : Endpoint W) : PromiseState → Endpoint W
  | .pending => endpoint.proceed endpoint.startup
  | .fulfilled => endpoint.proceed false
  | .rejected report =>
    if endpoint.startup then { endpoint with control := .ending }.post (.error report)
    else endpoint.proceed false

/-- The match on what was received. -/
def handle (endpoint : Endpoint W) (input : Option (Input W)) : Endpoint W :=
  if endpoint.stopped then { endpoint with control := .ending }
  else
    match input with
    | some (.message wire) =>
      if endpoint.startup then
        { endpoint with control := .passed, deferred := endpoint.deferred ++ [wire] }
      else endpoint.dispatch wire true
    | some .fetch => { endpoint with control := .dispatching true }
    | none => { endpoint with control := .passed }

/-- One step of the thread. -/
def act (endpoint : Endpoint W) (act : Act W) : Endpoint W :=
  match endpoint.pushing, endpoint.control, act with
  | some output, _, .push =>
    { endpoint with pushing := none, posted := endpoint.posted ++ [output] }
  | some _, _, _ => endpoint
  | none, .submitted, .start =>
    { endpoint with control := if endpoint.stopped then .ending else .script }
  | none, .script, .evaluated module failed =>
    if failed then { endpoint with control := .ending }
    else { endpoint with control := .top, startup := module }
  | none, .top, .loop =>
    { endpoint with
      control := if endpoint.stopped || endpoint.closing then .ending else .draining }
  | none, .draining, .settle state => endpoint.settle state
  | none, .receive, .recv =>
    match endpoint.inbox with
    | input :: rest => { endpoint with inbox := rest, control := .received (some input) }
    | [] => endpoint
  | none, .receive, .timeout => { endpoint with control := .received none }
  | none, .received input, .handle => endpoint.handle input
  | none, .dispatching fresh, .returned =>
    { endpoint with control := if fresh then .passed else .top }
  | none, .passed, .pass =>
    { endpoint with control := if endpoint.stopped || endpoint.closing then .ending else .timers }
  | none, .timers, .returned => { endpoint with control := .top }
  | none, .ending, .finish => { endpoint with control := .finished, finished := true }
  | none, .finished, .clear => { endpoint with control := .cleared, inbox := [] }
  | none, .cleared, .notify => { endpoint with control := .done }.post .closed
  | none, control, .post wire =>
    if control.scripted then endpoint.post (.message wire) else endpoint
  | none, control, .report text =>
    if control.scripted then endpoint.post (.error text) else endpoint
  | none, control, .close => if control.scripted then { endpoint with closing := true } else endpoint
  | none, control, .panic =>
    if control.running then
      { endpoint with control := .ending }.post (.error "worker runtime panicked")
    else endpoint
  | none, _, _ => endpoint

def wires (inbox : List (Input W)) : List W :=
  inbox.filterMap fun
    | .message wire => some wire
    | .fetch => none

/-- A message that was taken out of the inbox and not looked at yet. -/
def inHand : Control W → List W
  | .received (some (.message wire)) => [wire]
  | _ => []

/-- What the thread keeps true of the worker's own part. -/
structure Orderly (endpoint : Endpoint W) : Prop where
  inward : (endpoint.dispatched ++ (endpoint.deferred ++ (inHand endpoint.control ++
    wires endpoint.inbox))).Sublist endpoint.sent
  /-- While an input is waited for, nothing is deferred unless the module is starting. -/
  calm : endpoint.control = .receive ∨ (∃ input, endpoint.control = .received input) →
    endpoint.startup = true ∨ endpoint.deferred = []
  notice : endpoint.pushing = some .closed → endpoint.control = .done ∧ .closed ∉ endpoint.posted
  last : endpoint.control = .done → ∀ output, endpoint.pushing = some output → output = .closed
  ended : .closed ∈ endpoint.posted → endpoint.control = .done ∧ endpoint.pushing = none ∧
    ∃ others, endpoint.posted = others ++ [.closed] ∧ .closed ∉ others

variable {endpoint : Endpoint W}

theorem start_orderly : ({} : Endpoint W).Orderly where
  inward := List.Sublist.refl _
  calm := by simp
  notice := by simp
  last := by simp
  ended := by simp

theorem not_done {control : Control W} (inside : control.scripted ∨ control.running) :
    control ≠ .done := by
  rintro rfl
  simp [Control.scripted, Control.running] at inside

section
variable (orderly : endpoint.Orderly)
include orderly

theorem Orderly.move {control : Control W}
    (quiet : endpoint.pushing = none) (running : endpoint.control ≠ .done)
    (hand : inHand endpoint.control = []) (empty : inHand control = [])
    (calm : control = .receive ∨ (∃ input, control = .received input) →
      endpoint.startup = true ∨ endpoint.deferred = []) :
    ({ endpoint with control } : Endpoint W).Orderly where
  inward := by
    have inward := orderly.inward
    rw [hand] at inward
    simpa [empty] using inward
  calm := calm
  notice pushed := by simp [quiet] at pushed
  last _ output pushed := by simp [quiet] at pushed
  ended closed := absurd (orderly.ended closed).1 running

theorem Orderly.post {output : Output W}
    (running : endpoint.control ≠ .done) (other : output ≠ .closed) :
    (endpoint.post output).Orderly := by
  rw [Endpoint.post]
  split
  · exact orderly
  · constructor
    · exact orderly.inward
    · exact orderly.calm
    · exact fun pushed => absurd (Option.some.inj pushed) other
    · exact fun ended => absurd ended running
    · exact fun closed => absurd (orderly.ended closed).1 running

theorem Orderly.push {output : Output W} (pushed : endpoint.pushing = some output) :
    ({ endpoint with pushing := none, posted := endpoint.posted ++ [output] } :
      Endpoint W).Orderly := by
  have fresh : .closed ∉ endpoint.posted := by
    intro closed
    have quiet := (orderly.ended closed).2.1
    rw [quiet] at pushed
    contradiction
  constructor
  · exact orderly.inward
  · exact orderly.calm
  · simp
  · simp
  · intro closed
    rcases List.mem_append.mp closed with earlier | here
    · exact absurd earlier fresh
    · obtain rfl := List.mem_singleton.mp here
      exact ⟨(orderly.notice pushed).1, rfl, endpoint.posted, rfl, fresh⟩

theorem Orderly.dispatch {wire : W} {fresh : Bool}
    (quiet : endpoint.pushing = none) (running : endpoint.control ≠ .done)
    {deferred : List W} {startup : Bool}
    (next : endpoint.deferred ++ inHand endpoint.control = wire :: deferred) :
    ({ endpoint with startup, deferred }.dispatch wire fresh).Orderly where
  inward := by
    have inward := orderly.inward
    rw [← List.append_assoc endpoint.deferred, next] at inward
    simpa [Endpoint.dispatch, inHand] using inward
  calm := by simp [Endpoint.dispatch]
  notice pushed := by simp [Endpoint.dispatch, quiet] at pushed
  last _ output pushed := by simp [Endpoint.dispatch, quiet] at pushed
  ended closed := absurd (orderly.ended closed).1 running

theorem Orderly.proceed (quiet : endpoint.pushing = none)
    (draining : endpoint.control = .draining) (startup : Bool) :
    (endpoint.proceed startup).Orderly := by
  have running : endpoint.control ≠ .done := by simp [draining]
  have hand : inHand endpoint.control = [] := by
    rw [draining]
    rfl
  have waits : ∀ startup : Bool, startup = true ∨ endpoint.deferred = [] →
      ({ endpoint with startup, control := .receive } : Endpoint W).Orderly := by
    intro startup calm
    constructor
    · have inward := orderly.inward
      rw [hand] at inward
      simpa [inHand] using inward
    · exact fun _ => calm
    · exact fun pushed => by simp [quiet] at pushed
    · exact fun ended => by simp at ended
    · exact fun closed => absurd (orderly.ended closed).1 running
  cases startup with
  | true => exact waits true (.inl rfl)
  | false =>
    cases deferred : endpoint.deferred with
    | nil =>
      simpa [Endpoint.proceed, deferred] using waits false (.inr deferred)
    | cons wire rest =>
      rw [Endpoint.proceed.eq_def, deferred]
      exact orderly.dispatch quiet running (by rw [deferred, hand, List.append_nil])

theorem Orderly.settle (quiet : endpoint.pushing = none)
    (draining : endpoint.control = .draining) (state : PromiseState) :
    (endpoint.settle state).Orderly := by
  cases state with
  | pending => exact orderly.proceed quiet draining _
  | fulfilled => exact orderly.proceed quiet draining _
  | rejected report =>
    rw [Endpoint.settle]
    split
    · apply Orderly.post
      · exact orderly.move quiet (by simp [draining]) (by rw [draining]; rfl) rfl (by simp)
      · simp
      · simp
    · exact orderly.proceed quiet draining _

theorem Orderly.clear : ({ endpoint with inbox := [] } : Endpoint W).Orderly :=
  { orderly with
    inward := by
      refine List.Sublist.trans ?_ orderly.inward
      simp [wires] }

theorem Orderly.receive (input : Input W) : ({ endpoint with
        inbox := endpoint.inbox ++ [input], sent := endpoint.sent ++ wires [input] } :
      Endpoint W).Orderly :=
  { orderly with
    inward := by
      have more : wires (endpoint.inbox ++ [input]) = wires endpoint.inbox ++ wires [input] :=
        List.filterMap_append
      rw [more]
      simpa using orderly.inward.append (List.Sublist.refl (wires [input])) }

theorem Orderly.handle (quiet : endpoint.pushing = none)
    {input : Option (Input W)} (received : endpoint.control = .received input) :
    (endpoint.handle input).Orderly := by
  have running : endpoint.control ≠ .done := by simp [received]
  have calm := orderly.calm (.inr ⟨input, received⟩)
  have inward := orderly.inward
  rw [received] at inward
  -- an input that is no message, or is dropped, leaves the others as they are
  have skip : ∀ control : Control W, inHand control = [] →
      (control = .receive ∨ (∃ input, control = .received input) → False) →
      ({ endpoint with control } : Endpoint W).Orderly := by
    intro control empty elsewhere
    constructor
    · refine List.Sublist.trans ?_ inward
      simp [empty]
    · exact fun waiting => absurd waiting elsewhere
    · exact fun pushed => by simp [quiet] at pushed
    · exact fun _ output pushed => by simp [quiet] at pushed
    · exact fun closed => absurd (orderly.ended closed).1 running
  unfold Endpoint.handle
  split
  · exact skip _ rfl (by simp)
  · split
    · rename_i wire
      split
      · constructor
        · simpa [inHand] using inward
        · simp
        · exact fun pushed => by simp [quiet] at pushed
        · exact fun _ output pushed => by simp [quiet] at pushed
        · exact fun closed => absurd (orderly.ended closed).1 running
      · rename_i settled
        have nothing := calm.resolve_left settled
        have same : endpoint.dispatch wire true =
            { endpoint with startup := endpoint.startup, deferred := [] }.dispatch wire true := by
          rw [← nothing]
        exact orderly.dispatch quiet running (by rw [nothing, received]; rfl)
    · exact skip _ rfl (by simp)
    · exact skip _ rfl (by simp)

theorem Orderly.act (act : Act W) : (endpoint.act act).Orderly := by
  -- a step outside of the wait for an input that takes no message
  have move : ∀ {before : Control W} (control : Control W), endpoint.pushing = none →
      endpoint.control = before → before ≠ .done → inHand before = [] → inHand control = [] →
      (control = .receive ∨ (∃ input, control = .received input) → False) →
      ({ endpoint with control } : Endpoint W).Orderly := by
    intro before control quiet here running hand empty elsewhere
    subst here
    exact orderly.move quiet running hand empty fun waiting => absurd waiting elsewhere
  unfold Endpoint.act
  split
  · exact orderly.push ‹_›
  · exact orderly
  · rename_i quiet submitted
    split
    · exact move .ending quiet submitted (by simp) rfl rfl (by simp)
    · exact move .script quiet submitted (by simp) rfl rfl (by simp)
  · rename_i quiet script
    split
    · exact move .ending quiet script (by simp) rfl rfl (by simp)
    · have moved := move .top quiet script (by simp) rfl rfl (by simp)
      exact { moved with calm := by simp }
  · rename_i quiet top
    split
    · exact move .ending quiet top (by simp) rfl rfl (by simp)
    · exact move .draining quiet top (by simp) rfl rfl (by simp)
  · exact orderly.settle ‹_› ‹_› _
  · rename_i quiet receive
    have calm := orderly.calm (.inl receive)
    have inward := orderly.inward
    rw [receive] at inward
    split
    · rename_i input rest inbox
      constructor
      · have split : inHand (Control.received (some input)) ++ wires rest = wires (input :: rest) := by
          cases input <;> rfl
        rw [inbox, ← split] at inward
        simpa [inHand] using inward
      · exact fun _ => calm
      · exact fun pushed => by simp [quiet] at pushed
      · exact fun ended => by simp at ended
      · exact fun closed => absurd (orderly.ended closed).1 (by simp [receive])
    · exact orderly
  · rename_i quiet receive
    exact orderly.move quiet (by simp [receive]) (by rw [receive]; rfl) rfl
      fun _ => orderly.calm (.inl receive)
  · exact orderly.handle ‹_› ‹_›
  · rename_i quiet dispatching
    split
    · exact move .passed quiet dispatching (by simp) rfl rfl (by simp)
    · exact move .top quiet dispatching (by simp) rfl rfl (by simp)
  · rename_i quiet passed
    split
    · exact move .ending quiet passed (by simp) rfl rfl (by simp)
    · exact move .timers quiet passed (by simp) rfl rfl (by simp)
  · rename_i quiet timers
    exact move .top quiet timers (by simp) rfl rfl (by simp)
  · rename_i quiet ending
    have moved := move .finished quiet ending (by simp) rfl rfl (by simp)
    exact { moved with }
  · rename_i quiet finished
    have moved := move .cleared quiet finished (by simp) rfl rfl (by simp)
    exact moved.clear
  · rename_i quiet cleared
    have fresh : .closed ∉ endpoint.posted := by
      intro closed
      have ended := (orderly.ended closed).1
      rw [cleared] at ended
      contradiction
    have moved := move .done quiet cleared (by simp) rfl rfl (by simp)
    rw [Endpoint.post]
    split
    · exact moved
    · constructor
      · exact moved.inward
      · simp
      · exact fun _ => ⟨rfl, fresh⟩
      · exact fun _ output pushed => (Option.some.inj pushed).symm
      · exact fun closed => absurd closed fresh
  · split
    · exact orderly.post (not_done (.inl ‹_›)) (by simp)
    · exact orderly
  · split
    · exact orderly.post (not_done (.inl ‹_›)) (by simp)
    · exact orderly
  · split
    · exact { orderly with }
    · exact orderly
  · split
    · rename_i running
      have quiet : endpoint.pushing = none := ‹_›
      apply Orderly.post
      · constructor
        · refine List.Sublist.trans ?_ orderly.inward
          simp [inHand]
        · simp
        · exact fun pushed => by simp [quiet] at pushed
        · exact fun _ output pushed => by simp [quiet] at pushed
        · exact fun closed => absurd (orderly.ended closed).1 (not_done (.inr running))
      · simp
      · simp
    · exact orderly
  · exact orderly

end

/-- What the thread pushes to the page in a step. -/
def pushed (endpoint : Endpoint W) (act : Act W) : List (Output W) :=
  match endpoint.pushing, act with
  | some output, .push => [output]
  | _, _ => []

/-- What the page thread reads of a worker, which only a push changes. -/
def history (endpoint : Endpoint W) : Bool × List (Output W) × List (Output W) × Bool :=
  (endpoint.canceled, endpoint.posted, endpoint.delivered, endpoint.terminated)

theorem post_history (endpoint : Endpoint W) (output : Output W) :
    (endpoint.post output).history = endpoint.history := by
  rw [Endpoint.post]
  split <;> rfl

theorem proceed_history (endpoint : Endpoint W) (startup : Bool) :
    (endpoint.proceed startup).history = endpoint.history := by
  unfold Endpoint.proceed
  split <;> rfl

theorem settle_history (endpoint : Endpoint W) (state : PromiseState) :
    (endpoint.settle state).history = endpoint.history := by
  cases state with
  | pending => exact proceed_history _ _
  | fulfilled => exact proceed_history _ _
  | rejected report =>
    rw [Endpoint.settle]
    split
    · exact post_history _ _
    · exact proceed_history _ _

theorem handle_history (endpoint : Endpoint W) (input : Option (Input W)) :
    (endpoint.handle input).history = endpoint.history := by
  unfold Endpoint.handle
  split
  · rfl
  · split
    · split <;> rfl
    · rfl
    · rfl

theorem act_history (endpoint : Endpoint W) (act : Act W) : (endpoint.act act).history =
    { endpoint with posted := endpoint.posted ++ endpoint.pushed act }.history := by
  cases pushing : endpoint.pushing with
  | some output => cases act <;> simp [Endpoint.act, pushed, history, pushing]
  | none =>
    have nothing : endpoint.pushed act = [] := by simp [pushed, pushing]
    rw [nothing, List.append_nil]
    unfold Endpoint.act
    rw [pushing]
    split
    all_goals first
      | contradiction
      | rfl
      | exact settle_history _ _
      | exact handle_history _ _
      | exact post_history _ _
      | split <;> first | rfl | exact post_history _ _

end Endpoint
end Chuzz.Workers
