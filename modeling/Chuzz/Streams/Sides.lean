import Chuzz.Streams.SinkContract
import Chuzz.Streams.Steps

/-! The two sides of a transform stream by themselves: the next pull of a stream that somebody
reads is on its way, and the writes of a chain leave it in the order of their numbers. -/
namespace Chuzz.Streams

namespace Stream
variable {V E N : Type} {stream : Stream V E N}

/-- No more chunks join the stream. -/
def Ended (stream : Stream V E N) : Prop := stream.status ≠ .readable ∨ stream.closing = true

/-- While somebody reads, the next pull is on its way. -/
def Awake (stream : Stream V E N) : Prop :=
  stream.reads ≠ [] → stream.started = true →
    stream.job = .call ∨ stream.job = .settle ∧ stream.again = true

/-- A pull that is under way has a reaction to come. -/
def Busy (stream : Stream V E N) : Prop := stream.pulling = true → stream.job ≠ .none

theorem Awake.unread (reads : stream.reads = []) : stream.Awake :=
  fun waits => absurd reads waits

variable [Number N]

theorem pull_busy (busy : stream.Busy) : stream.pull.Busy := by
  rw [pull]
  split
  · exact busy
  · split
    · exact busy
    · exact fun _ => by rintro ⟨⟩

theorem pull_awake (busy : stream.Busy)
    (open_ : stream.reads ≠ [] → stream.status = .readable ∧ stream.closing = false) :
    stream.pull.Awake := by
  rw [pull]
  split
  · rename_i idle
    intro waits started
    obtain ⟨readable, running⟩ := open_ waits
    rcases idle with idle | ended | closing | ⟨reads, _⟩
    · exact absurd idle (by simp [started])
    · exact absurd readable ended
    · exact absurd closing (by simp [running])
    · exact absurd reads waits
  · split
    · rename_i pulling
      intro _ _
      cases job : stream.job with
      | none => exact absurd job (busy pulling)
      | call => exact .inl rfl
      | settle => exact .inr ⟨rfl, rfl⟩
    · exact fun _ _ => .inl rfl

omit [Number N] in
theorem finish_busy (busy : stream.Busy) : stream.finish.Busy := by
  rw [finish]
  split
  · exact busy
  · exact busy

omit [Number N] in
theorem finish_awake (awake : stream.Awake) : stream.finish.Awake := by
  rw [finish]
  split
  · exact .unread rfl
  · exact awake

theorem fail_busy (busy : stream.Busy) (failure : Failure E) : (stream.fail failure).Busy := by
  rw [fail]
  split
  · exact busy
  · exact busy

theorem fail_awake (awake : stream.Awake) (failure : Failure E) : (stream.fail failure).Awake := by
  rw [fail]
  split
  · exact .unread rfl
  · exact awake

theorem enqueue_busy (busy : stream.Busy) (value : V) (size : Except E N) :
    (stream.enqueue value size).1.Busy := by
  unfold enqueue
  split
  · exact busy
  · split
    · exact pull_busy busy
    · split
      · exact pull_busy busy
      · exact fail_busy busy _
    · exact fail_busy busy _

theorem enqueue_awake (awake : stream.Awake) (busy : stream.Busy) (value : V)
    (size : Except E N) : (stream.enqueue value size).1.Awake := by
  unfold enqueue
  split
  · exact awake
  · rename_i writable
    rw [not_or, ne_eq, not_not, Bool.not_eq_true] at writable
    split
    · exact pull_awake busy fun _ => writable
    · split
      · exact pull_awake busy fun _ => writable
      · exact fail_awake awake _
    · exact fail_awake awake _

omit [Number N] in
theorem close_busy (busy : stream.Busy) : stream.close.1.Busy := by
  rw [close]
  split
  · exact busy
  · dsimp only
    split
    · exact finish_busy busy
    · exact busy

omit [Number N] in
theorem close_awake (awake : stream.Awake) : stream.close.1.Awake := by
  rw [close]
  split
  · exact awake
  · dsimp only
    split
    · exact finish_awake awake
    · exact awake

theorem cancel_busy (busy : stream.Busy) : stream.cancel.Busy := by
  rw [cancel]
  split
  · exact finish_busy busy
  · exact busy

theorem cancel_awake (awake : stream.Awake) : stream.cancel.Awake := by
  rw [cancel]
  split
  · exact finish_awake awake
  · exact awake

theorem read_busy (busy : stream.Busy) (reader : Nat) : (stream.read reader).Busy := by
  unfold read
  split
  · exact busy
  · split
    · dsimp only
      split
      · exact finish_busy busy
      · exact pull_busy busy
    · split
      · exact busy
      · exact busy
      · exact busy
      · exact pull_busy busy

theorem read_awake (sound : stream.Sound) (awake : stream.Awake) (busy : stream.Busy)
    (reader : Nat) : (stream.read reader).Awake := by
  unfold read
  split
  · exact awake
  · split
    · rename_i queue
      have unread : stream.reads = [] := sound.apart.resolve_right (by simp [queue])
      dsimp only
      split
      · exact finish_awake (.unread unread)
      · exact pull_awake busy fun waits => absurd unread waits
    · rename_i queue
      split
      · exact awake
      · exact awake
      · exact awake
      · rename_i readable
        apply pull_awake
        · exact busy
        · intro _
          refine ⟨readable, ?_⟩
          by_contra closing
          exact sound.kept readable (by simpa using closing) queue

theorem perform_busy (busy : stream.Busy) (step : Step V E N) : (stream.perform step).Busy := by
  cases step with
  | started =>
    rw [perform]
    split
    · exact pull_busy busy
    · exact busy
  | startFailed error =>
    rw [perform]
    split
    · apply fail_busy
      exact busy
    · exact busy
  | enqueue value size => exact enqueue_busy busy value size
  | close => exact close_busy busy
  | error error => exact fail_busy busy _
  | cancel =>
    rw [perform]
    split
    · exact busy
    · exact cancel_busy busy
  | readerCancel reader =>
    rw [perform]
    split
    · exact cancel_busy busy
    · exact busy
  | getReader =>
    rw [perform, getReader]
    split
    · exact busy
    · exact busy
  | read reader => exact read_busy busy reader
  | releaseLock reader =>
    rw [perform, releaseLock]
    split
    · exact busy
    · exact busy
  | pullCall =>
    rw [perform]
    split
    · exact fun _ => by rintro ⟨⟩
    · exact busy
  | pulled =>
    rw [perform]
    split
    · rw [pulled]
      split
      · exact pull_busy (fun pulling => by cases pulling)
      · exact fun pulling => by cases pulling
    · exact busy
  | pullFailed error =>
    rw [perform]
    split
    · exact fail_busy (fun pulling => by cases pulling) _
    · exact busy

/-- Only the source's `pull` itself uses up what was on its way. -/
theorem perform_awake (sound : stream.Sound) (awake : stream.Awake) (busy : stream.Busy)
    (step : Step V E N) (other : step.outer = true) (calls : step ≠ .pullCall) :
    (stream.perform step).Awake := by
  cases step with
  | enqueue value size => cases other
  | close => cases other
  | error error => cases other
  | startFailed error => cases other
  | pullFailed error => cases other
  | pullCall => exact absurd rfl calls
  | started =>
    rw [perform]
    split
    · exact pull_awake busy sound.awaited
    · exact awake
  | cancel =>
    rw [perform]
    split
    · exact awake
    · exact cancel_awake awake
  | readerCancel reader =>
    rw [perform]
    split
    · exact cancel_awake awake
    · exact awake
  | getReader =>
    rw [perform, getReader]
    split
    · exact awake
    · exact awake
  | read reader => exact read_awake sound awake busy reader
  | releaseLock reader =>
    rw [perform, releaseLock]
    split
    · exact awake
    · exact .unread rfl
  | pulled =>
    rw [perform]
    split
    · rename_i settles
      rw [pulled]
      split
      · exact pull_awake (fun pulling => by cases pulling) sound.awaited
      · rename_i once
        intro waits started
        rcases awake waits started with call | ⟨_, again⟩
        · exact absurd call (by simp [settles])
        · exact absurd again once
    · exact awake

omit [Number N] in
theorem close_ended (stream : Stream V E N) : stream.close.1.Ended := by
  rw [close]
  split
  · rename_i ended
    exact ended
  · dsimp only
    split
    · rw [finish]
      split
      · exact .inl (by rintro ⟨⟩)
      · exact .inr rfl
    · exact .inr rfl

omit [Number N] in
theorem close_enqueued (stream : Stream V E N) : stream.close.1.enqueued = stream.enqueued := by
  rw [close]
  split
  · rfl
  · dsimp only
    split
    · rw [finish]
      split
      · rfl
      · rfl
    · rfl

/-- A chunk joins a stream that has not ended, or the stream keeps its chunks. -/
theorem enqueue_enqueued (stream : Stream V E N) (value : V) (size : Except E N) :
    (stream.enqueue value size).2 = true ∧ ¬ stream.Ended ∧
        (stream.enqueue value size).1.enqueued = stream.enqueued ++ [value] ∨
      (stream.enqueue value size).2 = false ∧
        (stream.enqueue value size).1.enqueued = stream.enqueued := by
  have pulls : ∀ after : Stream V E N, after.pull.enqueued = after.enqueued := by
    intro after
    obtain ⟨again, pulling, job, same⟩ := after.pull_same
    rw [same]
  have fails : ∀ failure : Failure E, (stream.fail failure).enqueued = stream.enqueued := by
    intro failure
    rw [fail]
    split
    · rfl
    · rfl
  unfold enqueue
  split
  · exact .inr ⟨rfl, rfl⟩
  · rename_i writable
    split
    · exact .inl ⟨rfl, writable, pulls _⟩
    · split
      · exact .inl ⟨rfl, writable, pulls _⟩
      · exact .inr ⟨rfl, fails _⟩
    · exact .inr ⟨rfl, fails _⟩

/-- What nobody but the controller does. -/
structure Keeps (before after : Stream V E N) : Prop where
  enqueued : after.enqueued = before.enqueued
  closing : after.closing = before.closing
  ended : before.status ≠ .readable → after.status ≠ .readable

omit [Number N] in
theorem Keeps.refl (stream : Stream V E N) : Keeps stream stream := ⟨rfl, rfl, id⟩

omit [Number N] in
variable {after : Stream V E N}
theorem Keeps.frame (enqueued : after.enqueued = stream.enqueued)
    (closing : after.closing = stream.closing) (status : after.status = stream.status) :
    Keeps stream after :=
  ⟨enqueued, closing, fun ended => by rwa [status]⟩

theorem Keeps.pull (keeps : Keeps stream after) : Keeps stream after.pull := by
  obtain ⟨again, pulling, job, same⟩ := after.pull_same
  rw [same]
  exact ⟨keeps.enqueued, keeps.closing, keeps.ended⟩

omit [Number N] in
theorem Keeps.finish (keeps : Keeps stream after) : Keeps stream after.finish := by
  rw [Stream.finish]
  split
  · exact ⟨keeps.enqueued, keeps.closing, fun _ => (by rintro ⟨⟩)⟩
  · exact keeps

theorem Keeps.cancel (keeps : Keeps stream after) : Keeps stream after.cancel := by
  rw [Stream.cancel]
  split
  · apply Keeps.finish
    exact ⟨keeps.enqueued, keeps.closing, keeps.ended⟩
  · exact keeps

theorem fail_keeps (stream : Stream V E N) (failure : Failure E) :
    Keeps stream (stream.fail failure) := by
  rw [fail]
  split
  · exact ⟨rfl, rfl, fun _ => (by rintro ⟨⟩)⟩
  · exact .refl stream

omit [Number N] in
theorem Keeps.isEnded (keeps : Keeps stream after) (ended : stream.Ended) : after.Ended := by
  rcases ended with status | closing
  · exact .inl (keeps.ended status)
  · exact .inr (keeps.closing.trans closing)

theorem outer_keeps (stream : Stream V E N) {step : Step V E N} (outer : step.outer = true) :
    Keeps stream (stream.perform step) := by
  cases step with
  | enqueue value size => cases outer
  | close => cases outer
  | error error => cases outer
  | startFailed error => cases outer
  | pullFailed error => cases outer
  | started =>
    rw [perform]
    split
    · exact Keeps.pull (.frame rfl rfl rfl)
    · exact .refl stream
  | cancel =>
    rw [perform]
    split
    · exact .refl stream
    · exact Keeps.cancel (.refl stream)
  | readerCancel reader =>
    rw [perform]
    split
    · exact Keeps.cancel (.refl stream)
    · exact .refl stream
  | getReader =>
    rw [perform, getReader]
    split
    · exact .refl stream
    · exact .frame rfl rfl rfl
  | read reader =>
    rw [perform]
    unfold read
    split
    · exact .refl stream
    · split
      · dsimp only
        split
        · exact Keeps.finish (.frame rfl rfl rfl)
        · exact Keeps.pull (.frame rfl rfl rfl)
      · split
        · exact .frame rfl rfl rfl
        · exact .frame rfl rfl rfl
        · exact .refl stream
        · exact Keeps.pull (.frame rfl rfl rfl)
  | releaseLock reader =>
    rw [perform, releaseLock]
    split
    · exact .refl stream
    · exact .frame rfl rfl rfl
  | pullCall =>
    rw [perform]
    split
    · exact .frame rfl rfl rfl
    · exact .refl stream
  | pulled =>
    rw [perform]
    split
    · rw [pulled]
      split
      · exact Keeps.pull (.frame rfl rfl rfl)
      · exact .frame rfl rfl rfl
    · exact .refl stream

end Stream

def WriteStep.outer {V E N : Type} : WriteStep V E N → Bool
  | .settle _ | .react => false
  | _ => true

namespace WritableStream
variable {V E N : Type} {stream before after : WritableStream V E N}

/-- The numbers of the writes in the chain. -/
def ids (stream : WritableStream V E N) : List Nat := stream.chain.filterMap Link.id?

/-- The number of the write that is first in the chain. -/
def writing (stream : WritableStream V E N) : Option Nat := stream.chain.head?.bind Link.id?

theorem writing_first {id first count : Nat} (writes : stream.writing = some id)
    (ids : stream.ids = List.range' first count) : id = first ∧ 0 < count := by
  obtain ⟨link, head, same⟩ := Option.bind_eq_some_iff.mp writes
  obtain ⟨rest, chain⟩ := List.head?_eq_some_iff.mp head
  rw [WritableStream.ids, chain, List.filterMap_cons_some same] at ids
  cases count with
  | zero => cases ids
  | succ count =>
    exact ⟨(List.cons.inj ids).1, Nat.succ_pos count⟩

/-- Links may join the chain behind the others. -/
structure Joins (before after : WritableStream V E N) : Prop where
  chain : ∃ links, after.chain = before.chain ++ links ∧
    ∃ count, links.filterMap Link.id? = List.range' before.accepted count ∧
      after.accepted = before.accepted + count
  stage : after.stage = before.stage
  methods : after.methods = before.methods
  status : after.status = .closed → before.status = .closed

/-- The sink's close has succeeded, and the reaction to it is still to come. -/
def Finishing (stream : WritableStream V E N) : Prop :=
  stream.chain.head? = some .close ∧ stream.stage = .answered none

/-- The first link takes a step, or leaves. -/
structure Reacts (before after : WritableStream V E N) : Prop where
  chain : after.chain = before.chain ∧ (before.stage ≠ .waiting → after.stage ≠ .waiting) ∨
    (∃ link, before.chain = link :: after.chain) ∧ after.stage = .waiting
  accepted : after.accepted = before.accepted
  methods : after.methods = before.methods
  status : after.status = .closed → before.status = .closed ∨ before.Finishing
  finishing : after.Finishing → before.Finishing ∨
    before.stage = .calling ∧ before.chain.head? = some .close
  idle : (before.chain = [] → before.stage = .waiting) → after.chain = [] → after.stage = .waiting

theorem Joins.frame (chain : after.chain = before.chain) (accepted : after.accepted = before.accepted)
    (stage : after.stage = before.stage) (methods : after.methods = before.methods)
    (status : after.status = .closed → before.status = .closed) : Joins before after where
  chain := ⟨[], by rw [chain, List.append_nil], 0, rfl, accepted⟩
  stage := stage
  methods := methods
  status := status

variable {rest : List (Link V N)} {link : Link V N}

section
variable (joins : Joins before after)
include joins

theorem Joins.head (head : before.chain.head? = some link) : after.chain.head? = some link := by
  obtain ⟨links, chain, _⟩ := joins.chain
  rw [chain, List.head?_append, head]
  rfl

theorem Joins.writing {id : Nat} (writes : before.writing = some id) : after.writing = some id := by
  obtain ⟨link, head, same⟩ := Option.bind_eq_some_iff.mp writes
  rw [WritableStream.writing, joins.head head]
  exact same

theorem Joins.idle (idle : before.chain = [] → before.stage = .waiting) (none : after.chain = []) :
    after.stage = .waiting := by
  obtain ⟨links, chain, _⟩ := joins.chain
  rw [chain] at none
  exact joins.stage.trans (idle (List.append_eq_nil_iff.mp none).1)

theorem Joins.finishing (idle : before.chain = [] → before.stage = .waiting) (finishing : after.Finishing) :
    before.Finishing := by
  have stage := joins.stage.symm.trans finishing.2
  cases chain : before.chain with
  | nil => cases (idle chain).symm.trans stage
  | cons link rest =>
    have head : before.chain.head? = some link := by
      rw [chain]
      rfl
    rw [Finishing, head, ← joins.head head]
    exact ⟨finishing.1, stage⟩

end

theorem Joins.refl (stream : WritableStream V E N) : Joins stream stream :=
  .frame rfl rfl rfl rfl id

theorem Reacts.stays (begun : before.chain = link :: rest) (chain : after.chain = before.chain)
    (stage : before.stage ≠ .waiting → after.stage ≠ .waiting)
    (accepted : after.accepted = before.accepted) (methods : after.methods = before.methods)
    (status : after.status = before.status) (calling : after.Finishing → before.stage = .calling) :
    Reacts before after where
  chain := .inl ⟨chain, stage⟩
  accepted := accepted
  methods := methods
  status closed := .inl (status ▸ closed)
  finishing finishing := .inr ⟨calling finishing, chain ▸ finishing.1⟩
  idle _ none := nomatch begun.symm.trans (chain.symm.trans none)

theorem Reacts.refl (stream : WritableStream V E N) : Reacts stream stream :=
  ⟨.inl ⟨rfl, id⟩, rfl, rfl, .inl, .inl, id⟩

variable [Measured N]

omit [Measured N] in
theorem writeError_joins (stream : WritableStream V E N) (error : Option (Failure E)) :
    Joins stream (stream.writeError error) := by
  rw [writeError]
  split
  · exact .refl stream
  · exact .frame rfl rfl rfl rfl (by rintro ⟨⟩)

theorem measured_joins (stream : WritableStream V E N) (size : Except E N) :
    Joins stream (stream.measured size) := by
  rw [measured]
  split
  · exact .refl stream
  · rename_i value measuring _
    have fails : ∀ error : Option (Failure E),
        Joins stream (writeError { stream with measuring } error) := by
      intro error
      have joins := writeError_joins { stream with measuring } error
      exact { joins with }
    split
    · exact fails _
    · rename_i size
      split
      · exact ⟨⟨[.write stream.accepted value size], rfl, 1, rfl, rfl⟩, rfl, rfl, id⟩
      · exact fails _

section
omit [Measured N]

theorem closeWrite_joins (stream : WritableStream V E N) : Joins stream stream.closeWrite := by
  rw [closeWrite]
  split
  · exact .refl stream
  · exact ⟨⟨[.close], rfl, 0, rfl, rfl⟩, rfl, rfl, id⟩

theorem abortWrite_joins (stream : WritableStream V E N) (reason : E) :
    Joins stream (stream.abortWrite reason) := by
  rw [abortWrite]
  split
  · have joins := writeError_joins stream (some (.given reason))
    exact { joins with }
  · exact .refl stream

theorem callAbort_joins (stream : WritableStream V E N) : Joins stream stream.callAbort := by
  rw [callAbort]
  split
  · dsimp only
    split
    · exact .frame rfl rfl rfl rfl id
    · exact .frame rfl rfl rfl rfl id
  · exact .refl stream

end

theorem outer_joins (stream : WritableStream V E N) {step : WriteStep V E N}
    (outer : step.outer = true) : Joins stream (stream.perform step) := by
  cases step with
  | settle failure => cases outer
  | react => cases outer
  | getWriter =>
    rw [perform]
    split
    · exact .refl stream
    · exact .frame rfl rfl rfl rfl id
  | releaseLock writer =>
    rw [perform]
    split
    · exact .frame rfl rfl rfl rfl id
    · exact .refl stream
  | write writer value =>
    rw [perform, write]
    split
    · split
      · exact .refl stream
      · exact .frame rfl rfl rfl rfl id
    · exact .refl stream
  | measured size => exact measured_joins stream size
  | close writer =>
    rw [perform]
    split
    · exact closeWrite_joins stream
    · exact .refl stream
  | abort writer reason =>
    rw [perform]
    split
    · exact abortWrite_joins stream reason
    · exact .refl stream
  | error error => exact writeError_joins stream _
  | callAbort =>
    rw [perform]
    split
    · exact callAbort_joins stream
    · exact .refl stream

section
omit [Measured N]

theorem settle_reacts (stream : WritableStream V E N) (failure : Option E) :
    Reacts stream (stream.settle failure) := by
  unfold settle
  split
  · rename_i chain _
    have head : ∀ {P : Prop}, stream.chain.head? = some .close → P := by
      intro P close
      cases (congrArg List.head? chain).symm.trans close
    split
    · exact .stays chain rfl (fun _ => nofun) rfl rfl rfl fun finishing => head finishing.1
    · exact .stays chain rfl (fun _ => nofun) rfl rfl rfl fun finishing => head finishing.1
  · rename_i chain calling
    exact .stays chain rfl (fun _ => nofun) rfl rfl rfl fun _ => calling
  · rename_i chain calling
    exact .stays chain rfl (fun _ => nofun) rfl rfl rfl fun _ => calling
  · exact .refl stream

theorem advance_reacts {broken : Bool} (chain : before.chain = link :: rest)
    (accepted : stream.accepted = before.accepted) (methods : stream.methods = before.methods)
    (status : stream.status = .closed → before.status = .closed ∨ before.Finishing) :
    Reacts before (stream.advance rest broken) where
  chain := .inr ⟨⟨link, chain⟩, rfl⟩
  accepted := accepted
  methods := methods
  status := status
  finishing finishing := by cases finishing.2
  idle _ _ := rfl

theorem fails_reacts (chain : stream.chain = link :: rest) (error : Option (Failure E)) :
    Reacts stream ((stream.writeError error).advance rest true) := by
  rw [writeError]
  split
  · exact advance_reacts chain rfl rfl .inl
  · exact advance_reacts chain rfl rfl (by rintro ⟨⟩)

end

theorem reactWrite_reacts {id : Nat} {value : V} {size : N}
    (chain : stream.chain = .write id value size :: rest) :
    Reacts stream (stream.reactWrite id size rest) := by
  have head : ∀ {P : Prop} {after : WritableStream V E N}, after.chain = stream.chain →
      after.Finishing → P := by
    rintro P after same ⟨close, _⟩
    rw [same] at close
    cases (congrArg List.head? chain).symm.trans close
  unfold reactWrite
  split
  · rename_i stage
    have waits : stream.stage ≠ .waiting → False := fun other => other stage
    split
    · exact .stays chain rfl (fun other => (waits other).elim) rfl rfl rfl (head rfl)
    · split
      · exact .stays chain rfl (fun other => (waits other).elim) rfl rfl rfl (head rfl)
      · exact .stays chain rfl (fun other => (waits other).elim) rfl rfl rfl (head rfl)
  · exact .refl stream
  · split
    · exact .stays chain rfl (fun _ => nofun) rfl rfl rfl (head rfl)
    · exact .stays chain rfl (fun _ => nofun) rfl rfl rfl (head rfl)
  · exact .stays chain rfl (fun _ => nofun) rfl rfl rfl (head rfl)
  · exact advance_reacts chain rfl rfl .inl
  · have fails := fails_reacts chain
    exact advance_reacts chain (by unfold writeError; split <;> rfl)
      (by unfold writeError; split <;> rfl) (by
        unfold writeError
        split
        · exact .inl
        · exact nofun)

omit [Measured N] in
theorem reactClose_reacts (chain : stream.chain = .close :: rest)
    (closes : stream.methods.close = true) : Reacts stream (stream.reactClose rest) := by
  unfold reactClose
  split
  · rename_i stage
    split
    · exact fails_reacts chain _
    · exact .stays chain rfl (fun other => absurd stage other) rfl rfl rfl fun finishing => by cases finishing.2
  · rename_i stage
    split
    · exact advance_reacts chain rfl rfl .inl
    · exact advance_reacts chain rfl rfl fun _ => .inr ⟨by rw [chain]; rfl, stage⟩
  · exact fails_reacts chain _
  · exact .refl stream

theorem react_reacts (closes : stream.methods.close = true) :
    Reacts stream (stream.perform .react) := by
  rw [perform]
  split
  · unfold react
    split
    · exact .refl stream
    · rename_i rest chain
      unfold reactStart
      split
      · exact advance_reacts chain rfl rfl .inl
      · exact fails_reacts chain _
      · exact .refl stream
    · rename_i chain
      exact reactWrite_reacts chain
    · rename_i chain
      exact reactClose_reacts chain closes
  · exact .refl stream

theorem react_calling (calling : stream.stage = .calling) : stream.perform .react = stream := by
  rw [perform]
  split
  · unfold react
    split
    · rfl
    · simp only [reactStart, calling]
    · simp only [reactWrite, calling]
    · simp only [reactClose, calling]
  · rfl

end WritableStream
end Chuzz.Streams
