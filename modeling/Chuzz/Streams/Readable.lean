import Chuzz.Library.Transition

/-! A default readable stream: its controller, its readers and the reactions of its start
and its pulls. Scripts run between two of these calls only, the source's among them. -/
namespace Chuzz.Streams
open Library.Transition List

/-- The numbers in which chunks are measured. -/
class Number (N : Type) where
  zero : N
  one : N
  add : N → N → N
  sub : N → N → N
  /-- `<= 0` -/
  nonpositive : N → Bool
  /-- Finite and not negative. -/
  valid : N → Bool
  valid_one : valid one = true

inductive Status where
  | readable
  | closed
  | errored
deriving DecidableEq, Repr

inductive Failure (E : Type) where
  | given (error : E)
  /-- `RangeError` of a chunk's size. -/
  | invalidSize
  /-- `TypeError` of a reader that has been released. -/
  | released
deriving DecidableEq, Repr

/-- How the promise of a read is settled. -/
inductive Answer (V E : Type) where
  | waiting
  | chunk (value : V)
  | done
  | rejected (failure : Failure E)
deriving DecidableEq, Repr

/-- Where the reactions of a pull stand. -/
inductive PullJob where
  | none
  /-- The source's `pull` is yet to be called. -/
  | call
  /-- Its promise is yet to be settled. -/
  | settle
deriving DecidableEq, Repr

/-- Reads are numbered as they are issued, readers as they are made. The last two fields
are history: the chunks that were enqueued, and whether the stream was canceled. -/
structure Stream (V E N : Type) where
  hwm : N
  queue : List (V × N) := []
  total : N
  reads : List Nat := []
  reader : Option Nat := none
  readers : Nat := 0
  status : Status := .readable
  error : Option (Failure E) := none
  closing : Bool := false
  starting : Bool := true
  started : Bool := false
  pulling : Bool := false
  again : Bool := false
  job : PullJob := .none
  answers : List (Answer V E) := []
  enqueued : List V := []
  canceled : Bool := false
deriving DecidableEq, Repr

inductive Step (V E N : Type) where
  | started
  | startFailed (error : E)
  /-- With what the size function answers for the chunk. -/
  | enqueue (value : V) (size : Except E N)
  | close
  | error (error : E)
  | cancel
  | readerCancel (reader : Nat)
  | getReader
  | read (reader : Nat)
  | releaseLock (reader : Nat)
  | pullCall
  | pulled
  | pullFailed (error : E)

/-- The promises of some reads are settled alike. -/
def settle {V E : Type} (answer : Answer V E) (answers : List (Answer V E)) (reads : List Nat) :
    List (Answer V E) :=
  reads.foldl (fun answers read => answers.set read answer) answers

namespace Stream
variable {V E N : Type}

def finish (stream : Stream V E N) : Stream V E N :=
  if stream.status = .readable then
    { stream with
      status := .closed, reads := [], answers := settle .done stream.answers stream.reads }
  else stream

variable [Number N]

def fail (stream : Stream V E N) (failure : Failure E) : Stream V E N :=
  if stream.status = .readable then
    { stream with
      status := .errored, error := some failure, queue := [], total := Number.zero, reads := []
      answers := settle (.rejected failure) stream.answers stream.reads }
  else stream

def pull (stream : Stream V E N) : Stream V E N :=
  if stream.started = false ∨ stream.status ≠ .readable ∨ stream.closing = true ∨
      stream.reads = [] ∧ Number.nonpositive (Number.sub stream.hwm stream.total) = true then
    stream
  else if stream.pulling then { stream with again := true }
  else { stream with pulling := true, job := .call }

/-- The second component tells whether the call returns. -/
def enqueue (stream : Stream V E N) (value : V) (size : Except E N) : Stream V E N × Bool :=
  if stream.status ≠ .readable ∨ stream.closing = true then (stream, false)
  else
    match stream.reads, size with
    | read :: reads, _ =>
      ({ stream with
        reads, answers := stream.answers.set read (.chunk value)
        enqueued := stream.enqueued ++ [value] }.pull, true)
    | [], .ok size =>
      if Number.valid size then
        ({ stream with
          queue := stream.queue ++ [(value, size)], total := Number.add stream.total size
          enqueued := stream.enqueued ++ [value] }.pull, true)
      else (stream.fail .invalidSize, false)
    | [], .error error => (stream.fail (.given error), false)

def close (stream : Stream V E N) : Stream V E N × Bool :=
  if stream.status ≠ .readable ∨ stream.closing = true then (stream, false)
  else
    let stream := { stream with closing := true }
    (if stream.queue = [] then stream.finish else stream, true)

/-- `cancel`, up to the reaction that tells the source. -/
def cancel (stream : Stream V E N) : Stream V E N :=
  if stream.status = .readable then
    { stream with queue := [], total := Number.zero, canceled := true }.finish
  else stream

def getReader (stream : Stream V E N) : Stream V E N :=
  if stream.reader.isSome then stream
  else { stream with reader := some stream.readers, readers := stream.readers + 1 }

def read (stream : Stream V E N) (reader : Nat) : Stream V E N :=
  if stream.reader ≠ some reader then stream
  else
    match stream.queue with
    | (value, size) :: queue =>
      let stream := { stream with
        queue, total := Number.sub stream.total size
        answers := stream.answers ++ [Answer.chunk value] }
      if stream.closing = true ∧ queue = [] then stream.finish else stream.pull
    | [] =>
      match stream.status, stream.error with
      | .closed, _ => { stream with answers := stream.answers ++ [.done] }
      | .errored, some failure =>
        { stream with answers := stream.answers ++ [.rejected failure] }
      | .errored, none => stream
      | .readable, _ =>
        { stream with
          reads := stream.reads ++ [stream.answers.length]
          answers := stream.answers ++ [Answer.waiting] }.pull

def releaseLock (stream : Stream V E N) (reader : Nat) : Stream V E N :=
  if stream.reader ≠ some reader then stream
  else
    { stream with
      reads := [], reader := none
      answers := settle (.rejected .released) stream.answers stream.reads }

/-- The promise of a pull is fulfilled. -/
def pulled (stream : Stream V E N) : Stream V E N :=
  let stream := { stream with pulling := false, job := .none }
  if stream.again then { stream with again := false }.pull else stream

def perform (stream : Stream V E N) : Step V E N → Stream V E N
  | .started =>
    if stream.starting then { stream with starting := false, started := true }.pull else stream
  | .startFailed error =>
    if stream.starting then { stream with starting := false }.fail (.given error) else stream
  | .enqueue value size => (stream.enqueue value size).1
  | .close => stream.close.1
  | .error error => stream.fail (.given error)
  | .cancel => if stream.reader.isSome then stream else stream.cancel
  | .readerCancel reader => if stream.reader = some reader then stream.cancel else stream
  | .getReader => stream.getReader
  | .read reader => stream.read reader
  | .releaseLock reader => stream.releaseLock reader
  | .pullCall => if stream.job = .call then { stream with job := .settle } else stream
  | .pulled => if stream.job = .settle then stream.pulled else stream
  | .pullFailed error =>
    if stream.job = .settle then
      { stream with pulling := false, job := .none }.fail (.given error)
    else stream

def start (hwm : N) : Stream V E N := { hwm, total := Number.zero }

def Reached : Stream V E N → Prop :=
  Reachable (∃ hwm, · = start hwm) fun before step after => before.perform step = after

omit [Number N]

/-- The chunks that reads have resolved with, in the order in which they were issued. -/
def chunks (answers : List (Answer V E)) : List V :=
  answers.filterMap fun
    | .chunk value => some value
    | _ => none

def delivered (stream : Stream V E N) : List V := chunks stream.answers

def queued (stream : Stream V E N) : List V := stream.queue.map (·.1)

/-- The reads that wait are the last ones, in the order of their requests. -/
structure Answered (stream : Stream V E N) (settled : List (Answer V E)) : Prop where
  answers : stream.answers = settled ++ List.replicate stream.reads.length .waiting
  reads : stream.reads = List.range' settled.length stream.reads.length
  past : .waiting ∉ settled
  ordered : chunks settled <+: stream.enqueued
  whole : stream.canceled = false → stream.status ≠ .errored →
    chunks settled ++ stream.queued = stream.enqueued

structure Sound (stream : Stream V E N) : Prop where
  answered : ∃ settled, stream.Answered settled
  apart : stream.reads = [] ∨ stream.queue = []
  awaited : stream.reads ≠ [] → stream.status = .readable ∧ stream.closing = false
  kept : stream.status = .readable → stream.closing = true → stream.queue ≠ []
  emptied : stream.status ≠ .readable → stream.queue = []
  open_ : stream.status = .readable → stream.canceled = false
  unlocked : stream.reader = none → stream.reads = []
  failed : stream.status = .errored → stream.error ≠ none

variable {stream after : Stream V E N} {settled : List (Answer V E)}

theorem chunks_append (first second : List (Answer V E)) :
    chunks (first ++ second) = chunks first ++ chunks second :=
  filterMap_append

theorem chunks_replicate {answer : Answer V E} (plain : chunks [answer] = []) (count : Nat) :
    chunks (List.replicate count answer) = [] := by
  induction count with
  | zero => rfl
  | succ count ih =>
    rw [replicate_succ, ← singleton_append, chunks_append, plain, ih, append_nil]

theorem settle_waiting (answer : Answer V E) (settled : List (Answer V E)) (count : Nat) :
    settle answer (settled ++ List.replicate count .waiting) (List.range' settled.length count) =
      settled ++ List.replicate count answer := by
  induction count generalizing settled with
  | zero => rfl
  | succ count ih =>
    have next := ih (settled ++ [answer])
    rw [settle] at next ⊢
    rw [List.range'_succ, foldl_cons, replicate_succ, replicate_succ,
      set_append_right _ _ (Nat.le_refl _), Nat.sub_self, set_cons_zero]
    simpa using next

theorem settle_getElem? (answer : Answer V E) (answers : List (Answer V E)) (reads : List Nat)
    (read : Nat) : (settle answer answers reads)[read]? =
      if read ∈ reads then answers[read]?.map fun _ => answer else answers[read]? := by
  induction reads generalizing answers with
  | nil => simp [settle]
  | cons first rest ih =>
    rw [settle, foldl_cons, ← settle, ih, getElem?_set]
    by_cases same : first = read
    · subst same
      by_cases inside : first < answers.length
      · simp [inside]
      · simp [inside]
    · simp [same, Ne.symm same]

theorem settle_length (answer : Answer V E) (answers : List (Answer V E)) (reads : List Nat) :
    (settle answer answers reads).length = answers.length := by
  induction reads generalizing answers with
  | nil => rfl
  | cons first rest ih =>
    rw [settle, foldl_cons, ← settle, ih, length_set]

theorem Answered.waits (answered : stream.Answered settled) {read : Nat}
    (member : read ∈ stream.reads) : stream.answers[read]? = some .waiting := by
  rw [answered.reads, mem_range'_1] at member
  rw [answered.answers, getElem?_append_right member.1, getElem?_replicate,
    if_pos (by omega)]

theorem Answered.delivered (answered : stream.Answered settled) :
    stream.delivered = chunks settled := by
  rw [Stream.delivered, answered.answers, chunks_append, chunks_replicate rfl, append_nil]

theorem Answered.all (answered : stream.Answered settled) (answer : Answer V E)
    (plain : chunks [answer] = []) (past : answer ≠ .waiting) (reads : after.reads = [])
    (answers : after.answers = settle answer stream.answers stream.reads)
    (enqueued : after.enqueued = stream.enqueued)
    (whole : after.canceled = false → after.status ≠ .errored →
      chunks settled ++ after.queued = stream.enqueued) :
    after.Answered (settled ++ List.replicate stream.reads.length answer) := by
  have same : chunks (settled ++ List.replicate stream.reads.length answer) = chunks settled := by
    rw [chunks_append, chunks_replicate plain, append_nil]
  have settles : after.answers = settled ++ List.replicate stream.reads.length answer := by
    rw [answers, answered.answers, answered.reads, length_range', settle_waiting]
  constructor
  · rw [settles, reads]
    simp
  · rw [reads]
    rfl
  · intro waits
    rcases mem_append.mp waits with old | new
    · exact answered.past old
    · exact past (eq_of_mem_replicate new).symm
  · rw [same, enqueued]
    exact answered.ordered
  · rw [same, enqueued]
    exact whole

/-- What is neither read nor written leaves the promises of the reads alone. -/
theorem Sound.frame (sound : stream.Sound) (answers : after.answers = stream.answers)
    (reads : after.reads = stream.reads) (queue : after.queue = stream.queue)
    (status : after.status = stream.status) (closing : after.closing = stream.closing)
    (enqueued : after.enqueued = stream.enqueued) (canceled : after.canceled = stream.canceled)
    (reader : after.reader = none → stream.reader = none) (error : after.error = stream.error) :
    after.Sound := by
  obtain ⟨settled, answered⟩ := sound.answered
  constructor
  · refine ⟨settled, ?_, ?_, answered.past, ?_, ?_⟩
    · rw [answers, reads]
      exact answered.answers
    · rw [reads]
      exact answered.reads
    · rw [enqueued]
      exact answered.ordered
    · rw [canceled, status, enqueued, queued, queue]
      exact answered.whole
  · rw [reads, queue]
    exact sound.apart
  · rw [reads, status, closing]
    exact sound.awaited
  · rw [status, closing, queue]
    exact sound.kept
  · rw [status, queue]
    exact sound.emptied
  · rw [status, canceled]
    exact sound.open_
  · rw [reads]
    exact fun free => sound.unlocked (reader free)
  · rw [status, error]
    exact sound.failed

theorem finish_sound (answered : stream.Answered settled) (readable : stream.status = .readable)
    (queue : stream.queue = []) : stream.finish.Sound := by
  have finished : stream.finish = { stream with
      status := .closed, reads := [], answers := settle .done stream.answers stream.reads } := by
    rw [finish, if_pos readable]
  rw [finished]
  constructor
  · refine ⟨_, answered.all .done rfl (by simp) rfl rfl rfl ?_⟩
    intro running _
    have whole := answered.whole running (by simp [readable])
    exact whole
  · exact .inl rfl
  · exact fun waits => absurd rfl waits
  · exact fun open_ => by cases open_
  · exact fun _ => queue
  · exact fun open_ => by cases open_
  · exact fun _ => rfl
  · exact fun failed => by cases failed

section
variable [Number N]

theorem pull_sound (sound : stream.Sound) : stream.pull.Sound := by
  rw [pull]
  split
  · exact sound
  · split
    · exact sound.frame rfl rfl rfl rfl rfl rfl rfl id rfl
    · exact sound.frame rfl rfl rfl rfl rfl rfl rfl id rfl

theorem fail_sound (sound : stream.Sound) (failure : Failure E) : (stream.fail failure).Sound := by
  rw [fail]
  split
  · obtain ⟨settled, answered⟩ := sound.answered
    constructor
    · refine ⟨_, answered.all (.rejected failure) rfl (by simp) rfl rfl rfl ?_⟩
      exact fun _ running => absurd rfl running
    · exact .inl rfl
    · exact fun waits => absurd rfl waits
    · exact fun open_ => by cases open_
    · exact fun _ => rfl
    · exact fun open_ => by cases open_
    · exact fun _ => rfl
    · exact fun _ none => by cases none
  · exact sound

theorem enqueue_sound (sound : stream.Sound) (value : V) (size : Except E N) :
    (stream.enqueue value size).1.Sound := by
  obtain ⟨settled, answered⟩ := sound.answered
  unfold enqueue
  split
  · exact sound
  · rename_i writable
    rw [not_or, ne_eq, not_not] at writable
    obtain ⟨readable, open_⟩ := writable
    have running := sound.open_ readable
    have whole := answered.whole running (by simp [readable])
    split
    · rename_i read reads waits
      have nothing : stream.queue = [] :=
        sound.apart.resolve_left (by simp [waits])
      have first : read = settled.length ∧
          reads = List.range' (settled.length + 1) reads.length := by
        have numbered := answered.reads
        rw [waits, length_cons, List.range'_succ] at numbered
        exact List.cons.inj numbered
      have given : stream.answers.set read (.chunk value) =
          (settled ++ [.chunk value]) ++ List.replicate reads.length .waiting := by
        rw [answered.answers, waits, length_cons, replicate_succ, first.1,
          set_append_right _ _ (Nat.le_refl _), Nat.sub_self, set_cons_zero,
          append_assoc]
        rfl
      have all : chunks (settled ++ [.chunk value]) = stream.enqueued ++ [value] := by
        rw [chunks_append, ← whole, queued, nothing]
        simp [chunks]
      apply pull_sound
      constructor
      · refine ⟨settled ++ [.chunk value], given, ?_, ?_, ?_, ?_⟩
        · rw [length_append, length_singleton]
          exact first.2
        · simp [answered.past]
        · rw [all]
        · intro _ _
          rw [all, queued]
          exact (congrArg (_ ++ List.map _ ·) nothing).trans (append_nil _)
      · exact .inr nothing
      · exact fun _ => ⟨readable, by simpa using open_⟩
      · exact fun _ closed => absurd closed open_
      · exact fun ended => absurd readable ended
      · exact fun _ => running
      · intro free
        have none := sound.unlocked free
        rw [waits] at none
        contradiction
      · exact sound.failed
    · rename_i waits
      split
      · rename_i size _
        apply pull_sound
        constructor
        · refine ⟨settled, answered.answers, answered.reads, answered.past, ?_, ?_⟩
          · exact answered.ordered.trans (prefix_append _ _)
          · intro _ _
            rw [← whole]
            simp [queued]
        · exact .inl waits
        · exact fun some => absurd waits some
        · exact fun _ _ => by simp
        · exact fun ended => absurd readable ended
        · exact fun _ => running
        · exact sound.unlocked
        · exact sound.failed
      · exact fail_sound sound _
    · exact fail_sound sound _

omit [Number N] in
theorem close_sound (sound : stream.Sound) : stream.close.1.Sound := by
  obtain ⟨settled, answered⟩ := sound.answered
  rw [close]
  split
  · exact sound
  · rename_i writable
    rw [not_or, ne_eq, not_not] at writable
    obtain ⟨readable, open_⟩ := writable
    have closing : ({ stream with closing := true } : Stream V E N).Answered settled :=
      { answered with }
    dsimp only
    split
    · rename_i nothing
      exact finish_sound closing readable nothing
    · rename_i some
      constructor
      · exact ⟨settled, closing⟩
      · exact sound.apart
      · exact fun waits => absurd (sound.apart.resolve_left waits) some
      · exact fun _ _ => some
      · exact sound.emptied
      · exact sound.open_
      · exact sound.unlocked
      · exact sound.failed

theorem cancel_sound (sound : stream.Sound) : stream.cancel.Sound := by
  obtain ⟨settled, answered⟩ := sound.answered
  rw [cancel]
  split
  · rename_i readable
    have emptied : ({ stream with
        queue := [], total := Number.zero, canceled := true } : Stream V E N).Answered settled :=
      { answered with whole := fun running => by cases running }
    exact finish_sound emptied readable rfl
  · exact sound

theorem read_sound (sound : stream.Sound) (reader : Nat) : (stream.read reader).Sound := by
  obtain ⟨settled, answered⟩ := sound.answered
  unfold read
  split
  · exact sound
  · rename_i held
    split
    · rename_i value size queue chunks_
      have readable : stream.status = .readable := by
        by_contra ended
        rw [sound.emptied ended] at chunks_
        contradiction
      have nothing : stream.reads = [] :=
        sound.apart.resolve_right (by simp [chunks_])
      have running := sound.open_ readable
      have whole := answered.whole running (by simp [readable])
      have after : ({ stream with
          queue, total := Number.sub stream.total size
          answers := stream.answers ++ [Answer.chunk value] } : Stream V E N).Answered
          (settled ++ [.chunk value]) := by
        have answers := answered.answers
        have all : chunks (settled ++ [.chunk value]) ++ queue.map (·.1) = stream.enqueued := by
          rw [← whole, queued, chunks_, chunks_append]
          simp [chunks]
        constructor
        · rw [answers, nothing]
          simp
        · rw [nothing]
          rfl
        · simp [answered.past]
        · rw [← all]
          exact prefix_append _ _
        · exact fun _ _ => all
      dsimp only
      split
      · rename_i last
        exact finish_sound after readable last.2
      · rename_i more
        apply pull_sound
        constructor
        · exact ⟨_, after⟩
        · exact .inl nothing
        · exact fun waits => absurd nothing waits
        · exact fun _ closing none => more ⟨closing, none⟩
        · exact fun ended => absurd readable ended
        · exact fun _ => running
        · exact fun _ => nothing
        · exact sound.failed
    · rename_i nothing
      -- an answer that is no chunk, with none waiting
      have more : ∀ answer : Answer V E, answer ≠ .waiting → chunks [answer] = [] →
          stream.status ≠ .readable →
          ({ stream with answers := stream.answers ++ [answer] } : Stream V E N).Sound := by
        intro answer past plain ended
        have none : stream.reads = [] := by
          by_contra waits
          exact ended (sound.awaited waits).1
        have answers := answered.answers
        have same : chunks (settled ++ [answer]) = chunks settled := by
          rw [chunks_append, plain, append_nil]
        refine { sound with answered := ⟨settled ++ [answer], ?_, ?_, ?_, ?_, ?_⟩ }
        · rw [answers, none]
          simp
        · rw [none]
          rfl
        · simp [answered.past, Ne.symm past]
        · rw [same]
          exact answered.ordered
        · rw [same]
          exact answered.whole
      split
      · rename_i closed
        exact more .done (by simp) rfl (by simp [closed])
      · rename_i failure errored _
        exact more (.rejected failure) (by simp) rfl (by simp [errored])
      · exact sound
      · rename_i readable
        have open_ : stream.closing = false := by
          by_contra closing
          exact sound.kept readable (by simpa using closing) nothing
        apply pull_sound
        constructor
        · refine ⟨settled, ?_, ?_, answered.past, answered.ordered, answered.whole⟩
          · dsimp only
            rw [length_append, length_singleton, replicate_succ', ← append_assoc,
              ← answered.answers]
          · dsimp only
            rw [length_append, length_singleton, List.range'_concat, ← answered.reads,
              answered.answers]
            simp
        · exact .inr nothing
        · exact fun _ => ⟨readable, open_⟩
        · exact sound.kept
        · exact sound.emptied
        · exact sound.open_
        · intro free
          rw [ne_eq, not_not] at held
          exact absurd (held.symm.trans free) (by simp)
        · exact sound.failed

omit [Number N] in
theorem releaseLock_sound (sound : stream.Sound) (reader : Nat) :
    (stream.releaseLock reader).Sound := by
  obtain ⟨settled, answered⟩ := sound.answered
  rw [releaseLock]
  split
  · exact sound
  · constructor
    · exact ⟨_, answered.all (.rejected .released) rfl (by simp) rfl rfl rfl
        answered.whole⟩
    · exact .inl rfl
    · exact fun waits => absurd rfl waits
    · exact sound.kept
    · exact sound.emptied
    · exact sound.open_
    · exact fun _ => rfl
    · exact sound.failed

theorem perform_sound (sound : stream.Sound) (step : Step V E N) : (stream.perform step).Sound := by
  cases step with
  | started =>
    rw [perform]
    split
    · exact pull_sound (sound.frame rfl rfl rfl rfl rfl rfl rfl id rfl)
    · exact sound
  | startFailed error =>
    rw [perform]
    split
    · apply fail_sound
      exact sound.frame rfl rfl rfl rfl rfl rfl rfl id rfl
    · exact sound
  | enqueue value size => exact enqueue_sound sound value size
  | close => exact close_sound sound
  | error error => exact fail_sound sound _
  | cancel =>
    rw [perform]
    split
    · exact sound
    · exact cancel_sound sound
  | readerCancel reader =>
    rw [perform]
    split
    · exact cancel_sound sound
    · exact sound
  | getReader =>
    rw [perform, getReader]
    split
    · exact sound
    · exact sound.frame rfl rfl rfl rfl rfl rfl rfl (fun free => by cases free) rfl
  | read reader => exact read_sound sound reader
  | releaseLock reader => exact releaseLock_sound sound reader
  | pullCall =>
    rw [perform]
    split
    · exact sound.frame rfl rfl rfl rfl rfl rfl rfl id rfl
    · exact sound
  | pulled =>
    rw [perform]
    split
    · rw [pulled]
      split
      · exact pull_sound (sound.frame rfl rfl rfl rfl rfl rfl rfl id rfl)
      · exact sound.frame rfl rfl rfl rfl rfl rfl rfl id rfl
    · exact sound
  | pullFailed error =>
    rw [perform]
    split
    · apply fail_sound
      exact sound.frame rfl rfl rfl rfl rfl rfl rfl id rfl
    · exact sound

theorem start_sound (hwm : N) : (start hwm : Stream V E N).Sound where
  answered := ⟨[], rfl, rfl, not_mem_nil, prefix_rfl, fun _ _ => rfl⟩
  apart := .inl rfl
  awaited waits := absurd rfl waits
  kept _ closing := by cases closing
  emptied _ := rfl
  open_ _ := rfl
  unlocked _ := rfl
  failed failed := by cases failed

theorem reached_sound (run : stream.Reached) : stream.Sound := by
  apply Reachable.invariant _ _ run
  · rintro _ ⟨hwm, rfl⟩
    exact start_sound hwm
  · rintro before step _ _ sound rfl
    exact perform_sound sound step

omit [Number N] in
theorem close_done (sound : stream.Sound) {read : Nat} (waits : read ∈ stream.reads) :
    stream.close.1.answers[read]? = some .done ∧ stream.close.1.reads = [] := by
  obtain ⟨settled, answered⟩ := sound.answered
  have some : stream.reads ≠ [] := ne_nil_of_mem waits
  obtain ⟨readable, open_⟩ := sound.awaited some
  have nothing := sound.apart.resolve_left some
  rw [close, if_neg (by simp [readable, open_])]
  dsimp only
  rw [if_pos nothing, finish, if_pos readable]
  refine ⟨?_, rfl⟩
  rw [settle_getElem?, if_pos waits, answered.waits waits]
  rfl

end

end Stream
end Chuzz.Streams
