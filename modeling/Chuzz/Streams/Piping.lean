import Chuzz.Streams.Pipe
import Chuzz.Streams.Tee

/-! What a pipe keeps in every run: where it stands, which chunks have come how far, the locks,
and the calls by which it ends its streams. -/
namespace Chuzz.Streams
open Library Library.Transition List

namespace Pipe
variable {V E N : Type}

/-- The calls by which a failed pipe should have ended its streams. -/
def cleanup (pipe : Pipe V E N) : List Ending :=
  (if pipe.sourceDone then [.close] else []) ++
    (if pipe.options.preventAbort then [] else [.abort]) ++
    if pipe.options.preventCancel || pipe.sourceDone then [] else [.cancel]

/-- Every answer is given, and the chunks among them are those of the pipe. -/
def Idle (pipe : Pipe V E N) : Prop :=
  .waiting ∉ pipe.source.answers ∧ pipe.source.delivered = pipe.skipped ++ pipe.written

/-- The locks of a pipe that has not come to its end. -/
structure Held (pipe : Pipe V E N) : Prop where
  reader : pipe.source.reader = some pipe.reader
  writer : pipe.destination.writer = some pipe.writer
  oldReader : pipe.reader < pipe.source.readers
  oldWriter : pipe.writer < pipe.destination.writers

structure Released (pipe : Pipe V E N) : Prop where
  reader : pipe.source.reader ≠ some pipe.reader
  writer : pipe.destination.writer ≠ some pipe.writer
  oldReader : pipe.reader < pipe.source.readers
  oldWriter : pipe.writer < pipe.destination.writers

/-- The locks of a pipe in its loop, which has ended neither stream. -/
structure Running (pipe : Pipe V E N) : Prop extends pipe.Held where
  canceled : pipe.source.canceled = pipe.precanceled
  endings : pipe.endings = if pipe.sourceDone then [.close] else []
  effective : pipe.effective = false
  telling : pipe.telling = false

/-- What holds while a promise is awaited and has not been rejected. -/
def Awaits (pipe : Pipe V E N) : Awaited → Prop
  | .ready => pipe.Idle ∧ pipe.sent.length = pipe.fulfilled ∧ pipe.sourceDone = false
  | .read request => pipe.sent.length = pipe.fulfilled ∧ pipe.sourceDone = false ∧
      ∃ front last, pipe.source.answers = front ++ [last] ∧ front.length = request ∧
        .waiting ∉ front ∧ Stream.chunks front = pipe.skipped ++ pipe.written ∧
        Tee.Honest pipe.source last
  | .write id => pipe.Idle ∧ pipe.sourceDone = false ∧
      ∃ front value, pipe.sent = front ++ [(id, value)] ∧ front.length = pipe.fulfilled
  | .close => pipe.sent.length = pipe.fulfilled ∧ pipe.sourceDone = true ∧
      pipe.options.preventClose = false

/-- What a promise tells that is fulfilled. -/
def Tells (pipe : Pipe V E N) : Awaited → Prop
  | .ready | .read _ => True
  | .write id => pipe.destination.methods.write = true → id ∈ pipe.destination.calls
  | .close => pipe.destination.status = .closed

/-- The abort is on its way to the sink, or has come there. -/
def Aborts (pipe : Pipe V E N) : Prop :=
  pipe.effective = true → pipe.destination.aborting ≠ none ∨
    (pipe.destination.methods.abort = true → .abort ∈ pipe.destination.trace)

/-- The destination has been aborted if it should be, and the source has not been canceled. -/
structure Failing (pipe : Pipe V E N) : Prop extends pipe.Held where
  telling : pipe.telling = false
  endings : pipe.endings = (if pipe.sourceDone then [.close] else []) ++
    if pipe.options.preventAbort then [] else [.abort]
  abort : pipe.options.preventAbort = false → pipe.destination.status ≠ .writable
  aborts : pipe.Aborts

structure Cleaned (pipe : Pipe V E N) : Prop where
  endings : pipe.endings = pipe.cleanup
  abort : pipe.options.preventAbort = false → pipe.destination.status ≠ .writable
  cancel : pipe.options.preventCancel = false → pipe.source.status ≠ .readable
  aborts : pipe.Aborts

def Stands (pipe : Pipe V E N) : Point E → Prop
  | .refused => pipe.endings = [] ∧ pipe.sent = []
  | .awaiting awaited verdict => pipe.Running ∧ match verdict with
    | .pending => pipe.Awaits awaited
    | .fulfilled => pipe.Awaits awaited ∧ pipe.Tells awaited
    | .rejected _ => True
  | .measuring => pipe.Running ∧ pipe.sent.length = pipe.fulfilled ∧ pipe.sourceDone = false ∧
      .waiting ∉ pipe.source.answers ∧ ∃ value, pipe.destination.measuring = [value] ∧
        pipe.source.delivered = pipe.skipped ++ pipe.written ++ [value]
  | .aborting _ => pipe.Failing
  | .cleaning _ => pipe.Held ∧ pipe.Cleaned
  | .resolved => pipe.Released ∧ pipe.sourceDone = true ∧ pipe.sent.length = pipe.fulfilled ∧
      (pipe.options.preventClose = false → pipe.destination.status = .closed) ∧
      pipe.endings = if pipe.options.preventClose then [] else [.close]
  | .rejected _ => pipe.Released ∧ pipe.Cleaned ∧ pipe.telling = false ∧
      (pipe.effective = true → pipe.destination.methods.abort = true →
        .abort ∈ pipe.destination.trace)

/-- What holds wherever the pipe stands. -/
structure Kept (pipe : Pipe V E N) : Prop where
  source : pipe.source.Sound
  destination : pipe.destination.Ordered
  initial : pipe.skipped ++ pipe.written <+: pipe.source.enqueued
  keys : (pipe.sent.map Prod.fst).Pairwise (· < ·)
  bound : ∀ id ∈ pipe.sent.map Prod.fst, id < pipe.destination.accepted
  heard : pipe.destination.methods.write = true →
    ∀ id ∈ (pipe.sent.map Prod.fst).take pipe.fulfilled, id ∈ pipe.destination.calls
  count : pipe.fulfilled ≤ pipe.sent.length ∧ pipe.sent.length ≤ pipe.fulfilled + 1
  done : pipe.sourceDone = true → pipe.source.status = .closed ∧
    (pipe.precanceled = false → pipe.skipped ++ pipe.written = pipe.source.enqueued)

structure Sound (pipe : Pipe V E N) : Prop extends pipe.Kept where
  stands : pipe.Stands pipe.point

variable {pipe : Pipe V E N} {awaited : Awaited}

theorem outcome_of_verdict (fulfilled : pipe.verdict awaited = .fulfilled) :
    pipe.outcome awaited = .fulfilled := by
  unfold verdict at fulfilled
  split at fulfilled
  · cases fulfilled
  · cases fulfilled
  · exact fulfilled

theorem Kept.tells (kept : pipe.Kept)
    (fulfilled : pipe.verdict awaited = .fulfilled) : pipe.Tells awaited := by
  have outcome := outcome_of_verdict fulfilled
  cases awaited with
  | ready => trivial
  | read request => trivial
  | write id =>
    intro method
    unfold Pipe.outcome at outcome
    dsimp only at outcome
    split at outcome
    · rename_i writes
      refine kept.destination.called id writes ?_ method
      split at outcome
      · rename_i stage
        rw [stage]
        rfl
      · cases outcome
      · cases outcome
    · cases outcome
  | close =>
    unfold Pipe.outcome at outcome
    dsimp only at outcome
    split at outcome
    · cases outcome
    · split at outcome
      · assumption
      · cases outcome

theorem Kept.await (kept : pipe.Kept) (running : pipe.Running)
    (awaits : pipe.Awaits awaited) : (pipe.await awaited).Sound where
  toKept := { kept with }
  stands := by
    refine ⟨⟨{ running with },
      running.canceled, running.endings, running.effective, running.telling⟩, ?_⟩
    split
    · exact awaits
    · rename_i fulfilled
      exact ⟨awaits, kept.tells fulfilled⟩
    · trivial

theorem Sound.watch (sound : pipe.Sound) : pipe.watch.Sound := by
  unfold Pipe.watch
  split
  · rename_i awaited point
    have stands := sound.stands
    rw [point] at stands
    exact sound.toKept.await stands.1 stands.2
  · exact sound

section
variable {source : Stream V E N}

theorem answers_settles (past : .waiting ∉ pipe.source.answers)
    (settles : Stream.Settles pipe.source source) : source.answers = pipe.source.answers := by
  apply ext_getElem?
  intro read
  by_cases inside : read < pipe.source.answers.length
  · have here := getElem?_eq_getElem inside
    rw [settles.settled read _ here, here]
    intro waits
    exact past (waits ▸ getElem_mem inside)
  · rw [getElem?_eq_none (Nat.le_of_not_lt inside),
      getElem?_eq_none (by rw [settles.length]; omega)]

theorem Kept.ofSource (kept : pipe.Kept) (sound : source.Sound)
    (later : Stream.Later pipe.source source) : Kept { pipe with source } where
  source := sound
  destination := kept.destination
  initial := kept.initial.trans later.enqueued
  keys := kept.keys
  bound := kept.bound
  heard := kept.heard
  count := kept.count
  done done := by
    obtain ⟨closed, whole⟩ := kept.done done
    obtain ⟨status, _, enqueued, _⟩ := later.ended (by simp [closed])
    refine ⟨status.trans closed, fun running => ?_⟩
    dsimp only
    rw [enqueued]
    exact whole running

theorem Awaits.settles {awaited : Awaited} (awaits : pipe.Awaits awaited)
    (settles : Stream.Settles pipe.source source) (later : Stream.Later pipe.source source) :
    Awaits { pipe with source } awaited := by
  have idles : pipe.Idle → Idle { pipe with source } := by
    rintro ⟨past, delivered⟩
    have same := answers_settles past settles
    constructor
    · dsimp only
      rwa [same]
    · rw [Stream.delivered] at delivered ⊢
      rwa [same]
  cases awaited with
  | ready => exact ⟨idles awaits.1, awaits.2⟩
  | read request =>
    obtain ⟨count, running, front, last, answers, length, past, chunks, honest⟩ := awaits
    obtain ⟨next, same, _, done, rejected⟩ := settles.last later answers past
    exact ⟨count, running, front, next, same, length, past, chunks, done honest.1,
      rejected honest.2⟩
  | write id => exact ⟨idles awaits.1, awaits.2⟩
  | close => exact awaits

theorem Held.settles (held : pipe.Held) (settles : Stream.Settles pipe.source source)
    (readers : pipe.source.readers ≤ source.readers) : Held { pipe with source } :=
  ⟨settles.reader.trans held.reader, held.writer, Nat.lt_of_lt_of_le held.oldReader readers,
    held.oldWriter⟩

theorem Running.settles (running : pipe.Running) (settles : Stream.Settles pipe.source source)
    (readers : pipe.source.readers ≤ source.readers)
    (canceled : source.canceled = pipe.source.canceled) : Running { pipe with source } :=
  ⟨running.toHeld.settles settles readers, canceled.trans running.canceled, running.endings,
    running.effective, running.telling⟩

theorem Released.ofSource (released : pipe.Released)
    (readers : pipe.source.readers ≤ source.readers ∧ (source.reader = pipe.source.reader ∨
      source.reader = none ∨ source.reader = some pipe.source.readers)) :
    Released { pipe with source } := by
  refine ⟨fun held => ?_, released.writer, Nat.lt_of_lt_of_le released.oldReader readers.1,
    released.oldWriter⟩
  rcases readers.2 with same | none | new
  · exact released.reader (same.symm.trans held)
  · cases none.symm.trans held
  · obtain same := Option.some.inj (new.symm.trans held)
    exact Nat.lt_irrefl _ (same ▸ released.oldReader)

theorem Cleaned.later (cleaned : pipe.Cleaned) (later : Stream.Later pipe.source source) :
    Cleaned { pipe with source } where
  endings := cleaned.endings
  abort := cleaned.abort
  cancel free := (later.ended (cleaned.cancel free)).1 ▸ cleaned.cancel free
  aborts := cleaned.aborts

variable [Number N]

theorem Stands.ofSource {point : Point E} (stands : pipe.Stands point)
    (sound : pipe.source.Sound) {step : Step V E N} (foreign : step.uses pipe.reader = false) :
    Stands { pipe with source := pipe.source.perform step } point := by
  have later := Stream.perform_later pipe.source step
  have readers := Stream.perform_reader pipe.source step
  have settles := fun held : pipe.Held => Stream.perform_settles sound held.reader foreign
  cases point with
  | refused => exact stands
  | awaiting awaited verdict =>
    obtain ⟨running, awaits⟩ := stands
    obtain ⟨settles, canceled⟩ := settles running.toHeld
    refine ⟨running.settles settles readers.1 canceled, ?_⟩
    cases verdict with
    | pending => exact Awaits.settles awaits settles later
    | fulfilled =>
      refine ⟨awaits.1.settles settles later, ?_⟩
      cases awaited <;> exact awaits.2
    | rejected trouble => trivial
  | measuring =>
    obtain ⟨running, count, open_, past, value, measuring, delivered⟩ := stands
    obtain ⟨settles, canceled⟩ := settles running.toHeld
    have same := answers_settles past settles
    refine ⟨running.settles settles readers.1 canceled, count, open_, ?_, value, measuring, ?_⟩
    · dsimp only
      rwa [same]
    · rw [Stream.delivered] at delivered ⊢
      rwa [same]
  | aborting trouble =>
    exact ⟨stands.toHeld.settles (settles stands.toHeld).1 readers.1, stands.telling,
      stands.endings, stands.abort, stands.aborts⟩
  | cleaning trouble =>
    exact ⟨stands.1.settles (settles stands.1).1 readers.1, stands.2.later later⟩
  | resolved => exact ⟨stands.1.ofSource readers, stands.2⟩
  | rejected trouble =>
    exact ⟨stands.1.ofSource readers, stands.2.1.later later, stands.2.2⟩

theorem Sound.ofSource (sound : pipe.Sound) {step : Step V E N}
    (foreign : step.uses pipe.reader = false) :
    Sound { pipe with source := pipe.source.perform step } where
  toKept := sound.toKept.ofSource (Stream.perform_sound sound.source step)
    (Stream.perform_later pipe.source step)
  stands := sound.stands.ofSource sound.source foreign

end

section
variable {destination : WritableStream V E N}

theorem Kept.ofDestination (kept : pipe.Kept) (ordered : destination.Ordered)
    (later : WritableStream.Later pipe.destination destination) :
    Kept { pipe with destination } where
  source := kept.source
  destination := ordered
  initial := kept.initial
  keys := kept.keys
  bound id member := Nat.lt_of_lt_of_le (kept.bound id member) later.accepted
  heard method id member := later.calls.subset (kept.heard (later.methods ▸ method) id member)
  count := kept.count
  done := kept.done

theorem Tells.later {awaited : Awaited} (tells : pipe.Tells awaited)
    (later : WritableStream.Later pipe.destination destination) :
    Tells { pipe with destination } awaited := by
  cases awaited with
  | ready => trivial
  | read request => trivial
  | write id => exact fun method => later.calls.subset (tells (later.methods ▸ method))
  | close =>
    have closed : pipe.destination.status = .closed := tells
    exact (later.ended (by simp [closed])).trans closed

theorem Aborts.later (aborts : pipe.Aborts)
    (later : WritableStream.Later pipe.destination destination) :
    Aborts { pipe with destination } := by
  intro effective
  have told := later.aborted (aborts effective)
  rwa [later.methods]

theorem Cleaned.ofDestination (cleaned : pipe.Cleaned)
    (later : WritableStream.Later pipe.destination destination) :
    Cleaned { pipe with destination } where
  endings := cleaned.endings
  abort free := later.ended (cleaned.abort free) ▸ cleaned.abort free
  cancel := cleaned.cancel
  aborts := cleaned.aborts.later later

theorem Released.ofDestination (released : pipe.Released)
    (writers : pipe.destination.writers ≤ destination.writers ∧
      (destination.writer = pipe.destination.writer ∨ destination.writer = none ∨
        destination.writer = some pipe.destination.writers)) :
    Released { pipe with destination } := by
  refine ⟨released.reader, fun held => ?_, released.oldReader,
    Nat.lt_of_lt_of_le released.oldWriter writers.1⟩
  rcases writers.2 with same | none | new
  · exact released.writer (same.symm.trans held)
  · cases none.symm.trans held
  · obtain same := Option.some.inj (new.symm.trans held)
    exact Nat.lt_irrefl _ (same ▸ released.oldWriter)

theorem Held.ofDestination (held : pipe.Held) (writer : destination.writer = pipe.destination.writer)
    (writers : pipe.destination.writers ≤ destination.writers) : Held { pipe with destination } :=
  ⟨held.reader, writer.trans held.writer, held.oldReader,
    Nat.lt_of_lt_of_le held.oldWriter writers⟩

theorem Running.ofDestination (running : pipe.Running)
    (writer : destination.writer = pipe.destination.writer)
    (writers : pipe.destination.writers ≤ destination.writers) :
    Running { pipe with destination } :=
  ⟨running.toHeld.ofDestination writer writers, running.canceled, running.endings,
    running.effective, running.telling⟩

variable [Measured N]

theorem Stands.ofDestination {point : Point E} (stands : pipe.Stands point)
    {step : WriteStep V E N} (foreign : step.uses pipe.writer = false)
    (apart : point = .measuring → ∀ size, step ≠ .measured size) :
    Stands { pipe with destination := pipe.destination.perform step } point := by
  have later := WritableStream.perform_later pipe.destination step
  have writers := WritableStream.perform_writer pipe.destination step
  have still : pipe.Held → (pipe.destination.perform step).writer = pipe.destination.writer := by
    intro held
    by_cases measured : ∃ size, step = .measured size
    · obtain ⟨size, rfl⟩ := measured
      exact (WritableStream.measured_writer pipe.destination size).1
    · exact (WritableStream.perform_held held.writer foreign
        fun size same => measured ⟨size, same⟩).writer
  cases point with
  | refused => exact stands
  | awaiting awaited verdict =>
    obtain ⟨running, awaits⟩ := stands
    refine ⟨running.ofDestination (still running.toHeld) writers.1, ?_⟩
    cases verdict with
    | pending => cases awaited <;> exact awaits
    | fulfilled => exact ⟨by cases awaited <;> exact awaits.1, awaits.2.later later⟩
    | rejected trouble => trivial
  | measuring =>
    obtain ⟨running, count, open_, past, value, measuring, delivered⟩ := stands
    have same := WritableStream.perform_held running.writer foreign (apart rfl)
    exact ⟨running.ofDestination same.writer writers.1, count, open_, past, value,
      same.measuring.trans measuring, delivered⟩
  | aborting trouble =>
    exact ⟨stands.toHeld.ofDestination (still stands.toHeld) writers.1, stands.telling,
      stands.endings, fun free => later.ended (stands.abort free) ▸ stands.abort free,
      Aborts.later stands.aborts later⟩
  | cleaning trouble =>
    exact ⟨stands.1.ofDestination (still stands.1) writers.1, stands.2.ofDestination later⟩
  | resolved =>
    obtain ⟨released, done, count, closed, endings⟩ := stands
    refine ⟨released.ofDestination writers, done, count, fun free => ?_, endings⟩
    exact (later.ended (by simp [closed free])).trans (closed free)
  | rejected trouble =>
    obtain ⟨released, cleaned, telling, told⟩ := stands
    refine ⟨released.ofDestination writers, cleaned.ofDestination later, telling, ?_⟩
    exact fun effective method =>
      later.trace.subset (told effective (later.methods ▸ method))

theorem Sound.ofDestination (sound : pipe.Sound) {step : WriteStep V E N}
    (foreign : step.uses pipe.writer = false)
    (apart : pipe.point = .measuring → ∀ size, step ≠ .measured size) :
    Sound { pipe with destination := pipe.destination.perform step } where
  toKept := sound.toKept.ofDestination (WritableStream.perform_ordered sound.destination step)
    (WritableStream.perform_later pipe.destination step)
  stands := sound.stands.ofDestination foreign apart

end

section
variable [Measured N]

theorem Kept.conclude (kept : pipe.Kept) (held : pipe.Held) (point : Point E) :
    (pipe.conclude point).Kept ∧ (pipe.conclude point).Released := by
  have later := Stream.perform_later pipe.source (.releaseLock pipe.reader)
  have reader : (pipe.source.releaseLock pipe.reader).reader = none ∧
      (pipe.source.releaseLock pipe.reader).readers = pipe.source.readers := by
    rw [Stream.releaseLock, if_neg (not_not.mpr held.reader)]
    exact ⟨rfl, rfl⟩
  have writer : (pipe.destination.perform (.releaseLock pipe.writer)).writer = none ∧
      (pipe.destination.perform (.releaseLock pipe.writer)).writers =
        pipe.destination.writers := by
    rw [WritableStream.perform, if_pos held.writer]
    exact ⟨rfl, rfl⟩
  have freed := kept.ofSource (Stream.releaseLock_sound kept.source pipe.reader) later
  have ended := freed.ofDestination
    (WritableStream.perform_ordered freed.destination (.releaseLock pipe.writer))
    (WritableStream.perform_later _ _)
  refine ⟨{ ended with }, ?_⟩
  constructor
  · rw [Pipe.conclude]
    rw [reader.1]
    rintro ⟨⟩
  · rw [Pipe.conclude]
    rw [writer.1]
    rintro ⟨⟩
  · rw [Pipe.conclude]
    rw [reader.2]
    exact held.oldReader
  · rw [Pipe.conclude]
    rw [writer.2]
    exact held.oldWriter

theorem cancel_ended (stream : Stream V E N) : stream.cancel.status ≠ .readable := by
  rw [Stream.cancel]
  split
  · rename_i readable
    rw [Stream.finish, if_pos readable]
    rintro ⟨⟩
  · assumption

theorem Kept.cancelSource (kept : pipe.Kept) (failing : pipe.Failing) (trouble : Trouble E) :
    (pipe.cancelSource trouble).Sound := by
  unfold Pipe.cancelSource
  split
  · rename_i spared
    refine ⟨{ kept with }, { failing with }, ⟨?_, failing.abort, ?_, failing.aborts⟩⟩
    · rw [cleanup]
      rw [if_pos spared, append_nil]
      exact failing.endings
    · intro free
      rw [free, Bool.false_or] at spared
      rw [(kept.done spared).1]
      nofun
  · rename_i meant
    have later := Stream.cancel_later pipe.source
    have locked : Stream.Locked pipe.source pipe.source.cancel := Stream.Locked.cancel ⟨rfl, rfl⟩
    have next := kept.ofSource (Stream.cancel_sound kept.source) later
    refine ⟨{ next with }, ⟨locked.1.trans failing.reader, failing.writer,
      locked.2 ▸ failing.oldReader, failing.oldWriter⟩,
      ⟨?_, failing.abort, fun _ => cancel_ended pipe.source, failing.aborts⟩⟩
    rw [cleanup]
    rw [if_neg meant, failing.endings]

variable [Throwable E]

theorem Kept.fail (kept : pipe.Kept) (running : pipe.Running) (trouble : Trouble E) :
    (pipe.fail trouble).Sound := by
  unfold Pipe.fail
  split
  · rename_i spared
    apply kept.cancelSource
    refine ⟨running.toHeld, running.telling, ?_, ?_, ?_⟩
    · rw [if_pos spared, append_nil]
      exact running.endings
    · intro free
      cases spared.symm.trans free
    · intro effective
      cases running.effective.symm.trans effective
  · rename_i meant
    have meant : pipe.options.preventAbort = false := by simpa using meant
    have later := WritableStream.abortWrite_later pipe.destination
      (Throwable.value trouble : E)
    have still := WritableStream.abortWrite_still pipe.destination
      (Throwable.value trouble : E)
    have performs : pipe.destination.perform (.abort (some pipe.writer) (Throwable.value trouble)) =
        pipe.destination.abortWrite (Throwable.value trouble) := by
      rw [WritableStream.perform, if_pos]
      rw [WritableStream.holds, decide_eq_true_eq]
      exact running.writer
    have ordered := WritableStream.perform_ordered kept.destination
      (.abort (some pipe.writer) (Throwable.value trouble))
    rw [performs] at ordered
    have next := kept.ofDestination ordered later
    refine ⟨{ next with }, ⟨running.reader, still.writer.trans running.writer,
      running.oldReader, still.writers ▸ running.oldWriter⟩, running.telling, ?_, ?_, ?_⟩
    · dsimp only
      rw [running.endings, meant]
      rfl
    · intro _
      rw [WritableStream.abortWrite]
      split
      · rename_i writable
        rw [WritableStream.writeError, if_neg (by simp [writable])]
        rintro ⟨⟩
      · assumption
    · intro effective
      have writable : pipe.destination.status = .writable := by simpa using effective
      left
      rw [WritableStream.abortWrite, if_pos writable]
      rintro ⟨⟩

omit [Throwable E] in
theorem Sound.read (sound : pipe.Sound) {verdict : Verdict E}
    (point : pipe.point = .awaiting .ready verdict) (fulfilled : verdict = .fulfilled) :
    pipe.read.Sound := by
  have stands := sound.stands
  rw [point, fulfilled] at stands
  obtain ⟨running, ⟨⟨past, delivered⟩, count, open_⟩, _⟩ := stands
  obtain ⟨last, answers, done, rejected, _, reader, canceled⟩ :=
    Stream.read_answers sound.source running.reader
  have later := Stream.read_later pipe.source pipe.reader
  have locked := Stream.read_locked pipe.source pipe.reader
  have next := sound.toKept.ofSource (Stream.read_sound sound.source pipe.reader) later
  apply next.await
  · exact ⟨⟨reader.trans running.reader, running.writer, locked.2 ▸ running.oldReader,
      running.oldWriter⟩, canceled.trans running.canceled, running.endings, running.effective,
      running.telling⟩
  · exact ⟨count, open_, pipe.source.answers, last, answers, rfl, past, delivered, done, rejected⟩

omit [Measured N] [Throwable E] in
variable {request : Nat}
theorem Awaits.answer (awaits : pipe.Awaits (.read request)) {answer : Answer V E}
    (here : pipe.source.answers[request]? = some answer) (past : answer ≠ .waiting) :
    .waiting ∉ pipe.source.answers ∧
      pipe.source.delivered = pipe.skipped ++ pipe.written ++ Stream.chunks [answer] ∧
      Tee.Honest pipe.source answer := by
  obtain ⟨_, _, front, last, answers, rfl, before, chunks, honest⟩ := awaits
  rw [answers, getElem?_append_right (Nat.le_refl _), Nat.sub_self] at here
  obtain rfl := Option.some.inj here
  refine ⟨?_, ?_, honest⟩
  · rw [answers, mem_append, mem_singleton, not_or]
    exact ⟨before, past.symm⟩
  · rw [Stream.delivered, answers, Stream.chunks_append, chunks]

theorem Sound.write (sound : pipe.Sound)
    (point : pipe.point = .awaiting (.read request) .fulfilled) {value : V}
    (chunk : pipe.source.answers[request]? = some (.chunk value))
    (quiet : pipe.destination.measuring = []) : (pipe.write value).Sound := by
  have stands := sound.stands
  rw [point] at stands
  obtain ⟨running, awaits, _⟩ := stands
  obtain ⟨past, delivered, _⟩ := awaits.answer chunk nofun
  obtain ⟨count, open_, _⟩ := awaits
  unfold Pipe.write
  split
  · exact ⟨{ sound with }, ⟨{ running with }, running.canceled, running.endings, running.effective,
      running.telling⟩, trivial⟩
  · rename_i takes
    have writes : pipe.destination.write value =
        { pipe.destination with measuring := value :: pipe.destination.measuring } := by
      exact if_neg takes
    have performs : pipe.destination.perform (.write pipe.writer value) =
        pipe.destination.write value := by
      rw [WritableStream.perform, if_pos]
      rw [WritableStream.holds, decide_eq_true_eq]
      exact running.writer
    have ordered := WritableStream.perform_ordered sound.destination (.write pipe.writer value)
    have later := WritableStream.perform_later pipe.destination (.write pipe.writer value)
    rw [performs] at ordered later
    have next := sound.toKept.ofDestination ordered later
    refine ⟨{ next with }, ⟨⟨running.reader, ?_, running.oldReader, ?_⟩, running.canceled,
      running.endings, running.effective, running.telling⟩, count, open_, past, value, ?_,
      delivered⟩
    · dsimp only
      rw [writes]
      exact running.writer
    · dsimp only
      rw [writes]
      exact running.oldWriter
    · dsimp only
      rw [writes, quiet]

omit [Measured N] [Throwable E] in
theorem delivered_prefix {stream : Stream V E N} (sound : stream.Sound) :
    stream.delivered <+: stream.enqueued := by
  obtain ⟨settled, answered⟩ := sound.answered
  rw [answered.delivered]
  exact answered.ordered

omit [Throwable E] in
theorem Sound.measured (sound : pipe.Sound) (point : pipe.point = .measuring)
    (size : Except E N) : (pipe.measured size).Sound := by
  have stands := sound.stands
  rw [point] at stands
  obtain ⟨running, count, open_, past, value, measuring, delivered⟩ := stands
  obtain ⟨writer, writers⟩ := WritableStream.measured_writer pipe.destination size
  have ordered := WritableStream.perform_ordered sound.destination (.measured size)
  have later := WritableStream.measured_later pipe.destination size
  have next := sound.toKept.ofDestination ordered later
  have runs := running.ofDestination writer (Nat.le_of_eq writers.symm)
  have refused : ∀ (id : Nat) (trouble : Trouble E), Sound { pipe with
      destination := pipe.destination.measured size
      point := .awaiting (.write id) (.rejected trouble) } := by
    intro id trouble
    exact ⟨{ next with }, ⟨{ runs with },
      runs.canceled, runs.endings, runs.effective, runs.telling⟩, trivial⟩
  unfold Pipe.measured
  rw [measuring]
  dsimp only
  split
  · exact refused _ _
  · rename_i amount
    split
    · rename_i valid
      have accepted : (pipe.destination.measured (.ok amount)).accepted =
          pipe.destination.accepted + 1 := by
        rw [WritableStream.measured, measuring]
        dsimp only
        rw [if_pos valid]
      have written : (pipe.sent ++ [(pipe.destination.accepted, value)]).map Prod.snd =
          pipe.written ++ [value] := map_append
      have keys : (pipe.sent ++ [(pipe.destination.accepted, value)]).map Prod.fst =
          pipe.sent.map Prod.fst ++ [pipe.destination.accepted] := map_append
      have whole : pipe.source.delivered = pipe.skipped ++ (pipe.written ++ [value]) := by
        rw [delivered, append_assoc]
      apply Kept.await
      · refine ⟨next.source, ordered, ?_, ?_, ?_, ?_, ?_, ?_⟩
        · rw [Pipe.written]
          rw [written, ← whole]
          exact delivered_prefix sound.source
        · dsimp only
          rw [keys, pairwise_append]
          refine ⟨sound.keys, pairwise_singleton _ _, fun old member new last => ?_⟩
          rw [mem_singleton.mp last]
          exact sound.bound old member
        · intro id member
          rw [keys, mem_append, mem_singleton] at member
          rw [accepted]
          rcases member with old | rfl
          · exact Nat.lt_succ_of_lt (sound.bound id old)
          · exact Nat.lt_succ_self _
        · intro method id member
          rw [keys, take_append_of_le_length (by rw [length_map, count])] at member
          exact next.heard method id member
        · dsimp only
          rw [length_append, length_singleton, count]
          exact ⟨Nat.le_succ _, Nat.le_refl _⟩
        · intro done
          cases open_.symm.trans done
      · exact ⟨{ runs with }, runs.canceled,
          runs.endings, runs.effective, runs.telling⟩
      · refine ⟨⟨past, ?_⟩, open_, pipe.sent, value, rfl, count⟩
        rw [Pipe.written]
        rw [written]
        exact whole
    · exact refused _ _

theorem Sound.finish (sound : pipe.Sound)
    (point : pipe.point = .awaiting (.read request) .fulfilled)
    (done : pipe.source.answers[request]? = some .done) : pipe.finish.Sound := by
  have stands := sound.stands
  rw [point] at stands
  obtain ⟨running, awaits, _⟩ := stands
  obtain ⟨past, delivered, honest, _⟩ := awaits.answer done nofun
  obtain ⟨count, open_, _⟩ := awaits
  have closed := honest rfl
  have ended : Kept { pipe with sourceDone := true } := by
    refine ⟨sound.source, sound.destination, sound.initial, sound.keys, sound.bound, sound.heard,
      sound.count, fun _ => ⟨closed, fun fresh => ?_⟩⟩
    obtain ⟨settled, answered⟩ := sound.source.answered
    have whole := answered.whole (running.canceled.trans fresh) (by simp [closed])
    rw [Stream.queued, sound.source.emptied (by simp [closed]), map_nil, append_nil,
      ← answered.delivered, delivered] at whole
    exact (append_nil _).symm.trans whole
  have endings : pipe.endings = [] := by
    rw [running.endings, open_]
    rfl
  unfold Pipe.finish
  dsimp only
  split
  · rename_i spared
    obtain ⟨kept, released⟩ := ended.conclude { running with } .resolved
    refine ⟨kept, released, rfl, count, fun free => ?_, ?_⟩
    · cases spared.symm.trans free
    · exact endings.trans (if_pos spared).symm
  · rename_i meant
    have meant : pipe.options.preventClose = false := by simpa using meant
    have closes : pipe.endings ++ [Ending.close] = [.close] := by rw [endings]; rfl
    split
    · exact ⟨{ ended with }, ⟨{ running with }, running.canceled, closes, running.effective,
        running.telling⟩, trivial⟩
    · have performs : pipe.destination.perform (.close (some pipe.writer)) =
          pipe.destination.closeWrite := by
        rw [WritableStream.perform, if_pos]
        rw [WritableStream.holds, decide_eq_true_eq]
        exact running.writer
      have ordered := WritableStream.perform_ordered sound.destination (.close (some pipe.writer))
      have later := WritableStream.closeWrite_later pipe.destination
      have still := WritableStream.closeWrite_still pipe.destination
      rw [performs] at ordered
      have next := ended.ofDestination ordered later
      apply Kept.await
      · exact { next with }
      · exact ⟨⟨running.reader, still.writer.trans running.writer, running.oldReader,
          still.writers ▸ running.oldWriter⟩, running.canceled, closes, running.effective,
          running.telling⟩
      · exact ⟨count, rfl, meant⟩

theorem Sound.resume (sound : pipe.Sound) (quiet : pipe.destination.measuring = []) :
    pipe.resume.Sound := by
  have stands := sound.stands
  unfold Pipe.resume
  split
  · rename_i trouble point
    rw [point] at stands
    exact sound.toKept.fail stands.1 trouble
  · rename_i point
    exact sound.read point rfl
  · rename_i request point
    split
    · exact sound.write point ‹_› quiet
    · exact sound.finish point ‹_›
    · exact sound
  · rename_i id point
    rw [point] at stands
    obtain ⟨running, ⟨idle, open_, front, value, sent, count⟩, tells⟩ := stands
    apply Kept.await
    · refine ⟨sound.source, sound.destination, sound.initial, sound.keys, sound.bound, ?_, ?_,
        sound.done⟩
      · intro method other member
        have known := sound.heard method
        rw [sent, map_append] at known
        rw [sent, map_append, take_of_length_le (by simp [count])] at member
        rw [take_append_of_le_length (by simp [count]),
          take_of_length_le (by simp [count])] at known
        rcases mem_append.mp member with old | new
        · exact known other old
        · rw [mem_singleton.mp new]
          exact tells method
      · dsimp only
        rw [sent, length_append, length_singleton, count]
        exact ⟨Nat.le_refl _, Nat.le_succ _⟩
    · exact ⟨{ running with },
        running.canceled, running.endings, running.effective, running.telling⟩
    · refine ⟨idle, ?_, open_⟩
      rw [sent, length_append, length_singleton, count]
  · rename_i point
    rw [point] at stands
    obtain ⟨running, ⟨count, done, free⟩, closed⟩ := stands
    obtain ⟨kept, released⟩ := sound.toKept.conclude running.toHeld .resolved
    refine ⟨kept, released, done, count, fun _ => ?_, ?_⟩
    · have closed : pipe.destination.status = .closed := closed
      have later := WritableStream.perform_later pipe.destination (.releaseLock pipe.writer)
      exact (later.ended (by simp [closed])).trans closed
    · have endings := running.endings
      rw [done] at endings
      rw [Pipe.conclude]
      rw [endings, free]
      rfl
  · exact sound

omit [Measured N] [Throwable E] in
/-- Interruptions, and a source that is told, are none of the promises. -/
theorem Sound.flags (sound : pipe.Sound) (listening watching : Bool)
    (interruption : Option (Trouble E)) {telling : Bool}
    (told : pipe.telling = false → telling = false) :
    Sound { pipe with listening, watching, interruption, telling } := by
  refine ⟨{ sound with }, ?_⟩
  have same : ∀ {point : Point E}, pipe.Stands point →
      Stands { pipe with listening, watching, interruption, telling } point := by
    intro point stands
    have held : pipe.Held → Held { pipe with listening, watching, interruption, telling } :=
      fun held => { held with }
    have running : pipe.Running →
        Running { pipe with listening, watching, interruption, telling } :=
      fun running => ⟨held running.toHeld, running.canceled, running.endings, running.effective,
        told running.telling⟩
    have cleaned : pipe.Cleaned →
        Cleaned { pipe with listening, watching, interruption, telling } :=
      fun cleaned => { cleaned with }
    have released : pipe.Released →
        Released { pipe with listening, watching, interruption, telling } :=
      fun released => { released with }
    cases point with
    | refused => exact stands
    | awaiting awaited verdict =>
      refine ⟨running stands.1, ?_⟩
      cases verdict with
      | pending => cases awaited <;> exact stands.2
      | fulfilled => cases awaited <;> exact stands.2
      | rejected trouble => trivial
    | measuring => exact ⟨running stands.1, stands.2⟩
    | aborting trouble =>
      exact ⟨held stands.toHeld, told stands.telling, stands.endings, stands.abort, stands.aborts⟩
    | cleaning trouble => exact ⟨held stands.1, cleaned stands.2⟩
    | resolved => exact ⟨released stands.1, stands.2⟩
    | rejected trouble =>
      obtain ⟨free, clean, quiet, heard⟩ := stands
      exact ⟨released free, cleaned clean, told quiet, heard⟩
  exact same sound.stands

theorem Sound.react (sound : pipe.Sound) (quiet : pipe.destination.measuring = [])
    (event : PipeEvent V E N) : (pipe.react event).Sound := by
  unfold Pipe.react
  split
  · split
    · exact (sound.flags pipe.listening false (some (pipe.interruption.getD _)) id).watch
    · split
      · exact (sound.flags pipe.listening false (some (pipe.interruption.getD _)) id).watch
      · exact sound
  · exact sound.resume quiet
  · exact sound.flags pipe.listening pipe.watching pipe.interruption fun _ => rfl
  · split
    · rename_i trouble point
      have stands := sound.stands
      rw [point] at stands
      obtain ⟨held, cleaned⟩ := stands
      split
      · rename_i past
        obtain ⟨kept, released⟩ := sound.toKept.conclude held (.rejected trouble)
        have later := WritableStream.perform_later pipe.destination (.releaseLock pipe.writer)
        have clean := (cleaned.later (Stream.perform_later pipe.source
          (.releaseLock pipe.reader))).ofDestination later
        refine ⟨kept, released, { clean with }, past.2,
          fun effective method => ?_⟩
        have method : pipe.destination.methods.abort = true := later.methods ▸ method
        apply later.trace.subset
        rcases cleaned.aborts effective with waits | told
        · exact absurd (past.1 effective) waits
        · exact told method
      · exact sound
    · exact sound
  · exact sound

theorem Sound.perform (sound : pipe.Sound) (event : PipeEvent V E N) :
    (pipe.perform event).Sound := by
  unfold Pipe.perform
  split
  · split
    · exact sound
    · rename_i foreign
      exact (sound.ofSource (by simpa using foreign)).watch
  · rename_i step
    split
    · exact sound
    · rename_i foreign
      unfold Pipe.ofDestination
      split
      · exact sound.measured ‹_› _
      · rename_i apart
        refine (sound.ofDestination (by simpa using foreign) fun point size same => ?_).watch
        exact apart size point same
  · split
    · exact (sound.flags false pipe.watching (some (pipe.interruption.getD _)) id).watch
    · exact sound
  · split
    · rename_i trouble point
      have stands := sound.stands
      rw [point] at stands
      exact sound.toKept.cancelSource stands trouble
    · exact sound
  · split
    · exact sound.react ‹_› _
    · exact sound

omit [Throwable E] in
theorem opened_ordered {stream : WritableStream V E N}
    (run : Reachable WritableStream.Opened (fun before step after => before.perform step = after)
      stream) : stream.Ordered := by
  apply Reachable.invariant _ _ run
  · rintro _ ⟨methods, hwm, rfl⟩
    exact WritableStream.start_ordered methods hwm
  · rintro before step _ _ ordered rfl
    exact WritableStream.perform_ordered ordered step

section
omit [Measured N] [Throwable E]

theorem fresh_kept (source : pipe.source.Sound) (destination : pipe.destination.Ordered)
    (skipped : pipe.skipped = pipe.source.delivered) (sent : pipe.sent = [])
    (fulfilled : pipe.fulfilled = 0) (open_ : pipe.sourceDone = false) : pipe.Kept where
  source := source
  destination := destination
  initial := by
    rw [written, sent, map_nil, append_nil, skipped]
    exact delivered_prefix source
  keys := by
    rw [sent]
    exact List.Pairwise.nil
  bound := by
    rw [sent]
    nofun
  heard _ id member := by
    rw [sent, map_nil, take_nil] at member
    cases member
  count := by
    rw [sent, fulfilled]
    exact ⟨Nat.le_refl _, Nat.zero_le _⟩
  done done := by cases open_.symm.trans done

theorem getReader_free {source : Stream V E N} (free : source.reader = none) :
    source.getReader =
      { source with reader := some source.readers, readers := source.readers + 1 } := by
  rw [Stream.getReader, free]
  rfl

end

omit [Throwable E] in
theorem first_sound {source : Stream V E N} {destination : WritableStream V E N}
    (sound : source.Sound) (ordered : destination.Ordered) (reader : source.reader = none)
    (writer : destination.writer = none) (same : pipe = { pipe with
      source := source.getReader, destination := destination.perform .getWriter
      reader := source.readers, writer := destination.writers, skipped := source.delivered
      precanceled := source.canceled, sourceDone := false, effective := false, telling := false
      sent := [], fulfilled := 0, endings := [] }) : (pipe.await .ready).Sound := by
  have gets := getReader_free reader
  have takes : destination.perform .getWriter = { destination with
      writer := some destination.writers, writers := destination.writers + 1 } := by
    rw [WritableStream.perform, writer]
    rfl
  have fits := Stream.perform_sound sound .getReader
  have ranks := WritableStream.perform_ordered ordered .getWriter
  rw [gets, takes] at same
  rw [takes] at ranks
  rw [Stream.perform, gets] at fits
  obtain ⟨settled, answered⟩ := sound.answered
  have past : .waiting ∉ source.answers := by
    rw [answered.answers, sound.unlocked reader, length_nil, replicate_zero,
      append_nil]
    exact answered.past
  rw [same]
  apply Kept.await
  · exact fresh_kept fits ranks rfl rfl rfl rfl
  · exact ⟨⟨rfl, rfl, Nat.lt_succ_self _, Nat.lt_succ_self _⟩, rfl, rfl, rfl, rfl⟩
  · exact ⟨⟨past, (append_nil _).symm⟩, rfl, rfl⟩

omit [Throwable E] in
theorem start_sound (start : pipe.Start) : pipe.Sound := by
  obtain ⟨source, destination, options, reached, run, rfl⟩ := start
  have sound := Stream.reached_sound reached
  have ordered := opened_ordered run
  unfold pipeTo
  split
  · exact ⟨fresh_kept sound ordered rfl rfl rfl rfl, rfl, rfl⟩
  · rename_i reader
    have reader : source.reader = none := by simpa using reader
    split
    · refine ⟨fresh_kept ?_ ordered ?_ rfl rfl rfl, rfl, rfl⟩
      · exact Stream.releaseLock_sound (Stream.perform_sound sound .getReader) _
      · rw [getReader_free reader, Stream.releaseLock, if_neg (not_not.mpr rfl)]
        rw [sound.unlocked reader]
        rfl
    · rename_i writer
      have writer : destination.writer = none := by simpa using writer
      split
      · exact first_sound sound ordered reader writer rfl
      · exact first_sound sound ordered reader writer rfl
      · exact first_sound sound ordered reader writer rfl

end

end Pipe
end Chuzz.Streams
