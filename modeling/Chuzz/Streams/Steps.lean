import Chuzz.Streams.Readable

/-! What the steps of a stream leave as it was: of a stream that has ended, of one that
another reader holds, and of one whose controller is not called. -/
namespace Chuzz.Streams
open List

/-- What the holders of a stream may do to it, and its own reactions, of a source that does
not fail. -/
def Step.outer {V E N : Type} : Step V E N → Bool
  | .enqueue .. | .close | .error _ | .startFailed _ | .pullFailed _ => false
  | _ => true

/-- The calls that need a certain reader. -/
def Step.uses {V E N : Type} (reader : Nat) : Step V E N → Bool
  | .read other | .releaseLock other | .readerCancel other => other = reader
  | _ => false

namespace Stream
variable {V E N : Type} {stream before after : Stream V E N}

/-- Chunks are only added, and none once the stream has ended. -/
structure Later (before after : Stream V E N) : Prop where
  enqueued : before.enqueued <+: after.enqueued
  ended : before.status ≠ .readable → after.status = before.status ∧
    after.error = before.error ∧ after.enqueued = before.enqueued ∧
    after.canceled = before.canceled

/-- Reads are settled at most once, by a chunk or by the end of the stream. -/
structure Settles (before after : Stream V E N) : Prop where
  reader : after.reader = before.reader
  length : after.answers.length = before.answers.length
  settled : ∀ (read : Nat) (answer : Answer V E), before.answers[read]? = some answer →
    answer ≠ .waiting → after.answers[read]? = some answer
  done : ∀ read : Nat, before.answers[read]? = some Answer.waiting →
    after.answers[read]? = some Answer.done → after.status = .closed
  rejected : ∀ (read : Nat) failure, before.answers[read]? = some Answer.waiting →
    after.answers[read]? = some (Answer.rejected failure) →
    after.status = .errored ∧ after.error = some failure

theorem Later.refl (stream : Stream V E N) : Later stream stream :=
  ⟨prefix_rfl, fun _ => ⟨rfl, rfl, rfl, rfl⟩⟩

theorem Later.frame (status : after.status = before.status) (error : after.error = before.error)
    (enqueued : after.enqueued = before.enqueued) (canceled : after.canceled = before.canceled) :
    Later before after :=
  ⟨enqueued ▸ prefix_rfl, fun _ => ⟨status, error, enqueued, canceled⟩⟩

theorem Later.readable (readable : before.status = .readable)
    (enqueued : before.enqueued <+: after.enqueued) : Later before after :=
  ⟨enqueued, fun ended => absurd readable ended⟩

theorem Settles.frame (reader : after.reader = before.reader)
    (answers : after.answers = before.answers) : Settles before after where
  reader := reader
  length := by rw [answers]
  settled read answer same _ := by rw [answers, same]
  done read waits done := by
    rw [answers, waits] at done
    cases done
  rejected read failure waits rejected := by
    rw [answers, waits] at rejected
    cases rejected

theorem Settles.all (sound : before.Sound) {answer : Answer V E}
    (reader : after.reader = before.reader)
    (answers : after.answers = settle answer before.answers before.reads)
    (done : answer = .done → after.status = .closed)
    (rejected : ∀ failure, answer = .rejected failure →
      after.status = .errored ∧ after.error = some failure) : Settles before after := by
  obtain ⟨settled, answered⟩ := sound.answered
  have at_ : ∀ read : Nat, before.answers[read]? = some Answer.waiting →
      ∀ other : Answer V E, after.answers[read]? = some other → other ≠ .waiting → other = answer := by
    intro read waits other here past
    rw [answers, settle_getElem?, waits] at here
    split at here
    · exact (Option.some.inj here).symm
    · exact absurd (Option.some.inj here).symm past
  constructor
  · exact reader
  · rw [answers, settle_length]
  · intro read other here past
    rw [answers, settle_getElem?, if_neg, here]
    intro member
    rw [answered.waits member] at here
    exact past (Option.some.inj here).symm
  · intro read waits here
    exact done (at_ read waits .done here (by simp)).symm
  · intro read failure waits here
    exact rejected failure (at_ read waits _ here (by simp)).symm

theorem finish_later (stream : Stream V E N) : Later stream stream.finish := by
  rw [finish]
  split
  · exact .readable ‹_› prefix_rfl
  · exact .refl stream

variable [Number N]

theorem pull_same (stream : Stream V E N) : ∃ again pulling job,
    stream.pull = { stream with again, pulling, job } := by
  rw [pull]
  split
  · exact ⟨stream.again, stream.pulling, stream.job, rfl⟩
  · split
    · exact ⟨true, stream.pulling, stream.job, rfl⟩
    · exact ⟨stream.again, true, .call, rfl⟩

theorem pull_later (later : Later before after) : Later before after.pull := by
  obtain ⟨again, pulling, job, same⟩ := after.pull_same
  rw [same]
  exact ⟨later.enqueued, later.ended⟩

theorem pull_settles (settles : Settles before after) : Settles before after.pull := by
  obtain ⟨again, pulling, job, same⟩ := after.pull_same
  rw [same]
  exact { settles with }

theorem fail_later (stream : Stream V E N) (failure : Failure E) :
    Later stream (stream.fail failure) := by
  rw [fail]
  split
  · exact .readable ‹_› prefix_rfl
  · exact .refl stream

theorem fail_settles (sound : stream.Sound) (failure : Failure E) :
    Settles stream (stream.fail failure) := by
  rw [fail]
  split
  · refine .all sound rfl rfl (fun same => by cases same) ?_
    rintro other same
    obtain rfl := Answer.rejected.inj same
    exact ⟨rfl, rfl⟩
  · exact .frame rfl rfl

theorem enqueue_later (stream : Stream V E N) (value : V) (size : Except E N) :
    Later stream (stream.enqueue value size).1 := by
  unfold enqueue
  split
  · exact .refl stream
  · rename_i writable
    have readable : stream.status = .readable := by
      by_contra ended
      exact writable (.inl ended)
    split
    · exact pull_later (.readable readable (prefix_append _ _))
    · split
      · exact pull_later (.readable readable (prefix_append _ _))
      · exact fail_later stream _
    · exact fail_later stream _

theorem enqueue_settles (sound : stream.Sound) (value : V) (size : Except E N) :
    Settles stream (stream.enqueue value size).1 := by
  obtain ⟨settled, answered⟩ := sound.answered
  unfold enqueue
  split
  · exact .frame rfl rfl
  · split
    · rename_i read reads waits
      have here : stream.answers[read]? = some Answer.waiting :=
        answered.waits (by rw [waits]; exact mem_cons_self)
      apply pull_settles
      constructor
      · rfl
      · exact length_set
      · intro other answer there past
        rw [getElem?_set_ne, there]
        rintro rfl
        rw [here] at there
        exact past (Option.some.inj there).symm
      · intro other there done
        rw [getElem?_set] at done
        split at done
        · split at done <;> cases done
        · rw [there] at done
          cases done
      · intro other failure there rejected
        rw [getElem?_set] at rejected
        split at rejected
        · split at rejected <;> cases rejected
        · rw [there] at rejected
          cases rejected
    · split
      · exact pull_settles (.frame rfl rfl)
      · exact fail_settles sound _
    · exact fail_settles sound _

omit [Number N] in
theorem close_later (stream : Stream V E N) : Later stream stream.close.1 := by
  rw [close]
  split
  · exact .refl stream
  · rename_i writable
    have readable : stream.status = .readable := by
      by_contra ended
      exact writable (.inl ended)
    dsimp only
    split
    · apply Later.readable readable
      exact (finish_later { stream with closing := true }).enqueued
    · exact .readable readable prefix_rfl

omit [Number N] in
theorem close_settles (sound : stream.Sound) : Settles stream stream.close.1 := by
  rw [close]
  split
  · exact .frame rfl rfl
  · dsimp only
    split
    · rw [finish]
      split
      · exact .all sound rfl rfl (fun _ => rfl) (fun _ same => by cases same)
      · exact .frame rfl rfl
    · exact .frame rfl rfl

theorem cancel_later (stream : Stream V E N) : Later stream stream.cancel := by
  rw [cancel]
  split
  · rename_i readable
    apply Later.readable readable
    exact (finish_later { stream with
      queue := [], total := Number.zero, canceled := true }).enqueued
  · exact .refl stream

theorem cancel_settles (sound : stream.Sound) : Settles stream stream.cancel := by
  rw [cancel]
  split
  · rename_i readable
    rw [finish, if_pos readable]
    exact .all sound rfl rfl (fun _ => rfl) (fun _ same => by cases same)
  · exact .frame rfl rfl

theorem read_later (stream : Stream V E N) (reader : Nat) : Later stream (stream.read reader) := by
  unfold read
  split
  · exact .refl stream
  · split
    · rename_i value size queue _
      dsimp only
      split
      · have later := finish_later { stream with
          queue, total := Number.sub stream.total size
          answers := stream.answers ++ [Answer.chunk value] }
        exact ⟨later.enqueued, later.ended⟩
      · exact pull_later (.frame rfl rfl rfl rfl)
    · split
      · exact .frame rfl rfl rfl rfl
      · exact .frame rfl rfl rfl rfl
      · exact .refl stream
      · exact pull_later (.frame rfl rfl rfl rfl)

theorem perform_later (stream : Stream V E N) (step : Step V E N) :
    Later stream (stream.perform step) := by
  cases step with
  | started =>
    rw [perform]
    split
    · exact pull_later (.frame rfl rfl rfl rfl)
    · exact .refl stream
  | startFailed error =>
    rw [perform]
    split
    · have later := fail_later { stream with starting := false } (.given error)
      exact ⟨later.enqueued, later.ended⟩
    · exact .refl stream
  | enqueue value size => exact enqueue_later stream value size
  | close => exact close_later stream
  | error error => exact fail_later stream _
  | cancel =>
    rw [perform]
    split
    · exact .refl stream
    · exact cancel_later stream
  | readerCancel reader =>
    rw [perform]
    split
    · exact cancel_later stream
    · exact .refl stream
  | getReader =>
    rw [perform, getReader]
    split
    · exact .refl stream
    · exact .frame rfl rfl rfl rfl
  | read reader => exact read_later stream reader
  | releaseLock reader =>
    rw [perform, releaseLock]
    split
    · exact .refl stream
    · exact .frame rfl rfl rfl rfl
  | pullCall =>
    rw [perform]
    split
    · exact .frame rfl rfl rfl rfl
    · exact .refl stream
  | pulled =>
    rw [perform]
    split
    · rw [pulled]
      split
      · exact pull_later (.frame rfl rfl rfl rfl)
      · exact .frame rfl rfl rfl rfl
    · exact .refl stream
  | pullFailed error =>
    rw [perform]
    split
    · have later := fail_later { stream with pulling := false, job := .none } (.given error)
      exact ⟨later.enqueued, later.ended⟩
    · exact .refl stream

omit [Number N] in
theorem finish_canceled (stream : Stream V E N) : stream.finish.canceled = stream.canceled := by
  rw [finish]
  split <;> rfl

theorem pull_canceled (stream : Stream V E N) : stream.pull.canceled = stream.canceled := by
  obtain ⟨again, pulling, job, same⟩ := stream.pull_same
  rw [same]

theorem fail_canceled (stream : Stream V E N) (failure : Failure E) :
    (stream.fail failure).canceled = stream.canceled := by
  rw [fail]
  split <;> rfl

theorem enqueue_canceled (stream : Stream V E N) (value : V) (size : Except E N) :
    (stream.enqueue value size).1.canceled = stream.canceled := by
  unfold enqueue
  split
  · rfl
  · split
    · exact pull_canceled _
    · split
      · exact pull_canceled _
      · exact fail_canceled stream _
    · exact fail_canceled stream _

omit [Number N] in
theorem close_canceled (stream : Stream V E N) : stream.close.1.canceled = stream.canceled := by
  rw [close]
  split
  · rfl
  · dsimp only
    split
    · exact finish_canceled _
    · rfl

/-- While a reader holds the stream, the others and the source only settle its reads. -/
theorem perform_settles (sound : stream.Sound) {reader : Nat} (held : stream.reader = some reader)
    {step : Step V E N} (foreign : step.uses reader = false) :
    Settles stream (stream.perform step) ∧
      (stream.perform step).canceled = stream.canceled := by
  have other : ∀ {number : Nat}, decide (number = reader) = false →
      stream.reader ≠ some number := by
    intro number apart same
    rw [held] at same
    obtain rfl := Option.some.inj same
    simp at apart
  have stay : Settles stream stream ∧ stream.canceled = stream.canceled :=
    ⟨.frame rfl rfl, rfl⟩
  cases step with
  | started =>
    rw [perform]
    split
    · exact ⟨pull_settles (.frame rfl rfl), pull_canceled _⟩
    · exact stay
  | startFailed error =>
    rw [perform]
    split
    · have fits : ({ stream with starting := false } : Stream V E N).Sound :=
        sound.frame rfl rfl rfl rfl rfl rfl rfl id rfl
      have settles := fail_settles fits (.given error)
      exact ⟨{ settles with },
        fail_canceled _ _⟩
    · exact stay
  | enqueue value size => exact ⟨enqueue_settles sound value size, enqueue_canceled _ _ _⟩
  | close => exact ⟨close_settles sound, close_canceled _⟩
  | error error => exact ⟨fail_settles sound _, fail_canceled _ _⟩
  | cancel =>
    rw [perform, if_pos (by simp [held])]
    exact stay
  | readerCancel number =>
    rw [perform, if_neg (other foreign)]
    exact stay
  | getReader =>
    rw [perform, getReader, if_pos (by simp [held])]
    exact stay
  | read number =>
    rw [perform, read.eq_def, if_pos (other foreign)]
    exact stay
  | releaseLock number =>
    rw [perform, releaseLock, if_pos (other foreign)]
    exact stay
  | pullCall =>
    rw [perform]
    split
    · exact ⟨.frame rfl rfl, rfl⟩
    · exact stay
  | pulled =>
    rw [perform]
    split
    · rw [pulled]
      split
      · exact ⟨pull_settles (.frame rfl rfl), pull_canceled _⟩
      · exact ⟨.frame rfl rfl, rfl⟩
    · exact stay
  | pullFailed error =>
    rw [perform]
    split
    · have fits : ({ stream with pulling := false, job := .none } : Stream V E N).Sound :=
        sound.frame rfl rfl rfl rfl rfl rfl rfl id rfl
      have settles := fail_settles fits (.given error)
      exact ⟨{ settles with },
        fail_canceled _ _⟩
    · exact stay

/-- What the holders of a stream do to it, short of canceling it, neither adds chunks nor
ends it; reading may finish one that is closing. -/
theorem outer_same {step : Step V E N} (outer : step.outer = true)
    (running : (stream.perform step).canceled = false) :
    (stream.perform step).enqueued = stream.enqueued ∧
      (stream.perform step).closing = stream.closing ∧
      (stream.perform step).error = stream.error ∧
      ((stream.perform step).status = stream.status ∨
        stream.closing = true ∧ stream.status = .readable ∧
          (stream.perform step).status = .closed) := by
  have stay : stream.enqueued = stream.enqueued ∧ stream.closing = stream.closing ∧
      stream.error = stream.error ∧ (stream.status = stream.status ∨
        stream.closing = true ∧ stream.status = .readable ∧ stream.status = .closed) :=
    ⟨rfl, rfl, rfl, .inl rfl⟩
  have pulls : ∀ after : Stream V E N, after.pull.enqueued = after.enqueued ∧
      after.pull.closing = after.closing ∧ after.pull.error = after.error ∧
      after.pull.status = after.status := by
    intro after
    obtain ⟨again, pulling, job, same⟩ := after.pull_same
    rw [same]
    exact ⟨rfl, rfl, rfl, rfl⟩
  have canceled : stream.cancel.canceled = false → stream.cancel = stream := by
    intro running
    rw [cancel] at running ⊢
    split at running
    · rw [finish_canceled] at running
      cases running
    · rename_i ended
      rw [if_neg ended]
  cases step with
  | enqueue value size => cases outer
  | close => cases outer
  | error error => cases outer
  | startFailed error => cases outer
  | pullFailed error => cases outer
  | started =>
    rw [perform]
    split
    · obtain ⟨enqueued, closing, error, status⟩ := pulls { stream with
        starting := false, started := true }
      exact ⟨enqueued, closing, error, .inl status⟩
    · exact stay
  | cancel =>
    rw [perform] at running ⊢
    split at running
    · rw [if_pos ‹_›]
      exact stay
    · rw [if_neg ‹_›, canceled running]
      exact stay
  | readerCancel reader =>
    rw [perform] at running ⊢
    split at running
    · rw [if_pos ‹_›, canceled running]
      exact stay
    · rw [if_neg ‹_›]
      exact stay
  | getReader =>
    rw [perform, getReader]
    split <;> exact ⟨rfl, rfl, rfl, .inl rfl⟩
  | read reader =>
    rw [perform]
    unfold read
    split
    · exact stay
    · split
      · rename_i value size queue _
        dsimp only
        split
        · rename_i last
          rw [finish]
          split
          · rename_i readable
            exact ⟨rfl, rfl, rfl, .inr ⟨last.1, readable, rfl⟩⟩
          · exact ⟨rfl, rfl, rfl, .inl rfl⟩
        · obtain ⟨enqueued, closing, error, status⟩ := pulls { stream with
            queue, total := Number.sub stream.total size
            answers := stream.answers ++ [Answer.chunk value] }
          exact ⟨enqueued, closing, error, .inl status⟩
      · split
        · exact ⟨rfl, rfl, rfl, .inl rfl⟩
        · exact ⟨rfl, rfl, rfl, .inl rfl⟩
        · exact stay
        · obtain ⟨enqueued, closing, error, status⟩ := pulls { stream with
            reads := stream.reads ++ [stream.answers.length]
            answers := stream.answers ++ [Answer.waiting] }
          exact ⟨enqueued, closing, error, .inl status⟩
  | releaseLock reader =>
    rw [perform, releaseLock]
    split <;> exact ⟨rfl, rfl, rfl, .inl rfl⟩
  | pullCall =>
    rw [perform]
    split <;> exact ⟨rfl, rfl, rfl, .inl rfl⟩
  | pulled =>
    rw [perform]
    split
    · rw [pulled]
      split
      · obtain ⟨enqueued, closing, error, status⟩ := pulls { stream with
          pulling := false, job := .none, again := false }
        exact ⟨enqueued, closing, error, .inl status⟩
      · exact ⟨rfl, rfl, rfl, .inl rfl⟩
    · exact stay

/-- A read that its reader issues is the last one, and waits or tells what the stream is. -/
theorem read_answers (sound : stream.Sound) {reader : Nat} (held : stream.reader = some reader) :
    ∃ last, (stream.read reader).answers = stream.answers ++ [last] ∧
      (last = .done → (stream.read reader).status = .closed) ∧
      (∀ failure, last = .rejected failure → (stream.read reader).status = .errored ∧
        (stream.read reader).error = some failure) ∧
      (stream.status = .closed → last = .done) ∧
      (stream.read reader).reader = stream.reader ∧
      (stream.read reader).canceled = stream.canceled := by
  unfold read
  rw [if_neg (not_not.mpr held)]
  split
  · rename_i value size queue chunks
    have nothing : stream.reads = [] := sound.apart.resolve_right (by simp [chunks])
    have readable : stream.status = .readable := by
      by_contra ended
      rw [sound.emptied ended] at chunks
      contradiction
    refine ⟨.chunk value, ?_⟩
    dsimp only
    split
    · rw [finish]
      rw [if_pos readable, nothing]
      exact ⟨rfl, fun same => (by cases same), fun _ same => (by cases same),
        fun closed => (by rw [readable] at closed; cases closed), rfl, rfl⟩
    · obtain ⟨again, pulling, job, same⟩ := pull_same { stream with
        queue, total := Number.sub stream.total size
        answers := stream.answers ++ [Answer.chunk value] }
      rw [same]
      exact ⟨rfl, fun same => (by cases same), fun _ same => (by cases same),
        fun closed => (by rw [readable] at closed; cases closed), rfl, rfl⟩
  · split
    · rename_i closed
      exact ⟨.done, rfl, fun _ => closed, fun _ same => (by cases same), fun _ => rfl, rfl, rfl⟩
    · rename_i failure errored error
      refine ⟨.rejected failure, rfl, fun same => (by cases same), ?_, ?_, rfl, rfl⟩
      · intro other same
        obtain rfl := Answer.rejected.inj same
        exact ⟨errored, error⟩
      · intro closed
        rw [errored] at closed
        cases closed
    · rename_i errored none
      exact absurd none (sound.failed errored)
    · rename_i readable
      obtain ⟨again, pulling, job, same⟩ := pull_same { stream with
        reads := stream.reads ++ [stream.answers.length]
        answers := stream.answers ++ [Answer.waiting] }
      rw [same]
      exact ⟨.waiting, rfl, fun same => (by cases same), fun _ same => (by cases same),
        fun closed => (by rw [readable] at closed; cases closed), rfl, rfl⟩

omit [Number N] in
/-- Settled reads stay, so that with them a last one is still the last. -/
theorem Settles.last (settles : Settles before after) (later : Later before after)
    {front : List (Answer V E)} {last : Answer V E} (answers : before.answers = front ++ [last])
    (past : .waiting ∉ front) : ∃ next, after.answers = front ++ [next] ∧
      (last ≠ .waiting → next = last) ∧
      ((last = .done → before.status = .closed) → next = .done → after.status = .closed) ∧
      ((∀ failure, last = .rejected failure →
          before.status = .errored ∧ before.error = some failure) →
        ∀ failure, next = .rejected failure →
          after.status = .errored ∧ after.error = some failure) := by
  have length : after.answers.length = front.length + 1 := by
    rw [settles.length, answers, length_append, length_singleton]
  obtain ⟨next, here⟩ : ∃ next, after.answers[front.length]? = some next :=
    ⟨_, getElem?_eq_getElem (by omega)⟩
  have there : before.answers[front.length]? = some last := by
    rw [answers, getElem?_append_right (Nat.le_refl _), Nat.sub_self]
    rfl
  have same : after.answers = front ++ [next] := by
    apply ext_getElem?
    intro read
    rcases Nat.lt_trichotomy read front.length with before_ | rfl | behind
    · have settled : before.answers[read]? = some front[read] := by
        rw [answers, getElem?_append_left before_, getElem?_eq_getElem before_]
      rw [settles.settled read _ settled fun waits => past (waits ▸ getElem_mem before_),
        getElem?_append_left before_, getElem?_eq_getElem before_]
    · rw [here, getElem?_append_right (Nat.le_refl _), Nat.sub_self]
      rfl
    · rw [getElem?_eq_none (by omega), getElem?_eq_none (by simp; omega)]
  have kept : last ≠ .waiting → next = last := by
    intro past
    have settled := settles.settled front.length last there past
    rw [here] at settled
    exact Option.some.inj settled
  refine ⟨next, same, kept, ?_, ?_⟩
  · rintro honest rfl
    by_cases waits : last = .waiting
    · exact settles.done front.length (waits ▸ there) here
    · have closed := honest (kept waits).symm
      rw [(later.ended (by simp [closed])).1, closed]
  · rintro honest failure rfl
    by_cases waits : last = .waiting
    · exact settles.rejected front.length failure (waits ▸ there) here
    · obtain ⟨errored, error⟩ := honest failure (kept waits).symm
      obtain ⟨status, same, _⟩ := later.ended (by simp [errored])
      rw [status, same]
      exact ⟨errored, error⟩

/-- The lock does not change. -/
def Locked (before after : Stream V E N) : Prop :=
  after.reader = before.reader ∧ after.readers = before.readers

omit [Number N] in
theorem Locked.finish (locked : Locked before after) : Locked before after.finish := by
  rw [Stream.finish]
  split <;> exact locked

theorem Locked.pull (locked : Locked before after) : Locked before after.pull := by
  obtain ⟨again, pulling, job, same⟩ := after.pull_same
  rw [same]
  exact locked

theorem Locked.fail (locked : Locked before after) (failure : Failure E) :
    Locked before (after.fail failure) := by
  rw [Stream.fail]
  split <;> exact locked

theorem Locked.cancel (locked : Locked before after) : Locked before after.cancel := by
  rw [Stream.cancel]
  split
  · exact @Locked.finish _ _ _ before _ locked
  · exact locked

theorem enqueue_locked (stream : Stream V E N) (value : V) (size : Except E N) :
    Locked stream (stream.enqueue value size).1 := by
  have locked : Locked stream stream := ⟨rfl, rfl⟩
  unfold enqueue
  split
  · exact locked
  · split
    · exact Locked.pull ⟨rfl, rfl⟩
    · split
      · exact Locked.pull ⟨rfl, rfl⟩
      · exact locked.fail _
    · exact locked.fail _

omit [Number N] in
theorem close_locked (stream : Stream V E N) : Locked stream stream.close.1 := by
  rw [close]
  split
  · exact ⟨rfl, rfl⟩
  · dsimp only
    split
    · exact Locked.finish ⟨rfl, rfl⟩
    · exact ⟨rfl, rfl⟩

theorem read_locked (stream : Stream V E N) (reader : Nat) :
    Locked stream (stream.read reader) := by
  unfold read
  split
  · exact ⟨rfl, rfl⟩
  · split
    · dsimp only
      split
      · exact Locked.finish ⟨rfl, rfl⟩
      · exact Locked.pull ⟨rfl, rfl⟩
    · split
      · exact ⟨rfl, rfl⟩
      · exact ⟨rfl, rfl⟩
      · exact ⟨rfl, rfl⟩
      · exact Locked.pull ⟨rfl, rfl⟩

theorem perform_reader (stream : Stream V E N) (step : Step V E N) :
    stream.readers ≤ (stream.perform step).readers ∧
      ((stream.perform step).reader = stream.reader ∨ (stream.perform step).reader = none ∨
        (stream.perform step).reader = some stream.readers) := by
  have locks : ∀ {after : Stream V E N}, Locked stream after →
      stream.readers ≤ after.readers ∧ (after.reader = stream.reader ∨ after.reader = none ∨
        after.reader = some stream.readers) :=
    fun locked => ⟨Nat.le_of_eq locked.2.symm, .inl locked.1⟩
  have same : Locked stream stream := ⟨rfl, rfl⟩
  cases step with
  | started =>
    rw [perform]
    split
    · exact locks (Locked.pull ⟨rfl, rfl⟩)
    · exact locks same
  | startFailed error =>
    rw [perform]
    split
    · exact locks (Locked.fail ⟨rfl, rfl⟩ _)
    · exact locks same
  | enqueue value size => exact locks (enqueue_locked stream value size)
  | close => exact locks (close_locked stream)
  | error error => exact locks (same.fail _)
  | cancel =>
    rw [perform]
    split
    · exact locks same
    · exact locks same.cancel
  | readerCancel reader =>
    rw [perform]
    split
    · exact locks same.cancel
    · exact locks same
  | getReader =>
    rw [perform, getReader]
    split
    · exact locks same
    · exact ⟨Nat.le_succ _, .inr (.inr rfl)⟩
  | read reader => exact locks (read_locked stream reader)
  | releaseLock reader =>
    rw [perform, releaseLock]
    split
    · exact locks same
    · exact ⟨Nat.le_refl _, .inr (.inl rfl)⟩
  | pullCall =>
    rw [perform]
    split
    · exact locks ⟨rfl, rfl⟩
    · exact locks same
  | pulled =>
    rw [perform]
    split
    · rw [pulled]
      split
      · exact locks (Locked.pull ⟨rfl, rfl⟩)
      · exact locks ⟨rfl, rfl⟩
    · exact locks same
  | pullFailed error =>
    rw [perform]
    split
    · exact locks (Locked.fail ⟨rfl, rfl⟩ _)
    · exact locks same

end Stream
end Chuzz.Streams
