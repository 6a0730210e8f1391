import Chuzz.Streams.Steps

/-! `tee`: a reader of the source hands its chunks to two branches. That a branch was
canceled is told by a reaction of its own, behind which the reader's reactions may run. -/
namespace Chuzz.Streams
open Library.Transition List

inductive End (E : Type) where
  | closed
  | errored (failure : Failure E)
deriving DecidableEq, Repr

/-- The branches are `false` and `true`, in this order. The last five fields are history: the
chunks that the source had delivered before, those that the reader took from it, how they
ended, whether it had been canceled before and whether it was canceled here. -/
structure Tee (V E N : Type) where
  source : Stream V E N
  branches : Bool → Stream V E N
  reader : Nat
  cloneBytes : Bool
  canceled : Bool → Bool := fun _ => false
  /-- The reactions that are to tell that a branch was canceled. -/
  jobs : Bool → Bool := fun _ => false
  reading : Bool := false
  /-- The number of the read under way. -/
  request : Nat := 0
  again : Bool := false
  finished : Bool := false
  skipped : List V
  received : List V := []
  ended : Option (End E) := none
  precanceled : Bool
  sourceCanceled : Bool := false

inductive Event (V E N : Type) where
  /-- A call of the source's script, a reaction, or a call by another reader. -/
  | source (step : Step V E N)
  | branch (index : Bool) (step : Step V E N)
  /-- The reaction to a read of the reader. -/
  | react
  | cancelJob (index : Bool)

namespace Tee
variable {V E N : Type} [Number N]

def start (stream : Stream V E N) (cloneBytes : Bool) : Tee V E N where
  source := stream.getReader
  branches _ := .start Number.one
  reader := stream.readers
  cloneBytes := cloneBytes
  skipped := stream.delivered
  precanceled := stream.canceled

def next (tee : Tee V E N) : Tee V E N :=
  if tee.finished then tee
  else if tee.reading then { tee with again := true }
  else
    { tee with
      reading := true, request := tee.source.answers.length
      source := tee.source.read tee.reader }

def setBranch (tee : Tee V E N) (index : Bool) (stream : Stream V E N) : Tee V E N :=
  { tee with branches := Function.update tee.branches index stream }

/-- A callback for both controllers in turn, up to the first that throws. -/
def forEach (call : Tee V E N → Bool → Tee V E N × Bool) (tee : Tee V E N) : Tee V E N × Bool :=
  match call tee false with
  | (tee, true) => call tee true
  | (tee, false) => (tee, false)

/-- A branch's stream of its own calls the controller unless it is canceled. -/
def control (call : Stream V E N → Stream V E N × Bool) (tee : Tee V E N) (index : Bool) :
    Tee V E N × Bool :=
  if tee.canceled index then (tee, true)
  else
    let (stream, returned) := call (tee.branches index)
    (tee.setBranch index stream, returned)

/-- The value that a branch is given, a copy where it holds bytes that the other has. -/
def shown (copy : V → V) (cloneBytes index : Bool) (value : V) : V :=
  if cloneBytes && index then copy value else value

def hand (copy : V → V) (value : V) (tee : Tee V E N) (index : Bool) : Tee V E N × Bool :=
  tee.control (·.enqueue (shown copy tee.cloneBytes index value) (.ok Number.one)) index

/-- The reader is released once the source has ended. -/
def conclude (tee : Tee V E N) : Tee V E N :=
  { tee with finished := true, source := tee.source.releaseLock tee.reader }

def react (copy : V → V) (tee : Tee V E N) : Tee V E N :=
  if tee.reading = false ∨ tee.finished = true then tee
  else
    match tee.source.answers[tee.request]? with
    | some (.chunk value) =>
      match { tee with
          reading := false, received := tee.received ++ [value] }.forEach (hand copy value) with
      | (tee, true) => if tee.again then { tee with again := false }.next else tee
      | (tee, false) => tee
    | some .done =>
      match { tee with reading := false, ended := some .closed }.forEach (control (·.close)) with
      | (tee, true) => tee.conclude
      | (tee, false) => tee
    | some (.rejected failure) =>
      ({ tee with ended := some (.errored failure) }.forEach
        (control fun stream => (stream.fail failure, true))).1.conclude
    | _ => tee

/-- A branch's `cancel` of its source. -/
def cancelJob (tee : Tee V E N) (index : Bool) : Tee V E N :=
  if tee.jobs index then
    let tee := { tee with
      canceled := Function.update tee.canceled index true
      jobs := Function.update tee.jobs index false }
    if tee.canceled false && tee.canceled true && tee.source.reader = some tee.reader then
      { tee with source := tee.source.cancel, sourceCanceled := true }
    else tee
  else tee

def branch (tee : Tee V E N) (index : Bool) (step : Step V E N) : Tee V E N :=
  let before := tee.branches index
  let after := before.perform step
  let tee := tee.setBranch index after
  let tee := { tee with
    jobs := Function.update tee.jobs index
      (tee.jobs index || (after.canceled && !before.canceled)) }
  match step with
  | .pullCall => if before.job = .call then tee.next else tee
  | _ => tee

def perform (copy : V → V) (tee : Tee V E N) : Event V E N → Tee V E N
  | .source step =>
    if step.uses tee.reader then tee else { tee with source := tee.source.perform step }
  | .branch index step => if step.outer then tee.branch index step else tee
  | .react => tee.react copy
  | .cancelJob index => tee.cancelJob index

/-- A fulfilled read does not come to its reaction while the first branch's cancellation is
still to be told, unless the second branch is canceled too. -/
def Prompt (tee : Tee V E N) : Event V E N → Prop
  | .react => (∃ failure, tee.source.answers[tee.request]? = some (.rejected failure)) ∨
      ((tee.branches false).canceled = true →
        tee.canceled false = true ∨ (tee.branches true).canceled = true)
  | _ => True

def Start (tee : Tee V E N) : Prop :=
  ∃ stream : Stream V E N, ∃ cloneBytes, stream.Reached ∧ stream.reader = none ∧
    tee = start stream cloneBytes

def Reached (copy : V → V) : Tee V E N → Prop :=
  Reachable Start fun before event after => before.perform copy event = after

/-- Reached with every step prompt. -/
def ReachedPrompt (copy : V → V) : Tee V E N → Prop :=
  Reachable Start (restrict (fun before event after => before.perform copy event = after) Prompt)

/-- What a branch has been given, and how it was ended. -/
structure Given (branch : Stream V E N) (chunks : List V) (ended : Option (End E)) : Prop where
  enqueued : branch.enqueued = chunks
  open_ : ended = none → branch.status = .readable ∧ branch.closing = false
  closed : ended = some .closed → branch.closing = true ∧ branch.status ≠ .errored
  errored : ∀ failure, ended = some (.errored failure) →
    branch.status = .errored ∧ branch.error = some failure

/-- An answer tells how the stream has ended. -/
def Honest (stream : Stream V E N) (answer : Answer V E) : Prop :=
  (answer = .done → stream.status = .closed) ∧
    ∀ failure, answer = .rejected failure →
      stream.status = .errored ∧ stream.error = some failure

/-- The reader and its reads, until it is released. -/
structure Reads (tee : Tee V E N) : Prop where
  held : tee.source.reader = some tee.reader
  idle : tee.reading = false → .waiting ∉ tee.source.answers ∧
    tee.source.delivered = tee.skipped ++ tee.received
  busy : tee.reading = true → ∃ front last, tee.source.answers = front ++ [last] ∧
    front.length = tee.request ∧ .waiting ∉ front ∧
    Stream.chunks front = tee.skipped ++ tee.received ∧ Honest tee.source last ∧
    (tee.ended ≠ none → last = .done)
  ended : tee.ended = none ∨ tee.ended = some .closed

structure Sound (copy : V → V) (tee : Tee V E N) : Prop where
  source : tee.source.Sound
  branches : ∀ index, (tee.branches index).Sound
  given : ∀ index, (tee.branches index).canceled = false → Given (tee.branches index)
    (tee.received.map (shown copy tee.cloneBytes index)) tee.ended
  flagged : ∀ index, tee.canceled index = true → (tee.branches index).canceled = true
  told : ∀ index, (tee.branches index).canceled = true →
    tee.canceled index = true ∨ tee.jobs index = true
  job : ∀ index, tee.jobs index = true → (tee.branches index).canceled = true
  reads : tee.finished = false → tee.Reads
  initial : tee.skipped ++ tee.received <+: tee.source.enqueued
  closed : tee.ended = some .closed → tee.source.status = .closed ∧
    (tee.source.canceled = false → tee.skipped ++ tee.received = tee.source.enqueued)
  errored : ∀ failure, tee.ended = some (.errored failure) →
    tee.source.status = .errored ∧ tee.source.error = some failure
  finished : tee.finished = true → tee.ended ≠ none
  both : tee.sourceCanceled = true → tee.canceled false = true ∧ tee.canceled true = true
  cancels : tee.canceled false = true → tee.canceled true = true →
    tee.sourceCanceled = true ∨ tee.finished = true
  origin : tee.source.canceled = true → tee.precanceled = true ∨ tee.sourceCanceled = true

variable {tee after : Tee V E N} {copy : V → V} {branch : Stream V E N} {chunks : List V}
  {step : Step V E N}

theorem Given.outer {ended : Option (End E)}
    (given : Given branch chunks ended) (outer : step.outer = true)
    (running : (branch.perform step).canceled = false) :
    Given (branch.perform step) chunks ended := by
  obtain ⟨enqueued, closing, error, status⟩ := Stream.outer_same outer running
  constructor
  · exact enqueued.trans given.enqueued
  · intro none
    obtain ⟨readable, open_⟩ := given.open_ none
    rcases status with same | ⟨closed, _⟩
    · exact ⟨same.trans readable, closing.trans open_⟩
    · rw [open_] at closed
      cases closed
  · intro past
    obtain ⟨closed, sane⟩ := given.closed past
    refine ⟨closing.trans closed, ?_⟩
    rcases status with same | ⟨_, _, finished⟩
    · rwa [same]
    · simp [finished]
  · intro failure past
    obtain ⟨errored, same⟩ := given.errored failure past
    rcases status with kept | ⟨_, readable, _⟩
    · exact ⟨kept.trans errored, error.trans same⟩
    · rw [errored] at readable
      cases readable

theorem Given.enqueue (given : Given branch chunks none) (value : V) :
    (branch.enqueue value (.ok Number.one)).2 = true ∧
      Given (branch.enqueue value (.ok Number.one)).1 (chunks ++ [value]) none := by
  obtain ⟨readable, open_⟩ := given.open_ rfl
  have pulled : ∀ stream : Stream V E N, stream.enqueued = chunks ++ [value] →
      stream.status = .readable → stream.closing = false →
      Given stream.pull (chunks ++ [value]) none := by
    intro stream enqueued readable open_
    obtain ⟨again, pulling, job, same⟩ := stream.pull_same
    rw [same]
    exact ⟨enqueued, fun _ => ⟨readable, open_⟩, fun past => (by cases past),
      fun _ past => (by cases past)⟩
  have more : branch.enqueued ++ [value] = chunks ++ [value] := by rw [given.enqueued]
  unfold Stream.enqueue
  rw [if_neg (by simp [readable, open_])]
  cases branch.reads with
  | cons read reads => exact ⟨rfl, pulled _ more readable open_⟩
  | nil =>
    dsimp only
    rw [if_pos Number.valid_one]
    exact ⟨rfl, pulled _ more readable open_⟩

omit [Number N] in
theorem Given.close (given : Given branch chunks none) :
    branch.close.2 = true ∧ Given branch.close.1 chunks (some .closed) := by
  obtain ⟨readable, open_⟩ := given.open_ rfl
  rw [Stream.close, if_neg (by simp [readable, open_])]
  refine ⟨rfl, ?_⟩
  dsimp only
  split
  · rw [Stream.finish, if_pos readable]
    exact ⟨given.enqueued, fun none => (by cases none), fun _ => ⟨rfl, by simp⟩,
      fun _ past => (by cases past)⟩
  · exact ⟨given.enqueued, fun none => (by cases none), fun _ => ⟨rfl, by simp [readable]⟩,
      fun _ past => (by cases past)⟩

theorem Given.fail (given : Given branch chunks none)
    (failure : Failure E) : Given (branch.fail failure) chunks (some (.errored failure)) := by
  obtain ⟨readable, open_⟩ := given.open_ rfl
  rw [Stream.fail, if_pos readable]
  refine ⟨given.enqueued, fun none => (by cases none), fun past => (by cases past), ?_⟩
  rintro other same
  obtain rfl := End.errored.inj (Option.some.inj same)
  exact ⟨rfl, rfl⟩

variable {source : Stream V E N}

omit [Number N] in
theorem Reads.idle_same (reads : tee.Reads) (idle : tee.reading = false)
    (settles : Stream.Settles tee.source source) : source.answers = tee.source.answers := by
  apply ext_getElem?
  intro read
  by_cases inside : read < tee.source.answers.length
  · have here := getElem?_eq_getElem inside
    rw [settles.settled read _ here, here]
    intro waits
    exact (reads.idle idle).1 (waits ▸ getElem_mem inside)
  · rw [getElem?_eq_none (Nat.le_of_not_lt inside),
      getElem?_eq_none (by rw [settles.length]; omega)]

omit [Number N] in
theorem Reads.settles (reads : tee.Reads) (settles : Stream.Settles tee.source source)
    (later : Stream.Later tee.source source) : Reads { tee with source } where
  held := settles.reader.trans reads.held
  idle idle := by
    have same := reads.idle_same idle settles
    obtain ⟨past, flow⟩ := reads.idle idle
    dsimp only
    rw [Stream.delivered, same]
    exact ⟨past, flow⟩
  busy busy := by
    obtain ⟨front, last, answers, length, past, flow, honest, ended⟩ := reads.busy busy
    obtain ⟨next, same, kept, done, rejected⟩ := settles.last later answers past
    refine ⟨front, next, same, length, past, flow, ⟨done honest.1, rejected honest.2⟩, ?_⟩
    intro some
    have finished := ended some
    exact (kept (by simp [finished])).trans finished
  ended := reads.ended

theorem Reads.next (reads : tee.Reads) (fits : tee.source.Sound)
    (closed : tee.ended = some .closed → tee.source.status = .closed) : tee.next.Reads := by
  rw [Tee.next]
  split
  · exact reads
  · split
    · exact { reads with }
    · rename_i idle
      obtain ⟨past, flow⟩ := reads.idle (by simpa using idle)
      obtain ⟨last, answers, done, rejected, finished, reader, _⟩ :=
        Stream.read_answers fits reads.held
      refine ⟨reader.trans reads.held, fun waits => (by cases waits), fun _ => ?_, reads.ended⟩
      refine ⟨tee.source.answers, last, answers, rfl, past, flow, ⟨done, rejected⟩, ?_⟩
      intro some
      exact finished (closed (reads.ended.resolve_left some))

/-- What a change of the source and of its reads leaves. -/
structure Same (before after : Tee V E N) : Prop where
  branches : after.branches = before.branches
  cloneBytes : after.cloneBytes = before.cloneBytes
  canceled : after.canceled = before.canceled
  jobs : after.jobs = before.jobs
  finished : after.finished = before.finished
  skipped : after.skipped = before.skipped
  received : after.received = before.received
  ended : after.ended = before.ended
  precanceled : after.precanceled = before.precanceled
  sourceCanceled : after.sourceCanceled = before.sourceCanceled

omit [Number N] in
theorem Sound.move (sound : tee.Sound copy) (same : Same tee after) (fits : after.source.Sound)
    (later : Stream.Later tee.source after.source)
    (origin : after.source.canceled = true → tee.source.canceled = true)
    (reads : after.finished = false → after.Reads) : after.Sound copy := by
  constructor
  · exact fits
  · rw [same.branches]
    exact sound.branches
  · rw [same.branches, same.received, same.cloneBytes, same.ended]
    exact sound.given
  · rw [same.canceled, same.branches]
    exact sound.flagged
  · rw [same.branches, same.canceled, same.jobs]
    exact sound.told
  · rw [same.jobs, same.branches]
    exact sound.job
  · exact reads
  · rw [same.skipped, same.received]
    exact sound.initial.trans later.enqueued
  · rw [same.ended, same.skipped, same.received]
    intro past
    obtain ⟨closed, whole⟩ := sound.closed past
    obtain ⟨status, _, enqueued, canceled⟩ := later.ended (by simp [closed])
    rw [status, enqueued, canceled]
    exact ⟨closed, whole⟩
  · rw [same.ended]
    intro failure past
    obtain ⟨errored, error⟩ := sound.errored failure past
    obtain ⟨status, kept, _⟩ := later.ended (by simp [errored])
    rw [status, kept]
    exact ⟨errored, error⟩
  · rw [same.finished, same.ended]
    exact sound.finished
  · rw [same.sourceCanceled, same.canceled]
    exact sound.both
  · rw [same.canceled, same.sourceCanceled, same.finished]
    exact sound.cancels
  · rw [same.precanceled, same.sourceCanceled]
    exact fun canceled => sound.origin (origin canceled)

theorem Sound.next (sound : tee.Sound copy) : tee.next.Sound copy := by
  by_cases finished : tee.finished = true
  · rw [Tee.next, if_pos finished]
    exact sound
  · have unfinished : tee.finished = false := by simpa using finished
    have reads := sound.reads unfinished
    have same : Same tee tee.next := by
      rw [Tee.next]
      split
      · exact ⟨rfl, rfl, rfl, rfl, rfl, rfl, rfl, rfl, rfl, rfl⟩
      · split <;> exact ⟨rfl, rfl, rfl, rfl, rfl, rfl, rfl, rfl, rfl, rfl⟩
    have source : tee.next.source = tee.source ∨
        tee.next.source = tee.source.read tee.reader := by
      rw [Tee.next]
      split
      · exact .inl rfl
      · split
        · exact .inl rfl
        · exact .inr rfl
    have next := reads.next sound.source fun past => (sound.closed past).1
    rcases source with kept | read
    · apply sound.move same
      · exact kept ▸ sound.source
      · exact kept ▸ .refl _
      · exact fun canceled => kept ▸ canceled
      · exact fun _ => next
    · apply sound.move same
      · exact read ▸ Stream.read_sound sound.source tee.reader
      · exact read ▸ Stream.read_later tee.source tee.reader
      · obtain ⟨_, _, _, _, _, _, canceled⟩ := Stream.read_answers sound.source reads.held
        rw [read, canceled]
        exact id
      · exact fun _ => next

theorem Sound.sourceStep (sound : tee.Sound copy) (foreign : step.uses tee.reader = false) :
    ({ tee with source := tee.source.perform step } : Tee V E N).Sound copy := by
  have later := Stream.perform_later tee.source step
  have same : Same tee { tee with source := tee.source.perform step } :=
    ⟨rfl, rfl, rfl, rfl, rfl, rfl, rfl, rfl, rfl, rfl⟩
  by_cases finished : tee.finished = true
  · apply sound.move same (Stream.perform_sound sound.source step) later
    · intro canceled
      have ended : tee.source.status ≠ .readable := by
        cases past : tee.ended with
        | none => exact absurd past (sound.finished finished)
        | some ending =>
          cases ending with
          | closed => simp [(sound.closed past).1]
          | errored failure => simp [(sound.errored failure past).1]
      rwa [← (later.ended ended).2.2.2]
    · exact fun unfinished => absurd (finished.symm.trans unfinished) (by simp)
  · have reads := sound.reads (by simpa using finished)
    obtain ⟨settles, canceled⟩ := Stream.perform_settles sound.source reads.held foreign
    apply sound.move same (Stream.perform_sound sound.source step) later
    · exact fun now => canceled ▸ now
    · exact fun _ => reads.settles settles later

omit [Number N] in
theorem canceled_later {before after : Stream V E N} (sound : before.Sound)
    (later : Stream.Later before after) (canceled : before.canceled = true) :
    after.canceled = true := by
  have ended : before.status ≠ .readable := by
    intro readable
    rw [sound.open_ readable] at canceled
    cases canceled
  rw [(later.ended ended).2.2.2, canceled]

theorem Sound.branchStep (sound : tee.Sound copy) (index : Bool)
    (outer : step.outer = true) : (tee.branch index step).Sound copy := by
  have later := Stream.perform_later (tee.branches index) step
  have moved : ({ tee.setBranch index ((tee.branches index).perform step) with
      jobs := Function.update tee.jobs index (tee.jobs index ||
        (((tee.branches index).perform step).canceled && !(tee.branches index).canceled)) } :
      Tee V E N).Sound copy := by
    have keeps := canceled_later (sound.branches index) later
    constructor
    · exact sound.source
    · intro other
      by_cases same : other = index
      · subst same
        simpa [setBranch] using Stream.perform_sound (sound.branches other) step
      · simpa [setBranch, same] using sound.branches other
    · intro other running
      by_cases same : other = index
      · subst same
        simp only [setBranch, Function.update_self] at running ⊢
        have before : (tee.branches other).canceled = false := by
          by_contra canceled
          rw [keeps (by simpa using canceled)] at running
          cases running
        exact (sound.given other before).outer outer running
      · simp only [setBranch, Function.update_of_ne same] at running ⊢
        exact sound.given other running
    · intro other flagged
      by_cases same : other = index
      · subst same
        simpa [setBranch] using keeps (sound.flagged other flagged)
      · simpa [setBranch, same] using sound.flagged other flagged
    · intro other canceled
      by_cases same : other = index
      · subst same
        simp only [setBranch, Function.update_self] at canceled ⊢
        cases before : (tee.branches other).canceled with
        | true => exact (sound.told other before).imp id (by simp +contextual)
        | false => simp [canceled]
      · simp only [setBranch, Function.update_of_ne same] at canceled ⊢
        exact sound.told other canceled
    · intro other job
      by_cases same : other = index
      · subst same
        simp only [setBranch, Function.update_self, Bool.or_eq_true, Bool.and_eq_true] at job ⊢
        rcases job with old | new
        · exact keeps (sound.job other old)
        · exact new.1
      · simp only [setBranch, Function.update_of_ne same] at job ⊢
        exact sound.job other job
    · intro unfinished
      have reads := sound.reads unfinished
      exact { reads with }
    · exact sound.initial
    · exact sound.closed
    · exact sound.errored
    · exact sound.finished
    · exact sound.both
    · exact sound.cancels
    · exact sound.origin
  unfold branch
  dsimp only
  split
  · split
    · exact moved.next
    · exact moved
  · exact moved

omit [Number N] in
theorem Sound.tell (sound : tee.Sound copy) {index : Bool} (job : tee.jobs index = true)
    {flag : Bool} (fits : source.Sound) (later : Stream.Later tee.source source)
    (reads : tee.finished = false → Reads { tee with source })
    (both : flag = true → ∀ other, Function.update tee.canceled index true other = true)
    (cancels : (∀ other, Function.update tee.canceled index true other = true) →
      flag = true ∨ tee.finished = true)
    (origin : source.canceled = true → tee.precanceled = true ∨ flag = true) : ({ tee with
      canceled := Function.update tee.canceled index true
      jobs := Function.update tee.jobs index false
      source, sourceCanceled := flag } : Tee V E N).Sound copy := by
  constructor
  · exact fits
  · exact sound.branches
  · exact sound.given
  · intro other flagged
    by_cases same : other = index
    · subst same
      exact sound.job other job
    · simp only [Function.update_of_ne same] at flagged
      exact sound.flagged other flagged
  · intro other canceled
    by_cases same : other = index
    · subst same
      simp
    · simp only [Function.update_of_ne same]
      exact sound.told other canceled
  · intro other still
    by_cases same : other = index
    · subst same
      simp at still
    · simp only [Function.update_of_ne same] at still
      exact sound.job other still
  · intro unfinished
    have reads := reads unfinished
    exact { reads with }
  · exact sound.initial.trans later.enqueued
  · intro past
    obtain ⟨closed, whole⟩ := sound.closed past
    obtain ⟨status, _, enqueued, canceled⟩ := later.ended (by simp [closed])
    rw [status, enqueued, canceled]
    exact ⟨closed, whole⟩
  · intro failure past
    obtain ⟨errored, error⟩ := sound.errored failure past
    obtain ⟨status, kept, _⟩ := later.ended (by simp [errored])
    rw [status, kept]
    exact ⟨errored, error⟩
  · exact sound.finished
  · exact fun set => ⟨both set false, both set true⟩
  · intro first second
    apply cancels
    rintro (_ | _)
    · exact first
    · exact second
  · exact origin

theorem Sound.cancelJob (sound : tee.Sound copy) (index : Bool) :
    (tee.cancelJob index).Sound copy := by
  rw [Tee.cancelJob]
  split
  · rename_i job
    have mono : ∀ other, tee.canceled other = true →
        Function.update tee.canceled index true other = true := by
      intro other canceled
      by_cases same : other = index <;> simp [same, canceled]
    dsimp only
    split
    · rename_i all
      simp only [Bool.and_eq_true, decide_eq_true_eq] at all
      apply sound.tell job
      · exact Stream.cancel_sound sound.source
      · exact Stream.cancel_later tee.source
      · intro unfinished
        exact (sound.reads unfinished).settles (Stream.cancel_settles sound.source)
          (Stream.cancel_later tee.source)
      · rintro _ (_ | _)
        · exact all.1.1
        · exact all.1.2
      · exact fun _ => .inl rfl
      · exact fun _ => .inr rfl
    · rename_i some
      apply sound.tell job
      · exact sound.source
      · exact .refl _
      · exact sound.reads
      · rintro set (_ | _)
        · exact mono false (sound.both set).1
        · exact mono true (sound.both set).2
      · intro all
        -- without the reader the source has ended
        by_contra neither
        rw [not_or] at neither
        apply some
        simp only [Bool.and_eq_true, decide_eq_true_eq]
        exact ⟨⟨all false, all true⟩, (sound.reads (by simpa using neither.2)).held⟩
      · exact sound.origin
  · exact sound

section
omit [Number N]

theorem forEach_given (tee : Tee V E N) (call : Bool → Stream V E N → Stream V E N × Bool)
    (each : Tee V E N → Bool → Tee V E N × Bool) (chunks : Bool → List V) (ended : Option (End E))
    (here : each tee false = tee.control (call false) false)
    (there : ∀ stream, each (tee.setBranch false stream) true =
      (tee.setBranch false stream).control (call true) true)
    (fits : ∀ index, (tee.branches index).Sound ∧ (call index (tee.branches index)).1.Sound)
    (canceled : ∀ index,
      (call index (tee.branches index)).1.canceled = (tee.branches index).canceled)
    (flagged : ∀ index, tee.canceled index = true → (tee.branches index).canceled = true)
    (gives : ∀ index, (tee.branches index).canceled = false →
      Given (call index (tee.branches index)).1 (chunks index) ended)
    (reach : (tee.branches true).canceled = true ∨ tee.canceled false = true ∨
      (call false (tee.branches false)).2 = true ∨
      Given (tee.branches true) (chunks true) ended) :
    ∃ branches returned, tee.forEach each = ({ tee with branches }, returned) ∧
      (∀ index, (branches index).Sound) ∧
      (∀ index, (branches index).canceled = (tee.branches index).canceled) ∧
      ∀ index, (branches index).canceled = false →
        Given (branches index) (chunks index) ended := by
  -- the first controller
  obtain ⟨first, back, called, fit, same, given, passed⟩ : ∃ first back,
      each tee false = (tee.setBranch false first, back) ∧ first.Sound ∧
      first.canceled = (tee.branches false).canceled ∧
      (first.canceled = false → Given first (chunks false) ended) ∧
      (back = false → (tee.branches true).canceled = true ∨
        Given (tee.branches true) (chunks true) ended) := by
    rw [here, control]
    split
    · rename_i skips
      refine ⟨tee.branches false, true, ?_, (fits false).1, rfl, ?_, fun none => (by cases none)⟩
      · rw [setBranch, Function.update_eq_self]
      · intro running
        rw [flagged false skips] at running
        cases running
    · rename_i skips
      refine ⟨_, _, rfl, (fits false).2, canceled false, ?_, ?_⟩
      · exact fun running => gives false ((canceled false).symm.trans running)
      · intro threw
        rcases reach with gone | told | returned | given
        · exact .inl gone
        · exact absurd told skips
        · rw [returned] at threw
          cases threw
        · exact .inr given
  rw [forEach, called]
  cases back with
  | false =>
    refine ⟨_, false, rfl, ?_, ?_, ?_⟩
    · rintro (_ | _)
      · exact fit
      · exact (fits true).1
    · rintro (_ | _)
      · exact same
      · rfl
    · rintro (_ | _) running
      · exact given running
      · rcases passed rfl with gone | given
        · exact absurd (gone.symm.trans running) (by simp)
        · exact given
  | true =>
    dsimp only
    rw [there, control]
    split
    · rename_i skips
      refine ⟨_, true, rfl, ?_, ?_, ?_⟩
      · rintro (_ | _)
        · exact fit
        · exact (fits true).1
      · rintro (_ | _)
        · exact same
        · rfl
      · rintro (_ | _) running
        · exact given running
        · exact absurd ((flagged true skips).symm.trans running) (by simp)
    · refine ⟨_, _, rfl, ?_, ?_, ?_⟩
      · rintro (_ | _)
        · exact fit
        · exact (fits true).2
      · rintro (_ | _)
        · exact same
        · exact canceled true
      · rintro (_ | _) running
        · exact given running
        · exact gives true ((canceled true).symm.trans running)

theorem Sound.handed (sound : tee.Sound copy) {branches : Bool → Stream V E N}
    {reading finished : Bool} {received : List V} {ended : Option (End E)}
    (fits : ∀ index, (branches index).Sound)
    (canceled : ∀ index, (branches index).canceled = (tee.branches index).canceled)
    (given : ∀ index, (branches index).canceled = false →
      Given (branches index) (received.map (shown copy tee.cloneBytes index)) ended)
    (reads : finished = false → Reads { tee with branches, reading, finished, received, ended })
    (initial : tee.skipped ++ received <+: tee.source.enqueued)
    (closed : ended = some .closed → tee.source.status = .closed ∧
      (tee.source.canceled = false → tee.skipped ++ received = tee.source.enqueued))
    (errored : ∀ failure, ended = some (.errored failure) →
      tee.source.status = .errored ∧ tee.source.error = some failure)
    (past : finished = true → ended ≠ none) (before : tee.finished = true → finished = true) :
    ({ tee with branches, reading, finished, received, ended } : Tee V E N).Sound copy where
  source := sound.source
  branches := fits
  given := given
  flagged index flagged := (canceled index).trans (sound.flagged index flagged)
  told index gone := sound.told index ((canceled index).symm.trans gone)
  job index job := (canceled index).trans (sound.job index job)
  reads := reads
  initial := initial
  closed := closed
  errored := errored
  finished := past
  both := sound.both
  cancels first second := (sound.cancels first second).imp id before
  origin := sound.origin

theorem Sound.release (sound : tee.Sound copy) (finished : tee.finished = true) :
    ({ tee with source := tee.source.releaseLock tee.reader } : Tee V E N).Sound copy := by
  have same : Same tee { tee with source := tee.source.releaseLock tee.reader } :=
    ⟨rfl, rfl, rfl, rfl, rfl, rfl, rfl, rfl, rfl, rfl⟩
  apply sound.move same
  · exact Stream.releaseLock_sound sound.source tee.reader
  · dsimp only
    rw [Stream.releaseLock]
    split
    · exact .refl _
    · exact .frame rfl rfl rfl rfl
  · dsimp only
    rw [Stream.releaseLock]
    split <;> exact id
  · exact fun unfinished => absurd (finished.symm.trans unfinished) (by simp)

end

variable {front : List (Answer V E)}

theorem Sound.hand (sound : tee.Sound copy) (reads : tee.Reads) (open_ : tee.ended = none)
    {value : V} (answers : tee.source.answers = front ++ [.chunk value])
    (past : .waiting ∉ front) (flow : Stream.chunks front = tee.skipped ++ tee.received)
    (unfinished : tee.finished = false)
    (reach : (tee.branches false).canceled = true →
      tee.canceled false = true ∨ (tee.branches true).canceled = true) :
    ∃ after returned, forEach (Tee.hand copy value) { tee with
        reading := false, received := tee.received ++ [value] } = (after, returned) ∧
      after.Sound copy := by
  have first : (tee.branches true).canceled = true ∨ tee.canceled false = true ∨
      ((tee.branches false).enqueue (shown copy tee.cloneBytes false value)
        (.ok Number.one)).2 = true := by
    cases gone : (tee.branches false).canceled with
    | true => exact (reach gone).elim (fun told => .inr (.inl told)) .inl
    | false => exact .inr (.inr ((open_ ▸ sound.given false gone).enqueue _).1)
  obtain ⟨branches, returned, called, fits, canceled, given⟩ := forEach_given
    { tee with reading := false, received := tee.received ++ [value] }
    (fun index stream => stream.enqueue (shown copy tee.cloneBytes index value) (.ok Number.one))
    (Tee.hand copy value)
    (fun index => (tee.received ++ [value]).map (shown copy tee.cloneBytes index)) none
    rfl (fun _ => rfl)
    (fun index => ⟨sound.branches index, Stream.enqueue_sound (sound.branches index) _ _⟩)
    (fun _ => Stream.enqueue_canceled _ _ _) sound.flagged
    (fun index running => by
      rw [map_append]
      exact ((open_ ▸ sound.given index running).enqueue _).2)
    (first.imp id (·.imp id .inl))
  have all : tee.source.delivered = tee.skipped ++ (tee.received ++ [value]) := by
    rw [Stream.delivered, answers, Stream.chunks_append, flow, append_assoc]
    rfl
  have past : .waiting ∉ tee.source.answers := by simp [answers, past]
  refine ⟨_, returned, called, ?_⟩
  rw [← open_] at given
  apply sound.handed fits canceled given
  · exact fun _ => ⟨reads.held, fun _ => ⟨past, all⟩, fun busy => (by cases busy), .inl open_⟩
  · obtain ⟨settled, answered⟩ := sound.source.answered
    rw [← all, answered.delivered]
    exact answered.ordered
  · exact fun closed => absurd (open_.symm.trans closed) (by simp)
  · exact fun _ errored => absurd (open_.symm.trans errored) (by simp)
  · exact fun finished => absurd (finished.symm.trans unfinished) (by simp)
  · exact id

omit [Number N] in
/-- The reaction to a read that told the end, which an earlier one may have told. -/
theorem Sound.close (sound : tee.Sound copy) (reads : tee.Reads)
    (answers : tee.source.answers = front ++ [.done])
    (past : .waiting ∉ front) (flow : Stream.chunks front = tee.skipped ++ tee.received)
    (closed : tee.source.status = .closed) (unfinished : tee.finished = false)
    (reach : (tee.branches false).canceled = true →
      tee.canceled false = true ∨ (tee.branches true).canceled = true) :
    ∃ branches returned, forEach (control (·.close)) { tee with
        reading := false, ended := some End.closed } =
        ({ tee with reading := false, ended := some End.closed, branches }, returned) ∧
      ∀ finished, ({ tee with reading := false, ended := some End.closed, branches, finished } :
        Tee V E N).Sound copy := by
  have again : ∀ index, tee.ended ≠ none → (tee.branches index).canceled = false →
      Given (tee.branches index) (tee.received.map (shown copy tee.cloneBytes index))
        (some .closed) := by
    intro index some running
    rw [← reads.ended.resolve_left some]
    exact sound.given index running
  have first : (tee.branches true).canceled = true ∨ tee.canceled false = true ∨
      (tee.branches false).close.2 = true ∨ Given (tee.branches true)
        (tee.received.map (shown copy tee.cloneBytes true)) (some .closed) := by
    cases gone : (tee.branches false).canceled with
    | true => exact (reach gone).elim (fun told => .inr (.inl told)) .inl
    | false =>
      by_cases open_ : tee.ended = none
      · exact .inr (.inr (.inl (open_ ▸ sound.given false gone).close.1))
      · cases other : (tee.branches true).canceled with
        | true => exact .inl rfl
        | false => exact .inr (.inr (.inr (again true open_ other)))
  obtain ⟨branches, returned, called, fits, canceled, given⟩ := forEach_given
    { tee with reading := false, ended := some End.closed }
    (fun _ stream => stream.close) (control (·.close))
    (fun index => tee.received.map (shown copy tee.cloneBytes index)) (some .closed)
    rfl (fun _ => rfl)
    (fun index => ⟨sound.branches index, Stream.close_sound (sound.branches index)⟩)
    (fun _ => Stream.close_canceled _) sound.flagged
    (fun index running => by
      by_cases open_ : tee.ended = none
      · exact (open_ ▸ sound.given index running).close.2
      · have given := again index open_ running
        rw [Stream.close, if_pos (.inr (given.closed rfl).1)]
        exact given)
    first
  have all : tee.source.delivered = tee.skipped ++ tee.received := by
    rw [Stream.delivered, answers, Stream.chunks_append, flow]
    exact append_nil _
  have past : .waiting ∉ tee.source.answers := by simp [answers, past]
  obtain ⟨settled, answered⟩ := sound.source.answered
  rw [answered.delivered] at all
  refine ⟨branches, returned, called, fun finished => ?_⟩
  apply sound.handed fits canceled given
  · intro _
    refine ⟨reads.held, fun _ => ⟨past, ?_⟩, fun busy => (by cases busy), .inr rfl⟩
    exact answered.delivered.trans all
  · exact sound.initial
  · intro _
    refine ⟨closed, fun running => ?_⟩
    have whole := answered.whole running (by simp [closed])
    rwa [Stream.queued, sound.source.emptied (by simp [closed]), map_nil, append_nil,
      all] at whole
  · exact fun _ errored => by cases errored
  · exact fun _ => by simp
  · exact fun before => absurd (before.symm.trans unfinished) (by simp)

theorem Sound.fail (sound : tee.Sound copy) (open_ : tee.ended = none) {failure : Failure E}
    (errored : tee.source.status = .errored ∧ tee.source.error = some failure) :
    ∃ branches returned, forEach (control fun stream => (stream.fail failure, true)) { tee with
        ended := some (.errored failure) } =
        ({ tee with ended := some (.errored failure), branches }, returned) ∧
      ({ tee with
        ended := some (.errored failure), branches, finished := true } : Tee V E N).Sound copy := by
  obtain ⟨branches, returned, called, fits, canceled, given⟩ := forEach_given
    { tee with ended := some (.errored failure) }
    (fun _ stream => (stream.fail failure, true))
    (control fun stream => (stream.fail failure, true))
    (fun index => tee.received.map (shown copy tee.cloneBytes index)) (some (.errored failure))
    rfl (fun _ => rfl)
    (fun index => ⟨sound.branches index, Stream.fail_sound (sound.branches index) failure⟩)
    (fun _ => Stream.fail_canceled _ _) sound.flagged
    (fun index running => (open_ ▸ sound.given index running).fail failure)
    (.inr (.inr (.inl rfl)))
  refine ⟨branches, returned, called, ?_⟩
  apply sound.handed fits canceled given
  · exact fun unfinished => by cases unfinished
  · exact sound.initial
  · exact fun closed => by cases closed
  · intro other same
    obtain rfl := End.errored.inj (Option.some.inj same)
    exact errored
  · exact fun _ => by simp
  · exact fun _ => rfl

theorem Sound.react (sound : tee.Sound copy) (prompt : tee.Prompt (.react : Event V E N)) :
    (tee.react copy).Sound copy := by
  unfold Tee.react
  split
  · exact sound
  · rename_i busy
    rw [not_or, Bool.not_eq_false, Bool.not_eq_true] at busy
    obtain ⟨busy, unfinished⟩ := busy
    have reads := sound.reads unfinished
    obtain ⟨front, last, answers, length, past, flow, honest, done⟩ := reads.busy busy
    have here : tee.source.answers[tee.request]? = some last := by
      rw [answers, ← length, getElem?_append_right (Nat.le_refl _), Nat.sub_self]
      rfl
    have reach : (∀ failure, last ≠ .rejected failure) → (tee.branches false).canceled = true →
        tee.canceled false = true ∨ (tee.branches true).canceled = true := by
      intro fulfilled
      rcases prompt with ⟨failure, rejected⟩ | ordered
      · exact absurd (Option.some.inj (here.symm.trans rejected)) (fulfilled failure)
      · exact ordered
    have open_ : last ≠ .done → tee.ended = none := by
      intro more
      by_contra some
      exact more (done some)
    rw [here]
    cases last with
    | waiting => exact sound
    | chunk value =>
      obtain ⟨after, returned, called, handed⟩ := sound.hand reads (open_ (by simp)) answers past
        flow unfinished (reach (by simp))
      dsimp only
      rw [called]
      cases returned with
      | false => exact handed
      | true =>
        dsimp only
        split
        · apply Sound.next
          have same : Same after { after with again := false } :=
            ⟨rfl, rfl, rfl, rfl, rfl, rfl, rfl, rfl, rfl, rfl⟩
          apply handed.move same handed.source (.refl _) id
          intro unfinished
          have reads := handed.reads unfinished
          exact { reads with }
        · exact handed
    | done =>
      obtain ⟨branches, returned, called, handed⟩ := sound.close reads answers past flow
        (honest.1 rfl) unfinished (reach (by simp))
      rw [called]
      cases returned with
      | false => exact handed tee.finished
      | true => exact (handed true).release rfl
    | rejected failure =>
      obtain ⟨branches, returned, called, handed⟩ := sound.fail (open_ (by simp))
        (honest.2 failure rfl)
      dsimp only
      rw [called]
      exact handed.release rfl

theorem perform_sound (sound : tee.Sound copy) {event : Event V E N} (prompt : tee.Prompt event) :
    (tee.perform copy event).Sound copy := by
  cases event with
  | source step =>
    rw [perform]
    split
    · exact sound
    · rename_i foreign
      exact sound.sourceStep (by simpa using foreign)
  | branch index step =>
    rw [perform]
    split
    · exact sound.branchStep index ‹_›
    · exact sound
  | react => exact sound.react prompt
  | cancelJob index => exact sound.cancelJob index

theorem start_sound {stream : Stream V E N} (sound : stream.Sound) (free : stream.reader = none)
    (copy : V → V) (cloneBytes : Bool) : (start stream cloneBytes).Sound copy := by
  obtain ⟨settled, answered⟩ := sound.answered
  have nothing := sound.unlocked free
  have locked : stream.getReader = { stream with
      reader := some stream.readers, readers := stream.readers + 1 } := by
    rw [Stream.getReader, if_neg (by simp [free])]
  have past : .waiting ∉ stream.answers := by
    rw [answered.answers, nothing]
    simpa using answered.past
  constructor
  · exact Stream.perform_sound sound .getReader
  · exact fun _ => Stream.start_sound Number.one
  · exact fun _ _ => ⟨rfl, fun _ => ⟨rfl, rfl⟩, fun past => (by cases past),
      fun _ past => (by cases past)⟩
  · exact fun _ flagged => by cases flagged
  · exact fun _ canceled => by cases canceled
  · exact fun _ job => by cases job
  · intro _
    refine ⟨?_, fun _ => ?_, fun busy => (by cases busy), .inl rfl⟩
    · rw [start, locked]
    · rw [start, locked]
      exact ⟨past, (append_nil _).symm⟩
  · rw [start, locked]
    rw [append_nil, answered.delivered]
    exact answered.ordered
  · exact fun past => by cases past
  · exact fun _ past => by cases past
  · exact fun finished => by cases finished
  · exact fun canceled => by cases canceled
  · exact fun canceled => by cases canceled
  · intro canceled
    rw [start, locked] at canceled
    exact .inl canceled

theorem reached_prompt_sound (run : tee.ReachedPrompt copy) : tee.Sound copy := by
  apply Reachable.invariant _ _ run
  · rintro _ ⟨stream, cloneBytes, reached, free, rfl⟩
    exact start_sound (Stream.reached_sound reached) free copy cloneBytes
  · rintro before event _ _ sound ⟨rfl, prompt⟩
    exact perform_sound sound prompt

/-- What the branches make of the source. -/
structure Shares (copy : V → V) (tee : Tee V E N) : Prop where
  given : ∀ index, (tee.branches index).canceled = false → Given (tee.branches index)
    (tee.received.map (shown copy tee.cloneBytes index)) tee.ended
  received : tee.skipped ++ tee.received <+: tee.source.enqueued ∧
    (tee.finished = false → tee.reading = false →
      tee.source.delivered = tee.skipped ++ tee.received)
  closed : tee.ended = some .closed → tee.source.status = .closed ∧
    (tee.source.canceled = false → tee.skipped ++ tee.received = tee.source.enqueued)
  errored : ∀ failure, tee.ended = some (.errored failure) →
    tee.source.status = .errored ∧ tee.source.error = some failure
  finished : tee.finished = true → tee.ended ≠ none
  canceled : tee.sourceCanceled = true → ∀ index, (tee.branches index).canceled = true
  cancels : (∀ index, (tee.branches index).canceled = true ∧ tee.jobs index = false) →
    tee.sourceCanceled = true ∨ tee.finished = true
  origin : tee.source.canceled = true → tee.precanceled = true ∨ tee.sourceCanceled = true

omit [Number N] in
theorem Sound.shares (sound : tee.Sound copy) : tee.Shares copy where
  given := sound.given
  received := ⟨sound.initial, fun unfinished idle => ((sound.reads unfinished).idle idle).2⟩
  closed := sound.closed
  errored := sound.errored
  finished := sound.finished
  canceled set := by
    rintro (_ | _)
    · exact sound.flagged false (sound.both set).1
    · exact sound.flagged true (sound.both set).2
  cancels all := by
    have told : ∀ index, tee.canceled index = true := by
      intro index
      obtain ⟨canceled, still⟩ := all index
      exact (sound.told index canceled).resolve_right (by simp [still])
    exact sound.cancels (told false) (told true)
  origin := sound.origin

end Tee

namespace Stream
variable {V E N : Type} {stream : Stream V E N}

/-- What the reads of a stream resolve with, against what was enqueued. -/
structure Delivers (stream : Stream V E N) : Prop where
  ordered : stream.delivered <+: stream.enqueued
  whole : stream.canceled = false → stream.status ≠ .errored →
    stream.delivered ++ stream.queued = stream.enqueued
  apart : stream.reads = [] ∨ stream.queue = []
  closing : stream.closing = true → stream.reads = []
  done : ∀ read ∈ stream.reads, stream.close.1.answers[read]? = some Answer.done

theorem Sound.delivers (sound : stream.Sound) : stream.Delivers where
  ordered := by
    obtain ⟨settled, answered⟩ := sound.answered
    rw [answered.delivered]
    exact answered.ordered
  whole := by
    obtain ⟨settled, answered⟩ := sound.answered
    rw [answered.delivered]
    exact answered.whole
  apart := sound.apart
  closing closing := by
    by_contra waits
    have open_ := (sound.awaited waits).2
    rw [closing] at open_
    cases open_
  done _ waits := (close_done sound waits).1

end Stream

section
variable {V E N : Type} [Number N] {copy : V → V}

theorem reached_streams {stream : Stream V E N} (reached : stream.Reached) {tee : Tee V E N}
    (prompt : tee.ReachedPrompt copy) :
    stream.Delivers ∧ tee.Shares copy ∧ tee.source.Delivers ∧
      ∀ index, (tee.branches index).Delivers := by
  have sound := Tee.reached_prompt_sound prompt
  refine ⟨(Stream.reached_sound reached).delivers, sound.shares, sound.source.delivers, ?_⟩
  exact fun index => (sound.branches index).delivers

end

instance : Number Int where
  zero := 0
  one := 1
  add := (· + ·)
  sub := (· - ·)
  nonpositive number := number ≤ 0
  valid number := 0 ≤ number
  valid_one := rfl

def sampleStream : Stream Nat Nat Int := .start 1

def sampleTee : Tee Nat Nat Int := .start sampleStream false

/-- A chunk for the read that the first branch's pull has issued. -/
def sampleEvents : List (Event Nat Nat Int) :=
  [.source .started, .branch false .started, .branch true .started, .branch false .pullCall,
    .source (.enqueue 7 (.ok 1))]

theorem sampleTee_start : sampleTee.Start :=
  ⟨sampleStream, false, .start ⟨1, rfl⟩, rfl, rfl⟩

theorem reached_streams_shared :
    (((sampleEvents ++ [Event.react]).foldl (Tee.perform id) sampleTee).branches
      true).enqueued = [7] := by
  have reached : ((sampleEvents ++ [Event.react]).foldl (Tee.perform id) sampleTee).ReachedPrompt id := by
    apply Reachable.run_meeting _ (.start sampleTee_start)
    exact ⟨trivial, trivial, trivial, trivial, trivial, .inr fun gone => absurd gone (by decide),
      trivial⟩
  obtain ⟨_, shares, _⟩ := reached_streams (.start ⟨1, rfl⟩ : sampleStream.Reached) reached
  exact (shares.given true rfl).enqueued

/-- The first branch's `cancel` comes after the chunk, whose reaction finds it closed. -/
theorem not_shares_canceled :
    ¬ ∀ tee : Tee Nat Nat Int, tee.Reached id → tee.Shares id := by
  intro all
  have reached : ((sampleEvents ++ [Event.branch false .cancel, .react]).foldl (Tee.perform id)
      sampleTee).Reached id := Reachable.run _ (.start sampleTee_start)
  have given := (all _ reached).given true rfl
  cases given.enqueued

end Chuzz.Streams
