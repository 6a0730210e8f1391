import Chuzz.Streams.Piping

/-! What `pipeTo` promises. A signal that is aborted before the call stops a pipe only where
the promise that it races with is not settled yet: a destination that is ready and a source
with a chunk at hand win their races, and the chunk is written. -/
namespace Chuzz.Streams
open Library Library.Transition List

theorem filterMap_lookup {V : Type} {ids : List Nat} {entries : List (Nat × V)}
    (ordered : ids.Pairwise (· < ·)) (keys : (entries.map Prod.fst).Pairwise (· < ·)) :
    ids.filterMap (fun id => entries.lookup id) =
      (entries.filter fun entry => entry.1 ∈ ids).map Prod.snd := by
  induction entries generalizing ids with
  | nil =>
    rw [filter_nil, map_nil, filterMap_eq_nil_iff]
    exact fun _ _ => rfl
  | cons entry rest ih =>
    obtain ⟨key, value⟩ := entry
    rw [map_cons, pairwise_cons] at keys
    have later : ∀ id ≤ key, rest.lookup id = none := by
      intro id low
      rw [lookup_eq_none_iff]
      intro entry member
      have high : key < entry.1 := keys.1 entry.1 (mem_map_of_mem member)
      exact bne_iff_ne.mpr (by omega)
    have rests := ih ordered keys.2
    by_cases known : key ∈ ids
    · obtain ⟨front, back, rfl⟩ := append_of_mem known
      rw [pairwise_append, pairwise_cons] at ordered
      obtain ⟨_, ⟨above, _⟩, below⟩ := ordered
      have fronts : ∀ id ∈ front, id < key := fun id member =>
        below id member key mem_cons_self
      have skipped : front.filterMap (fun id => rest.lookup id) = [] := by
        rw [filterMap_eq_nil_iff]
        exact fun id member => later id (Nat.le_of_lt (fronts id member))
      have misses : front.filterMap (fun id => ((key, value) :: rest).lookup id) = [] := by
        rw [filterMap_eq_nil_iff]
        intro id member
        have apart := fronts id member
        rw [lookup_cons, beq_false_of_ne (by omega)]
        exact later id (Nat.le_of_lt apart)
      have backs : back.filterMap (fun id => ((key, value) :: rest).lookup id) =
          back.filterMap (fun id => rest.lookup id) := by
        apply filterMap_congr
        intro id member
        have apart := above id member
        rw [lookup_cons, beq_false_of_ne (by omega)]
      have none : rest.lookup key = none := later key (Nat.le_refl _)
      have here : ((key, value) :: rest).lookup key = some value := lookup_cons_self
      rw [filterMap_append, skipped, nil_append, filterMap_cons, none] at rests
      rw [filterMap_append, misses, nil_append, filterMap_cons, here,
        filter_cons_of_pos (by simp), map_cons, ← rests, backs]
    · rw [filter_cons_of_neg (by simpa using known), ← rests]
      apply filterMap_congr
      intro id member
      rw [lookup_cons, beq_false_of_ne]
      rintro rfl
      exact known member

namespace Pipe
variable {V E N : Type}

/-- What `pipeTo` promises. -/
structure Piped (pipe : Pipe V E N) : Prop where
  received : pipe.received <+: pipe.written
  written : pipe.skipped ++ pipe.written <+: pipe.source.enqueued
  resolved : pipe.point = .resolved →
    (pipe.precanceled = false → pipe.skipped ++ pipe.written = pipe.source.enqueued) ∧
      pipe.fulfilled = pipe.written.length ∧
      (pipe.destination.methods.write = true → pipe.received = pipe.written) ∧
      (pipe.options.preventClose = false → pipe.destination.status = .closed) ∧
      pipe.endings = if pipe.options.preventClose then [] else [.close]
  rejected : ∀ trouble, pipe.point = .rejected trouble →
    pipe.endings = pipe.cleanup ∧
      (pipe.options.preventAbort = false → pipe.destination.status ≠ .writable ∧
        (pipe.effective = true → pipe.destination.methods.abort = true →
          .abort ∈ pipe.destination.trace)) ∧
      (pipe.options.preventCancel = false →
        pipe.source.status ≠ .readable ∧ pipe.telling = false)
  refused : pipe.point = .refused → pipe.endings = [] ∧ pipe.written = []
  released : (pipe.point = .resolved ∨ ∃ trouble, pipe.point = .rejected trouble) →
    pipe.source.reader ≠ some pipe.reader ∧ pipe.destination.writer ≠ some pipe.writer
  unwritten : ∀ reason, pipe.options.signal = .aborted reason → pipe.written = []

variable {pipe : Pipe V E N}

theorem Sound.received (sound : pipe.Sound) :
    pipe.received <+: pipe.written ∧ (pipe.destination.methods.write = true →
      pipe.sent.length = pipe.fulfilled → pipe.received = pipe.written) := by
  have calls : pipe.destination.calls.Pairwise (· < ·) :=
    (pairwise_append.mp sound.destination.ordered).1
  have same : pipe.received =
      (pipe.sent.filter fun entry => entry.1 ∈ pipe.destination.calls).map Prod.snd :=
    filterMap_lookup calls sound.keys
  rw [same, written]
  by_cases method : pipe.destination.methods.write = true
  · have heard := sound.heard method
    have front : (pipe.sent.take pipe.fulfilled).filter
        (fun entry => entry.1 ∈ pipe.destination.calls) = pipe.sent.take pipe.fulfilled := by
      rw [filter_eq_self]
      intro entry member
      rw [decide_eq_true_eq]
      apply heard
      rw [← map_take]
      exact mem_map_of_mem member
    have short : (pipe.sent.drop pipe.fulfilled).length ≤ 1 := by
      rw [length_drop]
      have count := sound.count
      omega
    have last : (pipe.sent.drop pipe.fulfilled).filter
        (fun entry => entry.1 ∈ pipe.destination.calls) <+: pipe.sent.drop pipe.fulfilled := by
      generalize pipe.sent.drop pipe.fulfilled = tail at short ⊢
      rcases tail with _ | ⟨entry, _ | ⟨other, more⟩⟩
      · exact prefix_rfl
      · rw [filter_cons]
        split
        · exact prefix_rfl
        · exact nil_prefix
      · simp at short
    have parts := take_append_drop pipe.fulfilled pipe.sent
    have joined := (prefix_append_right_inj (pipe.sent.take pipe.fulfilled)).mpr last
    nth_rewrite 1 [← front] at joined
    rw [← filter_append, parts] at joined
    constructor
    · exact joined.map Prod.snd
    · intro _ count
      rw [take_of_length_le (by omega)] at front
      rw [front]
  · have silent := sound.destination.silent (by simpa using method)
    refine ⟨?_, fun writes => absurd writes method⟩
    rw [silent]
    simp

theorem Sound.piped (sound : pipe.Sound)
    (unwritten : ∀ reason, pipe.options.signal = .aborted reason → pipe.written = []) :
    pipe.Piped := by
  have stands := sound.stands
  constructor
  · exact sound.received.1
  · exact sound.initial
  · intro point
    rw [point] at stands
    obtain ⟨_, done, count, closed, endings⟩ := stands
    exact ⟨(sound.done done).2, by rw [written, length_map, count],
      fun method => sound.received.2 method count, closed, endings⟩
  · intro trouble point
    rw [point] at stands
    obtain ⟨_, cleaned, telling, told⟩ := stands
    exact ⟨cleaned.endings, fun meant => ⟨cleaned.abort meant, told⟩,
      fun meant => ⟨cleaned.cancel meant, telling⟩⟩
  · intro point
    rw [point] at stands
    obtain ⟨endings, sent⟩ := stands
    exact ⟨endings, by rw [written, sent]; rfl⟩
  · rintro (point | ⟨trouble, point⟩)
    · rw [point] at stands
      exact ⟨stands.1.reader, stands.1.writer⟩
    · rw [point] at stands
      exact ⟨stands.1.reader, stands.1.writer⟩
  · exact unwritten

/-- A pipe that was interrupted at its call, and has neither written a chunk nor will. -/
structure Spared (pipe : Pipe V E N) : Prop where
  sent : pipe.sent = []
  apart : pipe.point ≠ .measuring
  interrupted : pipe.interruption ≠ none
  read : ∀ request verdict, pipe.point = .awaiting (.read request) verdict →
    verdict ≠ .pending ∧ (verdict = .fulfilled →
      pipe.source.answers[request]? = some .done ∨ pipe.destination.Refuses)

section
variable [Measured N]

/-- The pipe of an aborted signal does not come to read a chunk at hand, while the destination
takes chunks. -/
def Heeds (pipe : Pipe V E N) : PipeEvent V E N → Prop
  | .resume => (∃ reason, pipe.options.signal = .aborted reason) →
      pipe.destination.measuring = [] → pipe.point = .awaiting .ready .fulfilled →
      pipe.source.queue = [] ∨ pipe.destination.Refuses
  | _ => True

omit [Measured N] in
theorem Spared.watch (spared : pipe.Spared) : pipe.watch.Spared := by
  unfold Pipe.watch
  split
  · rename_i awaited point
    refine ⟨spared.sent, nofun, spared.interrupted, fun request verdict same => ?_⟩
    obtain rfl : awaited = .read request := by
      injection same
    exact absurd rfl (spared.read request .pending point).1
  · exact spared

omit [Measured N] in
theorem Spared.flags (spared : pipe.Spared) (listening watching : Bool) (trouble : Trouble E)
    (telling : Bool) : Spared { pipe with
      listening, watching, telling, interruption := some trouble } :=
  ⟨spared.sent, spared.apart, nofun, spared.read⟩

theorem pull_answers (stream : Stream V E N) : stream.pull.answers = stream.answers := by
  obtain ⟨again, pulling, job, same⟩ := stream.pull_same
  rw [same]

theorem read_empty {stream : Stream V E N} {reader : Nat} (held : stream.reader = some reader)
    (empty : stream.queue = []) (value : V) :
    (stream.read reader).answers[stream.answers.length]? ≠ some (.chunk value) := by
  unfold Stream.read
  rw [if_neg (not_not.mpr held), empty]
  dsimp only
  split
  · simp
  · simp
  · simp
  · rw [pull_answers]
    simp

theorem Spared.conclude (spared : pipe.Spared) {point : Point E}
    (apart : ∀ awaited verdict, point ≠ .awaiting awaited verdict) (still : point ≠ .measuring) :
    (pipe.conclude point).Spared :=
  ⟨spared.sent, still, spared.interrupted, fun _ _ same => absurd same (apart _ _)⟩

theorem Spared.cancelSource (spared : pipe.Spared) (trouble : Trouble E) :
    (pipe.cancelSource trouble).Spared := by
  unfold Pipe.cancelSource
  split
  · exact ⟨spared.sent, nofun, spared.interrupted, nofun⟩
  · exact ⟨spared.sent, nofun, spared.interrupted, nofun⟩

omit [Measured N] in
theorem verdict_interrupted (interrupted : pipe.interruption ≠ none) (request : Nat) :
    pipe.verdict (.read request) ≠ .pending := by
  obtain ⟨trouble, some⟩ := Option.ne_none_iff_exists'.mp interrupted
  unfold verdict
  rw [some]
  cases pipe.outcome (.read request) <;> nofun

/-- The read of a spared pipe gives no chunk, or one that the destination does not take. -/
theorem Spared.reads (spared : pipe.Spared) (held : pipe.source.reader = some pipe.reader)
    (heeds : pipe.source.queue = [] ∨ pipe.destination.Refuses) : pipe.read.Spared := by
  refine ⟨spared.sent, nofun, spared.interrupted, fun request verdict same => ?_⟩
  unfold Pipe.read Pipe.await at same
  injection same with first second
  injection first with number
  rw [← second, ← number]
  refine ⟨?_, fun fulfilled => ?_⟩
  · apply verdict_interrupted
    exact spared.interrupted
  rcases heeds with empty | refuses
  · left
    have outcome := outcome_of_verdict fulfilled
    unfold Pipe.outcome at outcome
    dsimp only at outcome
    split at outcome
    · rename_i value chunk
      exact absurd chunk (read_empty held empty value)
    · assumption
    · cases outcome
    · cases outcome
    · cases outcome
  · exact .inr refuses

variable [Throwable E]

section
variable (spared : pipe.Spared)
include spared

theorem Spared.fail (trouble : Trouble E) : (pipe.fail trouble).Spared := by
  unfold Pipe.fail
  split
  · exact spared.cancelSource trouble
  · exact ⟨spared.sent, nofun, spared.interrupted, nofun⟩

theorem Spared.finish : pipe.finish.Spared := by
  unfold Pipe.finish
  dsimp only
  split
  · exact ⟨spared.sent, nofun, spared.interrupted, nofun⟩
  · split
    · exact ⟨spared.sent, nofun, spared.interrupted, nofun⟩
    · exact ⟨spared.sent, nofun, spared.interrupted, nofun⟩

theorem Spared.resume (sound : pipe.Sound) (heeds : pipe.point = .awaiting .ready .fulfilled →
      pipe.source.queue = [] ∨ pipe.destination.Refuses) : pipe.resume.Spared := by
  have stands := sound.stands
  unfold Pipe.resume
  split
  · exact spared.fail _
  · rename_i point
    rw [point] at stands
    exact spared.reads stands.1.reader (heeds point)
  · rename_i request point
    split
    · rename_i value chunk
      have refuses : pipe.destination.Refuses := by
        apply ((spared.read request .fulfilled point).2 rfl).resolve_left
        rw [chunk]
        nofun
      rw [Pipe.write, if_pos refuses]
      exact ⟨spared.sent, nofun, spared.interrupted, nofun⟩
    · exact spared.finish
    · exact spared
  · rename_i id point
    rw [point] at stands
    obtain ⟨_, ⟨_, _, front, value, sent, _⟩, _⟩ := stands
    rw [spared.sent] at sent
    exact absurd (congrArg List.length sent) (by simp)
  · exact spared.conclude nofun nofun
  · exact spared

theorem Spared.react (sound : pipe.Sound) (event : PipeEvent V E N)
    (quiet : pipe.destination.measuring = []) (heeds : pipe.Heeds event)
    (aborted : ∃ reason, pipe.options.signal = .aborted reason) : (pipe.react event).Spared := by
  unfold Pipe.react
  split
  · split
    · exact (spared.flags _ _ _ _).watch
    · split
      · exact (spared.flags _ _ _ _).watch
      · exact spared
  · exact spared.resume sound fun point => heeds aborted quiet point
  · exact { spared with }
  · split
    · split
      · exact spared.conclude nofun nofun
      · exact spared
    · exact spared
  · exact spared

theorem Spared.perform (sound : pipe.Sound) (event : PipeEvent V E N)
    (heeds : pipe.Heeds event) (aborted : ∃ reason, pipe.options.signal = .aborted reason) :
    (pipe.perform event).Spared := by
  have stands := sound.stands
  unfold Pipe.perform
  split
  · split
    · exact spared
    · rename_i step foreign
      apply Spared.watch
      refine ⟨spared.sent, spared.apart, spared.interrupted, fun request verdict point => ?_⟩
      obtain ⟨past, answer⟩ := spared.read request verdict point
      refine ⟨past, fun fulfilled => (answer fulfilled).imp_left fun done => ?_⟩
      rw [point] at stands
      have settles := (Stream.perform_settles sound.source stands.1.reader
        (by simpa using foreign)).1
      exact settles.settled request _ done nofun
  · split
    · exact spared
    · unfold Pipe.ofDestination
      split
      · exact absurd ‹pipe.point = .measuring› spared.apart
      · apply Spared.watch
        refine ⟨spared.sent, spared.apart, spared.interrupted, fun request verdict point => ?_⟩
        obtain ⟨past, answer⟩ := spared.read request verdict point
        exact ⟨past, fun fulfilled =>
          (answer fulfilled).imp_right (WritableStream.perform_later _ _).refuses⟩
  · split
    · exact (spared.flags _ _ _ _).watch
    · exact spared
  · split
    · exact spared.cancelSource _
    · exact spared
  · split
    · exact spared.react sound _ ‹_› heeds aborted
    · exact spared

end

theorem refused_perform (refused : pipe.point = .refused) (event : PipeEvent V E N) :
    (pipe.perform event).point = .refused ∧ (pipe.perform event).sent = pipe.sent := by
  have stays : ∀ {after : Pipe V E N}, after.point = .refused → after.sent = pipe.sent →
      after.watch.point = .refused ∧ after.watch.sent = pipe.sent := by
    intro after same sent
    unfold Pipe.watch
    rw [same]
    exact ⟨same, sent⟩
  unfold Pipe.perform
  split
  · split
    · exact ⟨refused, rfl⟩
    · exact stays refused rfl
  · split
    · exact ⟨refused, rfl⟩
    · unfold Pipe.ofDestination
      split
      · cases refused.symm.trans ‹pipe.point = .measuring›
      · exact stays refused rfl
  · split
    · exact stays refused rfl
    · exact ⟨refused, rfl⟩
  · rw [refused]
    exact ⟨refused, rfl⟩
  · split
    · unfold Pipe.react
      split
      · split
        · exact stays refused rfl
        · split
          · exact stays refused rfl
          · exact ⟨refused, rfl⟩
      · unfold Pipe.resume
        rw [refused]
        exact ⟨refused, rfl⟩
      · exact ⟨refused, rfl⟩
      · rw [refused]
        exact ⟨refused, rfl⟩
      · exact ⟨refused, rfl⟩
    · exact ⟨refused, rfl⟩

omit [Measured N] [Throwable E] in
theorem watch_options (pipe : Pipe V E N) : pipe.watch.options = pipe.options := by
  unfold Pipe.watch
  split <;> rfl

omit [Throwable E] in
theorem cancelSource_options (pipe : Pipe V E N) (trouble : Trouble E) :
    (pipe.cancelSource trouble).options = pipe.options := by
  unfold Pipe.cancelSource
  split <;> rfl

theorem resume_options (pipe : Pipe V E N) : pipe.resume.options = pipe.options := by
  unfold Pipe.resume
  split
  · unfold Pipe.fail
    split
    · exact cancelSource_options pipe _
    · rfl
  · rfl
  · split
    · unfold Pipe.write
      split <;> rfl
    · unfold Pipe.finish
      dsimp only
      split
      · rfl
      · split <;> rfl
    · rfl
  · rfl
  · rfl
  · rfl

theorem perform_options (pipe : Pipe V E N) (event : PipeEvent V E N) :
    (pipe.perform event).options = pipe.options := by
  unfold Pipe.perform
  split
  · split
    · rfl
    · exact watch_options _
  · split
    · rfl
    · unfold Pipe.ofDestination
      split
      · unfold Pipe.measured
        split
        · rfl
        · dsimp only
          split
          · rfl
          · split <;> rfl
      · exact watch_options _
  · split
    · exact watch_options _
    · rfl
  · split
    · exact cancelSource_options pipe _
    · rfl
  · split
    · unfold Pipe.react
      split
      · split
        · exact watch_options _
        · split
          · exact watch_options _
          · rfl
      · exact resume_options pipe
      · rfl
      · split
        · split <;> rfl
        · rfl
      · rfl
    · rfl

omit [Throwable E] in
theorem start_spared (start : pipe.Start) {reason : E}
    (aborted : pipe.options.signal = .aborted reason) :
    pipe.point = .refused ∧ pipe.sent = [] ∨ pipe.Spared := by
  obtain ⟨source, destination, options, _, _, rfl⟩ := start
  revert aborted
  unfold pipeTo
  split
  · exact fun _ => .inl ⟨rfl, rfl⟩
  · split
    · exact fun _ => .inl ⟨rfl, rfl⟩
    · split
      · rename_i absent
        exact fun aborted => nomatch absent.symm.trans aborted
      · rename_i waiting
        exact fun aborted => nomatch waiting.symm.trans aborted
      · exact fun _ => .inr ⟨rfl, nofun, nofun, nofun⟩

theorem reached_spared
    (run : Reachable Start (restrict (fun before event after => before.perform event = after) Heeds)
      pipe) : pipe.Sound ∧ ∀ reason, pipe.options.signal = .aborted reason →
        pipe.point = .refused ∧ pipe.sent = [] ∨ pipe.Spared := by
  apply run.invariant
  · exact fun _ start => ⟨start_sound start, fun _ aborted => start_spared start aborted⟩
  · rintro before event _ _ ⟨sound, spared⟩ ⟨rfl, heeds⟩
    refine ⟨sound.perform event, fun reason aborted => ?_⟩
    rw [perform_options] at aborted
    rcases spared reason aborted with ⟨refused, sent⟩ | spared
    · obtain ⟨point, same⟩ := refused_perform refused event
      exact .inl ⟨point, same.trans sent⟩
    · exact .inr (spared.perform sound event heeds ⟨reason, aborted⟩)

omit [Throwable E] in
/-- A call that finds one of the streams locked leaves both locks as they are. -/
theorem pipeTo_refused {source : Stream V E N} {destination : WritableStream V E N}
    {options : PipeOptions E} (refused : (pipeTo source destination options).point = .refused) :
    (pipeTo source destination options).source.reader = source.reader ∧
      (pipeTo source destination options).destination.writer = destination.writer := by
  revert refused
  unfold pipeTo
  split
  · exact fun _ => ⟨rfl, rfl⟩
  · rename_i reader
    have reader : source.reader = none := by simpa using reader
    split
    · intro _
      refine ⟨?_, rfl⟩
      rw [getReader_free reader, Stream.releaseLock, if_neg (not_not.mpr rfl)]
      exact reader.symm
    · split
      · rintro ⟨⟩
      · rintro ⟨⟩
      · rintro ⟨⟩

/-- Every call of `pipeTo` keeps its promises as long as the pipe of an aborted signal does not
come to read a chunk at hand. -/
theorem pipeTo_piped :
    (∀ pipe : Pipe V E N, Reachable Start
      (restrict (fun before event after => before.perform event = after) Heeds) pipe →
        pipe.Piped) ∧
      ∀ (source : Stream V E N) (destination : WritableStream V E N) (options : PipeOptions E),
        (pipeTo source destination options).point = .refused →
          (pipeTo source destination options).source.reader = source.reader ∧
            (pipeTo source destination options).destination.writer = destination.writer := by
  constructor
  · intro pipe run
    obtain ⟨sound, spared⟩ := reached_spared run
    apply sound.piped
    intro reason aborted
    rw [written]
    rcases spared reason aborted with ⟨_, sent⟩ | spared
    · rw [sent]
      rfl
    · rw [spared.sent]
      rfl
  · exact fun _ _ _ refused => pipeTo_refused refused

end

end Pipe

/-- Numbers as the values of scripts. -/
instance : Throwable Nat where
  value
    | .signal reason => reason
    | _ => 0
  truthy := (· ≠ 0)

namespace Pipe

/-- An aborted signal, and a source that has no chunk at hand: the pipe is rejected with the
signal's reason, and both of its ends are told. -/
theorem pipeTo_piped_waiting :
    let source : Stream Nat Nat Nat := [.started].foldl Stream.perform (.start 3)
    let destination : WritableStream Nat Nat Nat :=
      [.settle none, .react].foldl WritableStream.perform (.start {} 1)
    let events : List (PipeEvent Nat Nat Nat) := [.resume, .resume, .listened, .callCancel,
      .destination .callAbort, .cleaned]
    let pipe := events.foldl perform (pipeTo source destination { signal := .aborted 9 })
    pipe.point = .rejected (.signal 9) ∧ pipe.endings = [.abort, .cancel] ∧ pipe.Piped := by
  intro source destination events pipe
  have first : (Stream.start 3 : Stream Nat Nat Nat).Reached := .start ⟨3, rfl⟩
  have opened : Reachable WritableStream.Opened (fun before step after => before.perform step = after)
      (.start {} 1 : WritableStream Nat Nat Nat) := .start ⟨{}, 1, rfl⟩
  have reached : source.Reached := Reachable.run _ first
  have run := opened.run [.settle none, .react]
  have begins : Reachable Start
      (restrict (fun before event after => before.perform event = after) Heeds)
      (pipeTo source destination { signal := .aborted 9 }) :=
    .start ⟨source, destination, _, reached, run, rfl⟩
  refine ⟨by decide, by decide, pipeTo_piped.1 pipe (begins.run_meeting events ?_)⟩
  refine ⟨fun _ _ _ => .inl (by decide), fun _ _ point => absurd point (by decide), trivial,
    trivial, trivial, trivial, trivial⟩

/-- An aborted signal, and a source with a chunk at hand: the sink is called with it. -/
theorem not_piped_aborted :
    ∃ pipe : Pipe Nat Nat Nat,
      Reachable Start (fun before event after => before.perform event = after) pipe ∧
        pipe.options.signal = .aborted 9 ∧ pipe.received = [5] ∧ ¬ pipe.Piped := by
  have first : (Stream.start 3 : Stream Nat Nat Nat).Reached := .start ⟨3, rfl⟩
  have opened : Reachable WritableStream.Opened (fun before step after => before.perform step = after)
      (.start {} 1 : WritableStream Nat Nat Nat) := .start ⟨{}, 1, rfl⟩
  have reached := Reachable.run [.started, .pullCall, .enqueue 5 (.ok 1)] first
  have run := opened.run [.settle none, .react]
  have begins : Reachable Start (fun before event after => before.perform event = after)
      (pipeTo _ _ { signal := .aborted 9 }) := .start ⟨_, _, _, reached, run, rfl⟩
  refine ⟨_, begins.run [.resume, .resume, .destination (.measured (.ok 1)),
    .destination .react], by decide, by decide, fun piped => ?_⟩
  have nothing := piped.unwritten 9 (by decide)
  exact absurd nothing (by decide)

end Pipe
end Chuzz.Streams
