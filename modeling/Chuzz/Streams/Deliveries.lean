import Chuzz.Streams.Sides

/-! The writes that the sink of a stream is called with, in the order of their numbers, and
what every step of the stream leaves as it was. -/
namespace Chuzz.Streams
open Library List

def SinkEvent.call? : SinkEvent → Option Nat
  | .write id => some id
  | _ => none

/-- The calls that need a certain writer. -/
def WriteStep.uses {V E N : Type} (writer : Nat) : WriteStep V E N → Bool
  | .releaseLock other | .write other _ => other = writer
  | .close other | .abort other _ => other = some writer
  | _ => false

namespace WritableStream
variable {V E N : Type} {stream before after : WritableStream V E N}

/-- The numbers of the writes that the sink has been called with. -/
def calls (stream : WritableStream V E N) : List Nat := stream.trace.filterMap SinkEvent.call?

/-- The numbers of the writes that the sink may still be called with. -/
def uncalled (stream : WritableStream V E N) : List Nat :=
  match stream.stage with
  | .waiting => stream.ids
  | _ => stream.chain.tail.filterMap Link.id?

/-- A sink that can, is called with the writes in the order of their numbers. -/
structure Ordered (stream : WritableStream V E N) : Prop where
  ordered : (stream.calls ++ stream.uncalled).Pairwise (· < ·)
  bound : ∀ id ∈ stream.calls ++ stream.uncalled, id < stream.accepted
  called : ∀ id, stream.writing = some id → Stage.called stream.stage = true →
    stream.methods.write = true → id ∈ stream.calls
  silent : stream.methods.write = false → stream.calls = []
  idle : stream.chain = [] → stream.stage = .waiting

/-- What has happened to a stream, or been asked of it, is not taken back. -/
structure Later (before after : WritableStream V E N) : Prop where
  trace : before.trace <+: after.trace
  accepted : before.accepted ≤ after.accepted
  methods : after.methods = before.methods
  ended : before.status ≠ .writable → after.status = before.status
  closing : before.closing = true → after.closing = true
  /-- The sink is told of an abort, if it can be. -/
  aborted : before.aborting ≠ none ∨ (before.methods.abort = true → .abort ∈ before.trace) →
    after.aborting ≠ none ∨ (before.methods.abort = true → .abort ∈ after.trace)

/-- Neither the lock changes nor what is being measured. -/
structure Still (before after : WritableStream V E N) : Prop where
  writer : after.writer = before.writer
  writers : after.writers = before.writers
  measuring : after.measuring = before.measuring

/-- A call to a stream that takes nothing more. -/
def Refuses (stream : WritableStream V E N) : Prop :=
  stream.status ≠ .writable ∨ stream.closing = true

instance (stream : WritableStream V E N) : Decidable stream.Refuses :=
  inferInstanceAs (Decidable (_ ∨ _))


theorem Later.frame (trace : after.trace = before.trace) (accepted : before.accepted ≤ after.accepted)
    (methods : after.methods = before.methods)
    (status : before.status ≠ .writable → after.status = before.status)
    (closing : before.closing = true → after.closing = true)
    (aborting : before.aborting ≠ none → after.aborting ≠ none) : Later before after where
  trace := trace ▸ prefix_rfl
  accepted := accepted
  methods := methods
  ended := status
  closing := closing
  aborted told := told.imp aborting (trace ▸ ·)

theorem Later.refl (stream : WritableStream V E N) : Later stream stream :=
  .frame rfl (Nat.le_refl _) rfl (fun _ => rfl) id id

theorem Later.trans {middle : WritableStream V E N} (first : Later before middle)
    (second : Later middle after) : Later before after where
  trace := first.trace.trans second.trace
  accepted := Nat.le_trans first.accepted second.accepted
  methods := second.methods.trans first.methods
  ended past := (second.ended (first.ended past ▸ past)).trans (first.ended past)
  closing closes := second.closing (first.closing closes)
  aborted told := by
    have later := second.aborted
    rw [first.methods] at later
    exact later (first.aborted told)

theorem Later.calls (later : Later before after) : before.calls <+: after.calls :=
  later.trace.filterMap _

theorem Later.refuses (later : Later before after) (refuses : before.Refuses) : after.Refuses := by
  rcases refuses with past | closing
  · exact .inl (later.ended past ▸ past)
  · exact .inr (later.closing closing)

theorem log_later (stream : WritableStream V E N) (event : SinkEvent) :
    Later stream (stream.log event) where
  trace := prefix_append _ _
  accepted := Nat.le_refl _
  methods := rfl
  ended _ := rfl
  closing := id
  aborted told := told.imp_right fun told method => mem_append_left _ (told method)

theorem writeError_later (stream : WritableStream V E N) (error : Option (Failure E)) :
    Later stream (stream.writeError error) := by
  rw [writeError]
  split
  · exact .refl stream
  · rename_i open_
    refine .frame rfl (Nat.le_refl _) rfl (fun past => ?_) id id
    cases status : stream.status with
    | writable => exact absurd status past
    | closed => exact absurd (.inl status) open_
    | errored => exact absurd (.inr status) open_

theorem advance_later (stream : WritableStream V E N) (rest : List (Link V N)) (broken : Bool) :
    Later stream (stream.advance rest broken) := by
  refine .frame rfl (Nat.le_refl _) rfl (fun _ => rfl) id fun some none => some ?_
  exact Option.map_eq_none_iff.mp none

theorem restage_later (stream : WritableStream V E N) (stage : Stage E) :
    Later stream { stream with stage } :=
  .frame rfl (Nat.le_refl _) rfl (fun _ => rfl) id id

theorem abortWrite_later (stream : WritableStream V E N) (reason : E) :
    Later stream (stream.abortWrite reason) := by
  rw [abortWrite]
  split
  · apply (writeError_later stream (some (.given reason))).trans
    exact .frame rfl (Nat.le_refl _) rfl (fun _ => rfl) id fun _ => by rintro ⟨⟩
  · exact .refl stream

theorem closeWrite_later (stream : WritableStream V E N) : Later stream stream.closeWrite := by
  rw [closeWrite]
  split
  · exact .refl stream
  · exact .frame rfl (Nat.le_refl _) rfl (fun _ => rfl) (fun _ => rfl) id

theorem settle_later (stream : WritableStream V E N) (failure : Option E) :
    Later stream (stream.settle failure) := by
  have answered := restage_later stream (.answered failure)
  unfold settle
  split
  · dsimp only
    split
    · exact answered.trans (log_later _ _)
    · exact answered
  · exact answered.trans (log_later _ _)
  · exact answered.trans (log_later _ _)
  · exact .refl stream

theorem callAbort_later (stream : WritableStream V E N) : Later stream stream.callAbort := by
  rw [callAbort]
  split
  · constructor
    · dsimp only
      split
      · exact prefix_append _ _
      · exact prefix_rfl
    · dsimp only
      split <;> exact Nat.le_refl _
    · dsimp only
      split <;> rfl
    · intro _
      split <;> rfl
    · intro closing
      split <;> exact closing
    · intro _
      right
      intro method
      rw [if_pos method]
      exact mem_append_right _ (mem_singleton_self _)
  · exact .refl stream

section
variable [Measured N]

theorem pressure_later (stream : WritableStream V E N) : Later stream stream.pressure :=
  .frame rfl (Nat.le_refl _) rfl (fun _ => rfl) id id

theorem finishWrite_later (stream : WritableStream V E N) (size : N) :
    Later stream (stream.finishWrite size) := by
  have less : Later stream { stream with total := Number.sub stream.total size } :=
    .frame rfl (Nat.le_refl _) rfl (fun _ => rfl) id id
  exact less.trans (log_later _ .finished)

theorem measured_later (stream : WritableStream V E N) (size : Except E N) :
    Later stream (stream.measured size) := by
  rw [measured]
  split
  · exact .refl stream
  · rename_i value measuring _
    have fewer : Later stream { stream with measuring } :=
      .frame rfl (Nat.le_refl _) rfl (fun _ => rfl) id id
    split
    · exact fewer.trans (writeError_later _ _)
    · rename_i size
      split
      · have counted : Later stream
            ({ stream with measuring, total := Number.add stream.total size }.pressure) :=
          .frame rfl (Nat.le_refl _) rfl (fun _ => rfl) id id
        exact (counted.trans (log_later _ .accepted)).trans
          (.frame rfl (Nat.le_succ _) rfl (fun _ => rfl) id id)
      · exact fewer.trans (writeError_later _ _)

theorem react_later (stream : WritableStream V E N) : Later stream stream.react := by
  unfold react
  split
  · exact .refl stream
  · unfold reactStart
    split
    · exact advance_later _ _ _
    · exact (writeError_later _ _).trans (advance_later _ _ _)
    · exact .refl stream
  · unfold reactWrite
    split
    · split
      · exact restage_later stream _
      · split
        · exact (restage_later stream _).trans (log_later _ _)
        · exact restage_later stream _
    · exact .refl stream
    · split
      · exact restage_later stream _
      · exact restage_later stream _
    · exact restage_later stream _
    · exact ((finishWrite_later _ _).trans (pressure_later _)).trans (advance_later _ _ _)
    · exact ((finishWrite_later _ _).trans (writeError_later _ _)).trans (advance_later _ _ _)
  · unfold reactClose
    split
    · split
      · exact (writeError_later _ _).trans (advance_later _ _ _)
      · split
        · exact (restage_later stream _).trans (log_later _ _)
        · exact restage_later stream _
    · split
      · exact advance_later _ _ _
      · rename_i sane
        have ended : ∀ closed, Later stream { stream with status := .closed, closed } := by
          refine fun closed => .frame rfl (Nat.le_refl _) rfl (fun past => ?_) id id
          cases status : stream.status with
          | writable => exact absurd status past
          | closed => rfl
          | errored => exact absurd status sane
        exact (ended _).trans (advance_later _ _ _)
    · exact (writeError_later _ _).trans (advance_later _ _ _)
    · exact .refl stream

theorem perform_later (stream : WritableStream V E N) (step : WriteStep V E N) :
    Later stream (stream.perform step) := by
  have plain : ∀ {writer : Option Nat} {writers : Nat} {measuring : List V},
      Later stream { stream with writer, writers, measuring } :=
    .frame rfl (Nat.le_refl _) rfl (fun _ => rfl) id id
  cases step with
  | getWriter =>
    rw [perform]
    split
    · exact .refl stream
    · exact plain
  | releaseLock writer =>
    rw [perform]
    split
    · exact plain
    · exact .refl stream
  | write writer value =>
    rw [perform]
    split
    · rw [write]
      split
      · exact .refl stream
      · exact plain
    · exact .refl stream
  | measured size => exact measured_later stream size
  | close writer =>
    rw [perform]
    split
    · exact closeWrite_later stream
    · exact .refl stream
  | abort writer reason =>
    rw [perform]
    split
    · exact abortWrite_later stream reason
    · exact .refl stream
  | error error => exact writeError_later stream _
  | settle failure => exact settle_later stream failure
  | react =>
    rw [perform]
    split
    · exact react_later stream
    · exact .refl stream
  | callAbort =>
    rw [perform]
    split
    · exact callAbort_later stream
    · exact .refl stream

end

/-- A step that only takes from what the sink may still be called with. -/
theorem Ordered.shrink (ordered : before.Ordered) (methods : after.methods = before.methods)
    (accepted : after.accepted = before.accepted) (calls : after.calls = before.calls)
    (uncalled : after.uncalled.Sublist before.uncalled)
    (called : ∀ id, after.writing = some id → Stage.called after.stage = true →
      after.methods.write = true → id ∈ after.calls)
    (idle : after.chain = [] → after.stage = .waiting) : after.Ordered where
  ordered := by
    rw [calls]
    exact ordered.ordered.sublist (uncalled.append_left _)
  bound id member := by
    rw [accepted]
    rw [calls] at member
    exact ordered.bound id ((uncalled.append_left _).subset member)
  called := called
  silent mute := by
    rw [calls]
    exact ordered.silent (methods ▸ mute)
  idle := idle

theorem uncalled_waiting (waiting : stream.stage = .waiting) :
    stream.uncalled = stream.chain.filterMap Link.id? := by
  rw [uncalled, waiting]
  rfl

theorem uncalled_sublist (stream : WritableStream V E N) :
    (stream.chain.tail.filterMap Link.id?).Sublist stream.uncalled := by
  rw [uncalled]
  split
  · exact (tail_sublist _).filterMap _
  · exact List.Sublist.refl _

theorem uncalled_busy (busy : stream.stage ≠ .waiting) :
    stream.uncalled = stream.chain.tail.filterMap Link.id? := by
  rw [uncalled]
  split
  · exact absurd ‹_› busy
  · rfl

theorem Ordered.advance (ordered : stream.Ordered) (methods : before.methods = stream.methods)
    (accepted : before.accepted = stream.accepted) (calls : before.calls = stream.calls)
    {link : Link V N} {rest : List (Link V N)} (chain : stream.chain = link :: rest)
    (broken : Bool) : (before.advance rest broken).Ordered := by
  refine ordered.shrink methods accepted calls ?_ (fun _ _ waits => nomatch waits) fun _ => rfl
  have shorter := stream.uncalled_sublist
  rw [chain] at shorter
  exact shorter

/-- The first link comes to another stage without a call of the sink's `write`. -/
theorem Ordered.restage (ordered : before.Ordered) (methods : after.methods = before.methods)
    (accepted : after.accepted = before.accepted) (calls : after.calls = before.calls)
    (chain : after.chain = before.chain) (some_ : before.chain ≠ []) (busy : after.stage ≠ .waiting)
    (called : ∀ id, before.writing = some id → Stage.called after.stage = true →
      before.methods.write = true → id ∈ before.calls) : after.Ordered := by
  refine ordered.shrink methods accepted calls ?_ ?_ fun none => absurd (chain ▸ none) some_
  · rw [uncalled_busy busy, chain]
    exact before.uncalled_sublist
  · rw [methods, calls, writing, chain]
    exact called

theorem Ordered.joins (ordered : before.Ordered) (joins : Joins before after)
    (calls : after.calls = before.calls) : after.Ordered := by
  obtain ⟨links, chain, count, numbers, accepted⟩ := joins.chain
  have uncalled : after.uncalled = before.uncalled ++ List.range' before.accepted count := by
    by_cases waiting : before.stage = .waiting
    · rw [uncalled_waiting waiting, uncalled_waiting (joins.stage.trans waiting), chain,
        filterMap_append, numbers]
    · have some_ : before.chain ≠ [] := fun none => waiting (ordered.idle none)
      rw [uncalled_busy waiting, uncalled_busy (joins.stage ▸ waiting), chain,
        tail_append_of_ne_nil some_, filterMap_append, numbers]
  constructor
  · rw [calls, uncalled, ← append_assoc, pairwise_append]
    refine ⟨ordered.ordered, pairwise_lt_range', fun old member new joined => ?_⟩
    exact Nat.lt_of_lt_of_le (ordered.bound old member) (mem_range'_1.mp joined).1
  · intro id member
    rw [calls, uncalled, ← append_assoc, mem_append] at member
    rw [accepted]
    rcases member with old | new
    · exact Nat.lt_of_lt_of_le (ordered.bound id old) (Nat.le_add_right _ _)
    · exact (mem_range'_1.mp new).2
  · intro id writes called method
    rw [calls]
    rw [joins.stage] at called
    rw [joins.methods] at method
    refine ordered.called id ?_ called method
    cases begun : before.chain with
    | nil =>
      rw [ordered.idle begun] at called
      cases called
    | cons link rest =>
      rw [writing, chain, begun] at writes
      rw [writing, begun]
      exact writes
  · rw [joins.methods, calls]
    exact ordered.silent
  · exact joins.idle ordered.idle

theorem log_calls (stream : WritableStream V E N) {event : SinkEvent} (plain : event.call? = none) :
    (stream.log event).calls = stream.calls := by
  rw [log, calls, calls, filterMap_append, filterMap_cons_none plain]
  exact append_nil _

theorem writeError_trace (stream : WritableStream V E N) (error : Option (Failure E)) :
    (stream.writeError error).trace = stream.trace := by
  rw [writeError]
  split <;> rfl

theorem writeError_calls (stream : WritableStream V E N) (error : Option (Failure E)) :
    (stream.writeError error).calls = stream.calls := by
  rw [calls, calls, writeError_trace]

section
variable [Measured N]

theorem measured_calls (stream : WritableStream V E N) (size : Except E N) :
    (stream.measured size).calls = stream.calls := by
  rw [measured]
  split
  · rfl
  · dsimp only
    split
    · exact writeError_calls _ _
    · split
      · exact log_calls (pressure _) (rfl : SinkEvent.call? .accepted = none)
      · exact writeError_calls _ _

theorem outer_calls (stream : WritableStream V E N) {step : WriteStep V E N}
    (outer : step.outer = true) : (stream.perform step).calls = stream.calls := by
  cases step with
  | settle failure => cases outer
  | react => cases outer
  | getWriter =>
    rw [perform]
    split <;> rfl
  | releaseLock writer =>
    rw [perform]
    split <;> rfl
  | write writer value =>
    rw [perform]
    split
    · rw [write]
      split <;> rfl
    · rfl
  | measured size => exact measured_calls stream size
  | close writer =>
    rw [perform]
    split
    · rw [closeWrite]
      split <;> rfl
    · rfl
  | abort writer reason =>
    rw [perform]
    split
    · rw [abortWrite]
      split
      · exact writeError_calls stream (some (.given reason))
      · rfl
    · rfl
  | error error => exact writeError_calls stream _
  | callAbort =>
    rw [perform]
    split
    · rw [callAbort]
      split
      · dsimp only
        split
        · exact log_calls { stream with aborting := none } (rfl : SinkEvent.call? .abort = none)
        · rfl
      · rfl
    · rfl

omit [Measured N] in
theorem settle_ordered (ordered : stream.Ordered) (failure : Option E) :
    (stream.settle failure).Ordered := by
  have answers : ∀ {after : WritableStream V E N} {link : Link V N} {rest : List (Link V N)},
      stream.chain = link :: rest → after.calls = stream.calls →
      (∀ id, link.id? = some id → Stage.called stream.stage = true) →
      after = { stream with stage := .answered failure, trace := after.trace } →
      after.Ordered := by
    intro after link rest chain calls called same
    refine ordered.restage (by rw [same]) (by rw [same]) calls (by rw [same])
      (by rw [chain]; rintro ⟨⟩) (by rw [same]; rintro ⟨⟩) fun id writes _ method => ?_
    refine ordered.called id writes (called id ?_) method
    rw [writing, chain] at writes
    exact writes
  unfold settle
  split
  · rename_i chain waiting
    split
    · exact answers chain (log_calls _ rfl) (fun _ => (by rintro ⟨⟩)) rfl
    · exact answers chain rfl (fun _ => (by rintro ⟨⟩)) rfl
  · rename_i chain calling
    exact answers chain (log_calls _ rfl) (fun _ _ => by rw [calling]; rfl) rfl
  · rename_i chain calling
    exact answers chain (log_calls _ rfl) (fun _ => (by rintro ⟨⟩)) rfl
  · exact ordered

theorem finishWrite_calls (stream : WritableStream V E N) (size : N) :
    (stream.finishWrite size).calls = stream.calls := by
  exact log_calls { stream with total := Number.sub stream.total size } rfl

theorem reactWrite_ordered (ordered : stream.Ordered) {id : Nat} {value : V} {size : N}
    {rest : List (Link V N)} (chain : stream.chain = .write id value size :: rest) :
    (stream.reactWrite id size rest).Ordered := by
  have some_ : stream.chain ≠ [] := by rw [chain]; rintro ⟨⟩
  have writes : stream.writing = some id := by
    rw [writing, chain]
    rfl
  unfold reactWrite
  split
  · rename_i waiting
    have uncalled := uncalled_waiting waiting
    rw [chain] at uncalled
    split
    · exact ordered.restage rfl rfl rfl rfl some_ (by rintro ⟨⟩) fun _ _ called => by cases called
    · split
      · rename_i method
        have more : (({ stream with stage := .calling }).log (.write id)).calls =
            stream.calls ++ [id] := by
          rw [log, calls, calls, filterMap_append]
          rfl
        have same : stream.calls ++ [id] ++ rest.filterMap Link.id? =
            stream.calls ++ stream.uncalled := by
          rw [uncalled, append_assoc]
          rfl
        have fewer : (({ stream with stage := .calling }).log (.write id)).uncalled =
            rest.filterMap Link.id? := by
          exact congrArg (fun links => links.tail.filterMap Link.id?) chain
        constructor
        · rw [more, fewer, same]
          exact ordered.ordered
        · rw [more, fewer, same]
          exact ordered.bound
        · rintro other first _ _
          obtain rfl := Option.some.inj (writes.symm.trans first)
          rw [more]
          exact mem_append_right _ (mem_singleton_self _)
        · intro mute
          cases method.symm.trans mute
        · exact fun none => absurd none some_
      · rename_i mute
        exact ordered.restage rfl rfl rfl rfl some_ (by rintro ⟨⟩) fun _ _ _ method => absurd method mute
  · exact ordered
  · rename_i answered
    split
    · exact ordered.restage rfl rfl rfl rfl some_ (by rintro ⟨⟩) fun _ _ called => by cases called
    · exact ordered.restage rfl rfl rfl rfl some_ (by rintro ⟨⟩) fun other first _ =>
        ordered.called other first (by rw [answered]; rfl)
  · exact ordered.restage rfl rfl rfl rfl some_ (by rintro ⟨⟩) fun _ _ called => by cases called
  · refine ordered.advance ?_ ?_ ?_ chain false
    · rfl
    · rfl
    · exact finishWrite_calls stream size
  · refine ordered.advance ?_ ?_ ?_ chain true
    · exact (writeError_later _ _).methods
    · rw [writeError]
      split <;> rfl
    · rw [writeError_calls]
      exact finishWrite_calls stream size

omit [Measured N] in
theorem Ordered.breaks (ordered : stream.Ordered) (error : Option (Failure E)) {link : Link V N}
    {rest : List (Link V N)} (chain : stream.chain = link :: rest) :
    ((stream.writeError error).advance rest true).Ordered := by
  refine ordered.advance (writeError_later stream error).methods ?_ (writeError_calls stream error)
    chain true
  rw [writeError]
  split <;> rfl

theorem react_ordered (ordered : stream.Ordered) : stream.react.Ordered := by
  unfold react
  split
  · exact ordered
  · rename_i chain
    unfold reactStart
    split
    · exact ordered.advance rfl rfl rfl chain false
    · exact ordered.breaks _ chain
    · exact ordered
  · rename_i chain
    exact reactWrite_ordered ordered chain
  · rename_i chain
    have some_ : stream.chain ≠ [] := by rw [chain]; rintro ⟨⟩
    have quiet : ∀ {P : Prop} {id : Nat}, stream.writing = some id → P := by
      intro P id writes
      rw [writing, chain] at writes
      cases writes
    unfold reactClose
    split
    · split
      · exact ordered.breaks _ chain
      · split
        · exact ordered.restage rfl rfl (log_calls { stream with stage := .calling } rfl) rfl some_
            (by rintro ⟨⟩) fun _ writes => quiet writes
        · exact ordered.restage rfl rfl rfl rfl some_ (by rintro ⟨⟩) fun _ writes => quiet writes
    · split
      · exact ordered.advance rfl rfl rfl chain true
      · refine ordered.advance ?_ ?_ ?_ chain false <;> rfl
    · exact ordered.breaks _ chain
    · exact ordered

theorem perform_ordered (ordered : stream.Ordered) (step : WriteStep V E N) :
    (stream.perform step).Ordered := by
  by_cases outer : step.outer = true
  · exact ordered.joins (outer_joins stream outer) (outer_calls stream outer)
  · cases step with
    | settle failure => exact settle_ordered ordered failure
    | react =>
      rw [perform]
      split
      · exact react_ordered ordered
      · exact ordered
    | _ => exact absurd rfl outer

theorem start_ordered (methods : Methods) (hwm : N) :
    (start methods hwm : WritableStream V E N).Ordered := by
  constructor
  · exact List.Pairwise.nil
  · nofun
  · nofun
  · exact fun _ => rfl
  · nofun

end

theorem Still.refl (stream : WritableStream V E N) : Still stream stream := ⟨rfl, rfl, rfl⟩

theorem writeError_still (stream : WritableStream V E N) (error : Option (Failure E)) :
    Still stream (stream.writeError error) := by
  rw [writeError]
  split <;> exact ⟨rfl, rfl, rfl⟩

theorem Still.advance (still : Still before after) (rest : List (Link V N)) (broken : Bool) :
    Still before (after.advance rest broken) :=
  ⟨still.writer, still.writers, still.measuring⟩

theorem settle_still (stream : WritableStream V E N) (failure : Option E) :
    Still stream (stream.settle failure) := by
  unfold settle
  split
  · dsimp only
    split <;> exact ⟨rfl, rfl, rfl⟩
  · exact ⟨rfl, rfl, rfl⟩
  · exact ⟨rfl, rfl, rfl⟩
  · exact .refl stream

theorem abortWrite_still (stream : WritableStream V E N) (reason : E) :
    Still stream (stream.abortWrite reason) := by
  rw [abortWrite]
  split
  · have still := writeError_still stream (some (.given reason))
    exact ⟨still.writer, still.writers, still.measuring⟩
  · exact .refl stream

theorem closeWrite_still (stream : WritableStream V E N) : Still stream stream.closeWrite := by
  rw [closeWrite]
  split <;> exact ⟨rfl, rfl, rfl⟩

theorem callAbort_still (stream : WritableStream V E N) : Still stream stream.callAbort := by
  rw [callAbort]
  split
  · dsimp only
    split <;> exact ⟨rfl, rfl, rfl⟩
  · exact .refl stream

section
variable [Measured N]

theorem react_still (stream : WritableStream V E N) : Still stream stream.react := by
  unfold react
  split
  · exact .refl stream
  · unfold reactStart
    split
    · exact ⟨rfl, rfl, rfl⟩
    · exact (writeError_still stream _).advance _ _
    · exact .refl stream
  · rename_i size rest _
    unfold reactWrite
    split
    · split
      · exact ⟨rfl, rfl, rfl⟩
      · split <;> exact ⟨rfl, rfl, rfl⟩
    · exact .refl stream
    · split <;> exact ⟨rfl, rfl, rfl⟩
    · exact ⟨rfl, rfl, rfl⟩
    · exact ⟨rfl, rfl, rfl⟩
    · rename_i error _
      have still := writeError_still (stream.finishWrite size) error
      have same : Still stream ((stream.finishWrite size).writeError error) :=
        ⟨still.writer, still.writers, still.measuring⟩
      exact same.advance rest true
  · unfold reactClose
    split
    · split
      · exact (writeError_still stream _).advance _ _
      · split <;> exact ⟨rfl, rfl, rfl⟩
    · split <;> exact ⟨rfl, rfl, rfl⟩
    · exact (writeError_still stream _).advance _ _
    · exact .refl stream

theorem measured_writer (stream : WritableStream V E N) (size : Except E N) :
    (stream.measured size).writer = stream.writer ∧
      (stream.measured size).writers = stream.writers := by
  rw [measured]
  split
  · exact ⟨rfl, rfl⟩
  · rename_i value measuring _
    have fails : ∀ error : Option (Failure E),
        (writeError { stream with measuring } error).writer = stream.writer ∧
          (writeError { stream with measuring } error).writers = stream.writers := by
      intro error
      have still := writeError_still { stream with measuring } error
      exact ⟨still.writer, still.writers⟩
    split
    · exact fails _
    · split
      · exact ⟨rfl, rfl⟩
      · exact fails _

theorem perform_writer (stream : WritableStream V E N) (step : WriteStep V E N) :
    stream.writers ≤ (stream.perform step).writers ∧
      ((stream.perform step).writer = stream.writer ∨ (stream.perform step).writer = none ∨
        (stream.perform step).writer = some stream.writers) := by
  have still : ∀ {after : WritableStream V E N}, Still stream after →
      stream.writers ≤ after.writers ∧ (after.writer = stream.writer ∨ after.writer = none ∨
        after.writer = some stream.writers) :=
    fun still => ⟨Nat.le_of_eq still.writers.symm, .inl still.writer⟩
  cases step with
  | getWriter =>
    rw [perform]
    split
    · exact still (.refl stream)
    · exact ⟨Nat.le_succ _, .inr (.inr rfl)⟩
  | releaseLock writer =>
    rw [perform]
    split
    · exact ⟨Nat.le_refl _, .inr (.inl rfl)⟩
    · exact still (.refl stream)
  | write writer value =>
    rw [perform]
    split
    · rw [write]
      split <;> exact ⟨Nat.le_refl _, .inl rfl⟩
    · exact still (.refl stream)
  | measured size =>
    obtain ⟨writer, writers⟩ := measured_writer stream size
    exact ⟨Nat.le_of_eq writers.symm, .inl writer⟩
  | close writer =>
    rw [perform]
    split
    · exact still (closeWrite_still stream)
    · exact still (.refl stream)
  | abort writer reason =>
    rw [perform]
    split
    · exact still (abortWrite_still stream reason)
    · exact still (.refl stream)
  | error error => exact still (writeError_still stream _)
  | settle failure => exact still (settle_still stream failure)
  | react =>
    rw [perform]
    split
    · exact still (react_still stream)
    · exact still (.refl stream)
  | callAbort =>
    rw [perform]
    split
    · exact still (callAbort_still stream)
    · exact still (.refl stream)

/-- While a writer holds the stream, the others can neither take the lock nor write. -/
theorem perform_held {writer : Nat} (held : stream.writer = some writer) {step : WriteStep V E N}
    (foreign : step.uses writer = false) (size : ∀ size, step ≠ .measured size) :
    Still stream (stream.perform step) := by
  have other : ∀ {holder : Option Nat}, decide (holder = some writer) = false →
      stream.writer ≠ holder := by
    intro holder apart same
    rw [held] at same
    rw [← same] at apart
    simp at apart
  cases step with
  | getWriter =>
    rw [perform, if_pos (by rw [held]; rfl)]
    exact .refl stream
  | releaseLock number =>
    rw [perform, if_neg]
    · exact .refl stream
    · apply other
      simpa [WriteStep.uses] using foreign
  | write number value =>
    rw [perform, if_neg]
    · exact .refl stream
    · rw [holds, decide_eq_true_eq]
      apply other
      simpa [WriteStep.uses] using foreign
  | measured amount => exact absurd rfl (size amount)
  | close holder =>
    rw [perform]
    split
    · exact closeWrite_still stream
    · exact .refl stream
  | abort holder reason =>
    rw [perform]
    split
    · exact abortWrite_still stream reason
    · exact .refl stream
  | error error => exact writeError_still stream _
  | settle failure => exact settle_still stream failure
  | react =>
    rw [perform]
    split
    · exact react_still stream
    · exact .refl stream
  | callAbort =>
    rw [perform]
    split
    · exact callAbort_still stream
    · exact .refl stream

end

end WritableStream

end Chuzz.Streams
