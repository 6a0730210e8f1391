import Chuzz.Streams.Writable

/-! What a sink may count on. An abort that meets a close already on its way to the sink, and a
size function that closes its own stream, break the contract; so does the total as soon as a
sum or a difference of sizes has to be rounded. Every other run keeps both. -/
namespace Chuzz.Streams
open Library Library.Transition List

/-- What a sink and its writers have seen so far. -/
structure SinkView where
  started : Bool := false
  writing : Bool := false
  closing : Bool := false
  accepted : Nat := 0
  writes : Nat := 0
  finished : Nat := 0
  closes : Nat := 0
  closed : Bool := false
  aborts : Nat := 0
deriving DecidableEq, Repr

namespace SinkView

def after (view : SinkView) : SinkEvent → SinkView
  | .started => { view with started := true }
  | .accepted => { view with accepted := view.accepted + 1 }
  | .write _ => { view with writing := true, writes := view.writes + 1 }
  | .wrote => { view with writing := false }
  | .finished => { view with finished := view.finished + 1 }
  | .close => { view with closing := true, closes := view.closes + 1 }
  | .closed fulfilled => { view with closing := false, closed := fulfilled }
  | .abort => { view with aborts := view.aborts + 1 }

/-- Writes come after the start, one at a time and in order; the close comes once, after every
accepted write; the abort comes once, outside of a write and not after a close that succeeded. -/
def allows (view : SinkView) : SinkEvent → Bool
  | .write id =>
    view.started && !view.writing && !view.closing && id = view.writes && view.closes = 0 &&
      view.aborts = 0
  | .close =>
    view.started && !view.writing && !view.closing && view.closes = 0 &&
      view.finished = view.accepted && view.aborts = 0
  | .abort => view.aborts = 0 && !view.writing && !view.closed
  | .started | .accepted | .wrote | .finished | .closed _ => true

end SinkView

def sinkContract : Monitor SinkView SinkEvent where
  initial := {}
  after := SinkView.after
  allows := SinkView.allows

variable {V E N : Type}

def Link.id? : Link V N → Option Nat
  | .write id _ _ => some id
  | _ => none

def Link.size? : Link V N → Option N
  | .write _ _ size => some size
  | _ => none

namespace WritableStream
variable [Measured N]

def view (stream : WritableStream V E N) : SinkView := sinkContract.follow stream.trace

/-- The numbers of the accepted writes that are not finished. -/
def unfinished (stream : WritableStream V E N) : List Nat := stream.chain.filterMap Link.id?

def amounts (chain : List (Link V N)) : List ℚ :=
  (chain.filterMap Link.size?).map fun size => (Measured.value size).getD 0

/-- What the claimants of a stream are promised. -/
structure Dependable (stream : WritableStream V E N) : Prop where
  contract : sinkContract.keeps stream.trace = true
  unfinished : stream.unfinished =
    List.range' stream.view.finished (stream.view.accepted - stream.view.finished)
  total : Measured.value stream.total = some (amounts stream.chain).sum
  nonnegative : ∀ amount, Measured.value stream.total = some amount → 0 ≤ amount

/-- The size that leaves the total with the next reaction. -/
def leaving (stream : WritableStream V E N) : Option N :=
  match stream.chain, stream.stage with
  | .write _ _ size :: _, .fulfilled => some size
  | .write _ _ size :: _, .rejected _ => some size
  | _, _ => none

def Exact (result : N) (first second : N) (operation : ℚ → ℚ → ℚ) : Prop :=
  ∀ a ∈ Measured.value first, ∀ b ∈ Measured.value second,
    Measured.value result = some (operation a b)

/-- The sink is in its `close`. -/
def closingSink (stream : WritableStream V E N) : Prop :=
  stream.chain.head? = some .close ∧ stream.stage = .calling

/-- The steps that keep the promise. -/
def Fair (stream : WritableStream V E N) : WriteStep V E N → Prop
  | .measured (.ok size) => stream.measuring ≠ [] → Number.valid size = true →
    (stream.status = .writable → stream.closing = false) ∧
      Exact (Number.add stream.total size) stream.total size (· + ·)
  | .react => stream.measuring = [] → ∀ size ∈ stream.leaving,
    Exact (Number.sub stream.total size) stream.total size (· - ·)
  | .settle none => stream.closingSink → stream.methods.abort = true → stream.aborting = none
  | .abort writer _ => stream.holds writer = true → stream.status = .writable →
    stream.methods.abort = true → stream.view.closed = false
  | _ => True

section Invariant

def isStart : List (Link V N) → Bool
  | .start :: _ => true
  | _ => false

def isWrite : List (Link V N) → Bool
  | .write _ _ _ :: _ => true
  | _ => false

def isClose : List (Link V N) → Bool
  | .close :: _ => true
  | _ => false

def Stage.called : Stage E → Bool
  | .calling | .answered _ | .fulfilled => true
  | .waiting | .rejected _ => false

def Stage.inCall : Stage E → Bool
  | .calling => true
  | _ => false

/-- What the chain, the status and the sink's view have to do with each other. -/
structure Linked (stream : WritableStream V E N) : Prop where
  counted : stream.accepted = stream.view.accepted
  behind : stream.view.finished ≤ stream.view.accepted
  starts : ∀ link ∈ stream.chain.tail, link ≠ .start
  idle : stream.chain = [] → stream.stage = .waiting
  startStage : isStart stream.chain = true →
    stream.stage = .waiting ∨ ∃ failure, stream.stage = .answered failure
  closeStage : isClose stream.chain = true → stream.stage = .waiting ∨ stream.stage = .calling ∨
    ∃ failure, stream.stage = .answered failure
  fresh : isStart stream.chain = true → stream.broken = false
  unbroken : Stage.called stream.stage = true → stream.broken = false
  started : stream.broken = false → stream.view.started = true ∨
    (isStart stream.chain = true ∧ stream.stage ≠ .answered none)
  writing : stream.view.writing = (isWrite stream.chain && Stage.inCall stream.stage)
  closingView : stream.view.closing = (isClose stream.chain && Stage.inCall stream.stage)
  writes : stream.broken = false → stream.methods.write = true →
    (∀ error, stream.stage ≠ .rejected error) →
    stream.view.writes =
      stream.view.finished + if isWrite stream.chain && Stage.called stream.stage then 1 else 0
  broken : stream.broken = true → stream.status = .errored
  ended : stream.status = .closed → stream.chain = []
  lastClose : stream.status = .writable → .close ∉ stream.chain.dropLast
  unclosed : stream.status = .writable → stream.closing = false →
    .close ∉ stream.chain ∧ stream.view.closes = 0
  closeLink : stream.status = .writable → stream.closing = true → .close ∈ stream.chain
  closes : stream.status = .writable → .close ∈ stream.chain →
    stream.view.closes = 0 ∨ (isClose stream.chain = true ∧ stream.stage ≠ .waiting)
  unaborted : stream.status ≠ .errored → stream.view.aborts = 0 ∧ stream.aborting = none
  abortOnce : stream.aborting ≠ none → stream.view.aborts = 0
  abortIdle : stream.aborting = some 0 → stream.stage ≠ .calling
  succeeded : stream.view.closed = true → stream.methods.abort = true → stream.aborting = none

structure Sound (stream : WritableStream V E N) : Prop extends Linked stream where
  contract : sinkContract.keeps stream.trace = true
  unfinished : stream.unfinished =
    List.range' stream.view.finished (stream.view.accepted - stream.view.finished)
  total : Measured.value stream.total = some (amounts stream.chain).sum
  sizes : ∀ size ∈ stream.chain.filterMap Link.size?, Number.valid size = true

end Invariant

variable {stream : WritableStream V E N}

theorem Sound.dependable (sound : stream.Sound) : stream.Dependable where
  contract := sound.contract
  unfinished := sound.unfinished
  total := sound.total
  nonnegative := by
    intro amount worth
    rw [sound.total] at worth
    cases worth
    apply sum_nonneg
    intro part member
    obtain ⟨size, listed, rfl⟩ := mem_map.mp member
    obtain ⟨amount, same, positive⟩ := Measured.value_valid size (sound.sizes size listed)
    rw [same]
    exact positive

variable {after : WritableStream V E N}

/-- Promises, locks and the chunks being measured are not part of the invariant. -/
theorem Sound.carried (sound : stream.Sound) (same : after = { stream with
      error := after.error, blocked := after.blocked, ready := after.ready, closed := after.closed
      writer := after.writer, writers := after.writers, measuring := after.measuring }) :
    after.Sound := by
  rw [same]
  exact ⟨{ sound with }, sound.contract, sound.unfinished,
    sound.total, sound.sizes⟩

theorem start_sound (methods : Methods) (hwm : N) :
    (start methods hwm : WritableStream V E N).Sound := by
  have initial : ({ methods, hwm, total := Number.zero } : WritableStream V E N).Sound := by
    refine ⟨?_, rfl, rfl, Measured.value_zero, ?_⟩
    · constructor <;> simp [view, sinkContract, Monitor.follow, isStart, isWrite, isClose,
        Stage.called, Stage.inCall]
    · simp [Link.size?]
  exact initial.carried rfl

theorem Sound.errored (sound : stream.Sound) :
    ({ stream with status := .errored } : WritableStream V E N).Sound :=
  { sound with
    broken := fun _ => rfl
    ended := nofun
    lastClose := nofun
    unclosed := nofun
    closeLink := nofun
    closes := nofun
    unaborted := fun different => absurd rfl different }

theorem writeError_sound (sound : stream.Sound) (error : Option (Failure E)) :
    (stream.writeError error).Sound := by
  unfold writeError
  split
  · exact sound
  · exact sound.errored.carried rfl

theorem Sound.aborted (sound : stream.Sound) (errored : stream.status = .errored)
    (unaborted : stream.view.aborts = 0)
    (open_ : stream.view.closed = true → stream.methods.abort = false) :
    ({ stream with aborting := some stream.chain.length } : WritableStream V E N).Sound :=
  { sound with
    unaborted := fun different => absurd errored different
    abortOnce := fun _ => unaborted
    abortIdle := by
      intro now calling
      have empty : stream.chain = [] := length_eq_zero_iff.mp (Option.some.inj now)
      rw [sound.idle empty] at calling
      cases calling
    succeeded := by
      intro closed has
      rw [open_ closed] at has
      cases has }

theorem abortWrite_sound (sound : stream.Sound) (reason : E)
    (fair : stream.status = .writable → stream.methods.abort = true →
      stream.view.closed = false) :
    (stream.abortWrite reason).Sound := by
  unfold abortWrite
  split
  · rename_i writable
    have open_ : stream.view.closed = true → stream.methods.abort = false := by
      intro closed
      apply Bool.eq_false_iff.mpr
      intro has
      exact Bool.noConfusion (closed.symm.trans (fair writable has))
    obtain ⟨unaborted, _⟩ := sound.unaborted (by rw [writable]; decide)
    have errored : (stream.writeError (some (.given reason))).status = .errored := by
      simp [writeError, writable]
    have aborted := (writeError_sound sound (some (.given reason))).aborted errored
    simp only [writeError, writable, reduceCtorEq, or_self, ↓reduceIte] at aborted ⊢
    exact aborted unaborted open_
  · exact sound

omit [Measured N] in
@[simp] theorem view_log (stream : WritableStream V E N) (event : SinkEvent) :
    (stream.log event).view = stream.view.after event :=
  sinkContract.follow_concat stream.trace event

/-- What a link that joins the chain leaves as it is. -/
structure Joined (chain : List (Link V N)) (stage : Stage E) (link : Link V N) : Prop where
  start : isStart (chain ++ [link]) = isStart chain
  writing : (isWrite (chain ++ [link]) && Stage.inCall stage) =
    (isWrite chain && Stage.inCall stage)
  called : (isWrite (chain ++ [link]) && Stage.called stage) =
    (isWrite chain && Stage.called stage)
  closing : (isClose (chain ++ [link]) && Stage.inCall stage) =
    (isClose chain && Stage.inCall stage)
  close : isClose (chain ++ [link]) = true → isClose chain = true ∨ stage = .waiting
  kept : isClose chain = true → isClose (chain ++ [link]) = true
  starts : (∀ link ∈ chain.tail, link ≠ .start) → ∀ other ∈ (chain ++ [link]).tail, other ≠ .start

variable {rest : List (Link V N)} {link : Link V N} {size : N} {value : V}

omit [Measured N] in
theorem join {chain : List (Link V N)} {stage : Stage E} (other : link ≠ .start)
    (idle : chain = [] → stage = .waiting) : Joined chain stage link := by
  cases chain with
  | nil =>
    rw [idle rfl]
    cases link with
    | start => exact absurd rfl other
    | write id value size => constructor <;> simp [isStart, isWrite, isClose, Stage.inCall, Stage.called]
    | close => constructor <;> simp [isStart, isWrite, isClose, Stage.inCall, Stage.called]
  | cons head rest =>
    have starts : (∀ link ∈ rest, link ≠ .start) → ∀ link' ∈ rest ++ [link], link' ≠ .start := by
      intro starts link' member
      rcases mem_append.mp member with inside | last
      · exact starts link' inside
      · rw [mem_singleton.mp last]
        exact other
    cases head with
    | start | write | close =>
      constructor <;> first | exact starts | simp [isStart, isWrite, isClose]

theorem Sound.accept (sound : stream.Sound) (value : V) (valid : Number.valid size = true)
    (open_ : stream.status ≠ .closed)
    (unclosing : stream.status = .writable → stream.closing = false)
    (sum : Exact (Number.add stream.total size) stream.total size (· + ·)) : ({ stream with
      total := Number.add stream.total size
      chain := stream.chain ++ [.write stream.accepted value size]
      accepted := stream.accepted + 1
      trace := stream.trace ++ [.accepted] } : WritableStream V E N).Sound := by
  have joined : Joined stream.chain stream.stage (.write stream.accepted value size) :=
    join (by simp) sound.idle
  have view : sinkContract.follow (stream.trace ++ [.accepted]) =
    { stream.view with accepted := stream.view.accepted + 1 } := sinkContract.follow_concat _ _
  have unclosed (writable : stream.status = .writable) : .close ∉ stream.chain :=
    (sound.unclosed writable (unclosing writable)).1
  constructor
  · constructor
    all_goals simp only [WritableStream.view, view]
    · exact congrArg (· + 1) sound.counted
    · exact Nat.le_succ_of_le sound.behind
    · exact joined.starts sound.starts
    · exact fun empty => absurd empty (by simp)
    · rw [joined.start]
      exact sound.startStage
    · intro close
      rcases joined.close close with before | waiting
      · exact sound.closeStage before
      · exact .inl waiting
    · rw [joined.start]
      exact sound.fresh
    · exact sound.unbroken
    · rw [joined.start]
      exact sound.started
    · rw [joined.writing]
      exact sound.writing
    · rw [joined.closing]
      exact sound.closingView
    · rw [joined.called]
      exact sound.writes
    · exact sound.broken
    · exact fun closed => absurd closed open_
    · intro writable
      rw [dropLast_concat]
      exact unclosed writable
    · intro writable closing
      refine ⟨?_, (sound.unclosed writable closing).2⟩
      intro member
      rcases mem_append.mp member with before | last
      · exact unclosed writable before
      · cases mem_singleton.mp last
    · intro writable closing
      rw [unclosing writable] at closing
      cases closing
    · intro writable member
      rcases mem_append.mp member with before | last
      · exact absurd before (unclosed writable)
      · cases mem_singleton.mp last
    · exact sound.unaborted
    · exact sound.abortOnce
    · exact sound.abortIdle
    · exact sound.succeeded
  · rw [sinkContract.keeps_concat, sound.contract]
    rfl
  · have ids : stream.chain.filterMap Link.id? =
      List.range' stream.view.finished (stream.view.accepted - stream.view.finished) :=
      sound.unfinished
    have behind := sound.behind
    rw [WritableStream.unfinished, filterMap_append, ids, sound.counted]
    show _ = List.range' (sinkContract.follow (stream.trace ++ [.accepted])).finished
      ((sinkContract.follow (stream.trace ++ [.accepted])).accepted -
        (sinkContract.follow (stream.trace ++ [.accepted])).finished)
    rw [view, Nat.sub_add_comm behind, List.range'_concat, one_mul, Nat.add_sub_of_le behind]
    rfl
  · obtain ⟨amount, worth, _⟩ := Measured.value_valid size valid
    rw [sum _ sound.total _ worth]
    simp [amounts, Link.size?, worth]
  · intro other member
    rw [filterMap_append] at member
    rcases mem_append.mp member with before | last
    · exact sound.sizes other before
    · simp only [filterMap_cons, Link.size?, filterMap_nil, mem_singleton] at last
      rw [last]
      exact valid

theorem measured_sound (sound : stream.Sound)
    (running : stream.measuring ≠ [] → stream.status ≠ .closed) (size : Except E N) (fair : stream.Fair (.measured size)) : (stream.measured size).Sound := by
  unfold measured
  split
  · exact sound
  · rename_i value measuring queue
    have open_ := running (by rw [queue]; simp)
    have fewer : ({ stream with measuring } : WritableStream V E N).Sound := sound.carried rfl
    cases size with
    | error error => exact writeError_sound fewer _
    | ok size =>
      dsimp only
      split
      · rename_i valid
        obtain ⟨unclosing, sum⟩ := fair (by rw [queue]; simp) valid
        exact (fewer.accept value valid open_ unclosing sum).carried rfl
      · exact writeError_sound fewer _

theorem closeWrite_sound (sound : stream.Sound) : stream.closeWrite.Sound := by
  unfold closeWrite
  split
  · exact sound
  · rename_i accepted
    simp only [ne_eq, not_or, not_not, Bool.not_eq_true] at accepted
    obtain ⟨writable, closing⟩ := accepted
    have joined : Joined stream.chain stream.stage (.close : Link V N) := join (by simp) sound.idle
    have unclosed := sound.unclosed writable closing
    have ended : ({ stream with closing := true, chain := stream.chain ++ [.close] } :
        WritableStream V E N).Sound := by
      constructor
      · constructor
        · exact sound.counted
        · exact sound.behind
        · exact joined.starts sound.starts
        · exact fun empty => absurd empty (by simp)
        · exact fun start => sound.startStage (joined.start.symm.trans start)
        · intro close
          rcases joined.close close with before | waiting
          · exact sound.closeStage before
          · exact .inl waiting
        · exact fun start => sound.fresh (joined.start.symm.trans start)
        · exact sound.unbroken
        · intro unbroken
          exact (sound.started unbroken).imp_right fun start => ⟨joined.start.trans start.1, start.2⟩
        · exact sound.writing.trans joined.writing.symm
        · exact sound.closingView.trans joined.closing.symm
        · intro unbroken has going
          rw [joined.called]
          exact sound.writes unbroken has going
        · exact sound.broken
        · exact fun closed => WriteStatus.noConfusion (writable.symm.trans closed)
        · intro _
          rw [dropLast_concat]
          exact unclosed.1
        · exact fun _ open_ => Bool.noConfusion open_
        · exact fun _ _ => mem_append_right _ (mem_singleton_self _)
        · exact fun _ _ => .inl unclosed.2
        · exact sound.unaborted
        · exact sound.abortOnce
        · exact sound.abortIdle
        · exact sound.succeeded
      · exact sound.contract
      · apply Eq.trans ?_ sound.unfinished
        simp [WritableStream.unfinished, Link.id?]
      · apply sound.total.trans
        simp only [amounts, filterMap_append]
        rw [filterMap_cons_none rfl, filterMap_nil, append_nil]
      · simpa [Link.size?] using sound.sizes
    exact ended.carried rfl

omit [Measured N] in
theorem Linked.advance (linked : stream.Linked)
    (chain : stream.chain = link :: rest) (same : after = { stream with
      total := after.total, status := after.status, error := after.error
      blocked := after.blocked, ready := after.ready, closed := after.closed
      chain := rest, stage := .waiting, broken := after.broken
      aborting := stream.aborting.map (· - 1), trace := after.trace })
    (view : after.view = { stream.view with finished := after.view.finished })
    (resting : stream.stage ≠ .calling) (behind : after.view.finished ≤ stream.view.accepted)
    (fails : after.broken = true → after.status = .errored)
    (succeeds : after.broken = false → stream.view.started = true ∧
      (stream.methods.write = true → stream.view.writes = after.view.finished))
    (writable : after.status = .writable → stream.status = .writable ∧ link ≠ .close)
    (errored : after.status ≠ .errored → stream.status ≠ .errored)
    (ended : after.status = .closed → rest = []) : after.Linked := by
  have links : ∀ other ∈ rest, other ≠ .start := by
    have starts := linked.starts
    rw [chain] at starts
    exact starts
  have unstarted : isStart rest = false := by
    cases rest with
    | nil => rfl
    | cons head others =>
      cases head with
      | start => exact absurd rfl (links _ mem_cons_self)
      | write | close => rfl
  have silent : stream.view.writing = false ∧ stream.view.closing = false := by
    rw [linked.writing, linked.closingView]
    cases stage : stream.stage with
    | calling => exact absurd stage resting
    | waiting | answered | fulfilled | rejected => simp [Stage.inCall]
  have later (found : Link.close ∈ rest) : .close ∈ stream.chain := by
    rw [chain]
    exact mem_cons_of_mem _ found
  obtain ⟨total, status, error, blocked, ready, closed, broken, trace, rfl⟩ :
      ∃ total status error blocked ready closed broken trace, after = { stream with
        total, status, error, blocked, ready, closed, chain := rest, stage := .waiting, broken
        aborting := stream.aborting.map (· - 1), trace } := ⟨_, _, _, _, _, _, _, _, same⟩
  constructor
  · rw [view]
    exact linked.counted
  · rw [view]
    exact behind
  · exact fun other member => links other (mem_of_mem_tail member)
  · exact fun _ => rfl
  · exact fun _ => .inl rfl
  · exact fun _ => .inl rfl
  · rw [unstarted]
    exact nofun
  · exact nofun
  · intro unbroken
    rw [view]
    exact .inl (succeeds unbroken).1
  · rw [view]
    simpa [Stage.inCall] using silent.1
  · rw [view]
    simpa [Stage.inCall] using silent.2
  · intro unbroken has _
    rw [view]
    simpa [Stage.called] using (succeeds unbroken).2 has
  · exact fails
  · exact ended
  · intro open_ member
    have last := linked.lastClose (writable open_).1
    rw [chain] at last
    apply last
    cases rest with
    | nil => cases member
    | cons head others => exact mem_cons_of_mem _ member
  · intro open_ closing
    obtain ⟨none, closes⟩ := linked.unclosed (writable open_).1 closing
    rw [view]
    exact ⟨fun found => none (later found), closes⟩
  · intro open_ closing
    obtain ⟨before, other⟩ := writable open_
    have found := linked.closeLink before closing
    rw [chain] at found
    exact (mem_cons.mp found).resolve_left (Ne.symm other)
  · intro open_ found
    obtain ⟨before, other⟩ := writable open_
    rw [view]
    rcases linked.closes before (later found) with none | ⟨head, _⟩
    · exact .inl none
    · rw [chain] at head
      cases link with
      | close => exact absurd rfl other
      | start | write => cases head
  · intro fine
    obtain ⟨aborts, none⟩ := linked.unaborted (errored fine)
    rw [view]
    exact ⟨aborts, congrArg (Option.map (· - 1)) none⟩
  · intro waits
    rw [view]
    exact linked.abortOnce fun none => waits (congrArg (Option.map (· - 1)) none)
  · exact nofun
  · intro closed has
    rw [view] at closed
    exact congrArg (Option.map (· - 1)) (linked.succeeded closed has)

/-- A link that is no write leaves the sizes and the sink's view as they are. -/
theorem Sound.advance (sound : stream.Sound)
    (chain : stream.chain = link :: rest) (same : after = { stream with
      status := after.status, error := after.error
      blocked := after.blocked, ready := after.ready, closed := after.closed
      chain := rest, stage := .waiting, broken := after.broken
      aborting := stream.aborting.map (· - 1) }) (other : link = .start ∨ link = .close)
    (resting : stream.stage ≠ .calling) (fails : after.broken = true → after.status = .errored)
    (succeeds : after.broken = false → Stage.called stream.stage = true ∧
      (link = .start → stream.stage = .answered none))
    (writable : after.status = .writable → stream.status = .writable ∧ link ≠ .close)
    (errored : after.status ≠ .errored → stream.status ≠ .errored)
    (ended : after.status = .closed → rest = []) : after.Sound := by
  have unsized : Link.id? link = none ∧ Link.size? link = none ∧ isWrite stream.chain = false := by
    rw [chain]
    rcases other with rfl | rfl <;> exact ⟨rfl, rfl, rfl⟩
  have view : after.view = stream.view := by rw [same]; rfl
  have started (called : Stage.called stream.stage = true)
      (start : link = .start → stream.stage = .answered none) : stream.view.started = true := by
    rcases sound.started (sound.unbroken called) with started | ⟨head, unanswered⟩
    · exact started
    · rw [chain] at head
      rcases other with rfl | rfl
      · exact absurd (start rfl) unanswered
      · cases head
  constructor
  · apply sound.toLinked.advance chain (by rw [same]) (by rw [view]) resting
      (by rw [view]; exact sound.behind) fails _ writable errored ended
    intro unbroken
    obtain ⟨called, start⟩ := succeeds unbroken
    refine ⟨started called start, fun has => ?_⟩
    have going (error : Option (Failure E)) : stream.stage ≠ .rejected error := by
      intro stage
      rw [stage] at called
      cases called
    rw [view, sound.writes (sound.unbroken called) has going, unsized.2.2]
    rfl
  · rw [same]
    exact sound.contract
  · have ids := sound.unfinished
    rw [WritableStream.unfinished, chain, filterMap_cons_none unsized.1] at ids
    rw [view, WritableStream.unfinished, same]
    exact ids
  · have total := sound.total
    rw [amounts, chain, filterMap_cons_none unsized.2.1] at total
    rw [same]
    exact total
  · have sizes := sound.sizes
    rw [chain, filterMap_cons_none unsized.2.1] at sizes
    rw [same]
    exact sizes

section
omit [Measured N]

@[simp] theorem writeError_chain (stream : WritableStream V E N) (error : Option (Failure E)) :
    (stream.writeError error).chain = stream.chain := by
  unfold writeError
  split <;> rfl

@[simp] theorem writeError_stage (stream : WritableStream V E N) (error : Option (Failure E)) :
    (stream.writeError error).stage = stream.stage := by
  unfold writeError
  split <;> rfl

theorem writeError_status (open_ : stream.status ≠ .closed) (error : Option (Failure E)) :
    (stream.writeError error).status = .errored := by
  unfold writeError
  split
  · rename_i done
    exact done.resolve_left open_
  · rfl

theorem Linked.unended (linked : stream.Linked) (chain : stream.chain = link :: rest) :
    stream.status ≠ .closed := by
  intro closed
  rw [linked.ended closed] at chain
  cases chain

end

theorem Sound.breaks (sound : stream.Sound) (chain : stream.chain = link :: rest)
    (other : link = .start ∨ link = .close) (resting : stream.stage ≠ .calling)
    (errored : stream.status = .errored) : (stream.advance rest true).Sound := by
  apply sound.advance chain rfl other resting
  · exact fun _ => errored
  · exact nofun
  · exact fun writable => WriteStatus.noConfusion (errored.symm.trans writable)
  · exact id
  · exact fun closed => WriteStatus.noConfusion (errored.symm.trans closed)

theorem reactStart_sound (sound : stream.Sound) (chain : stream.chain = .start :: rest) :
    (stream.reactStart rest).Sound := by
  have open_ := sound.unended chain
  unfold reactStart
  split
  · rename_i stage
    apply sound.advance chain rfl (.inl rfl)
    · rw [stage]
      exact nofun
    · exact nofun
    · intro _
      rw [stage]
      exact ⟨rfl, fun _ => rfl⟩
    · exact fun writable => ⟨writable, nofun⟩
    · exact id
    · exact fun closed => absurd closed open_
  · rename_i error stage
    apply (writeError_sound sound _).breaks ((writeError_chain ..).trans chain) (.inl rfl)
    · rw [writeError_stage, stage]
      exact nofun
    · exact writeError_status open_ _
  · exact sound

omit [Measured N] in
variable {after : WritableStream V E N}
/-- The first link goes on, and the sink may have seen something of it. -/
theorem Linked.restage (linked : stream.Linked) (chain : stream.chain = link :: rest)
    (same : after = { stream with stage := after.stage, trace := after.trace })
    (view : after.view = { stream.view with
      started := after.view.started, writing := after.view.writing
      closing := after.view.closing, writes := after.view.writes
      closes := after.view.closes, closed := after.view.closed })
    (startStage : link = .start → after.stage = .waiting ∨ ∃ failure, after.stage = .answered failure)
    (closeStage : link = .close → after.stage = .waiting ∨ after.stage = .calling ∨
      ∃ failure, after.stage = .answered failure)
    (unbroken : Stage.called after.stage = true → stream.broken = false)
    (started : stream.broken = false → after.view.started = true ∨
      (link = .start ∧ after.stage ≠ .answered none))
    (writing : after.view.writing = (isWrite stream.chain && Stage.inCall after.stage))
    (closingView : after.view.closing = (isClose stream.chain && Stage.inCall after.stage))
    (writes : stream.broken = false → stream.methods.write = true →
      (∀ error, after.stage ≠ .rejected error) → after.view.writes =
        stream.view.finished + if isWrite stream.chain && Stage.called after.stage then 1 else 0)
    (unclosed : .close ∉ stream.chain → after.view.closes = stream.view.closes)
    (closes : stream.status = .writable → .close ∈ stream.chain → after.view.closes = 0 ∨
      (link = .close ∧ after.stage ≠ .waiting))
    (abortIdle : stream.aborting = some 0 → after.stage ≠ .calling)
    (succeeded : after.view.closed = true → stream.methods.abort = true → stream.aborting = none) :
    after.Linked := by
  obtain ⟨stage, trace, rfl⟩ : ∃ stage trace, after = { stream with stage, trace } := ⟨_, _, same⟩
  have start : isStart stream.chain = true ↔ link = .start := by
    rw [chain]
    cases link <;> simp [isStart]
  have close : isClose stream.chain = true ↔ link = .close := by
    rw [chain]
    cases link <;> simp [isClose]
  refine { linked with
    counted := ?_, behind := ?_, idle := ?_, startStage := startStage ∘ start.mp
    closeStage := closeStage ∘ close.mp, unbroken, started := ?_, writing, closingView, writes := ?_
    unclosed := ?_, closes := ?_, unaborted := ?_, abortOnce := ?_, abortIdle, succeeded }
  · rw [view]
    exact linked.counted
  · rw [view]
    exact linked.behind
  · intro empty
    cases chain.symm.trans empty
  · rw [start]
    exact started
  · rw [view] at writes ⊢
    exact writes
  · intro open_ closing
    obtain ⟨none, closes⟩ := linked.unclosed open_ closing
    exact ⟨none, (unclosed none).trans closes⟩
  · rw [close]
    exact closes
  · rw [view]
    exact linked.unaborted
  · rw [view]
    exact linked.abortOnce

theorem Sound.staged (sound : stream.Sound) (stage : Stage E) (chain : stream.chain = link :: rest)
    (started : link ≠ .start) (resting : stream.stage ≠ .calling) (quiet : stage ≠ .calling)
    (close : link = .close → ∃ failure, stage = .answered failure)
    (unbroken : Stage.called stage = true → stream.broken = false)
    (called : (∀ error, stage ≠ .rejected error) → stream.methods.write = true →
      isWrite stream.chain = true →
      Stage.called stage = Stage.called stream.stage ∧ ∀ error, stream.stage ≠ .rejected error)
    (moved : stage ≠ .waiting) : ({ stream with stage } : WritableStream V E N).Sound := by
  have still (other : Stage E) (silent : other ≠ .calling) : Stage.inCall other = false := by
    cases other with
    | calling => exact absurd rfl silent
    | waiting | answered | fulfilled | rejected => rfl
  have unstarted : isStart stream.chain = false := by
    rw [chain]
    cases link with
    | start => exact absurd rfl started
    | write | close => rfl
  have closeHead : isClose stream.chain = true ↔ link = .close := by
    rw [chain]
    cases link <;> simp [isClose]
  refine ⟨?_, sound.contract, sound.unfinished, sound.total, sound.sizes⟩
  apply sound.toLinked.restage chain (by rfl) (by rfl)
  · exact fun start => absurd start started
  · exact fun closes => .inr (.inr (close closes))
  · exact unbroken
  · intro fine
    rcases sound.started fine with started | ⟨head, _⟩
    · exact .inl started
    · rw [unstarted] at head
      cases head
  · have writing := sound.writing
    rw [still _ resting, Bool.and_false] at writing
    rw [still _ quiet, Bool.and_false]
    exact writing
  · have closing := sound.closingView
    rw [still _ resting, Bool.and_false] at closing
    rw [still _ quiet, Bool.and_false]
    exact closing
  · intro fine has going
    cases write : isWrite stream.chain with
    | true =>
      obtain ⟨same, before⟩ := called going has write
      have count := sound.writes fine has before
      rw [write] at count
      rw [same]
      exact count
    | false =>
      have closes : isClose stream.chain = true := by
        rw [chain] at write ⊢
        cases link with
        | start => exact absurd rfl started
        | write => cases write
        | close => rfl
      have before (error : Option (Failure E)) : stream.stage ≠ .rejected error := by
        intro rejected
        rcases sound.closeStage closes with stage | stage | ⟨_, stage⟩
        all_goals
          rw [rejected] at stage
          cases stage
      have count := sound.writes fine has before
      rw [write] at count
      exact count
  · exact fun _ => rfl
  · intro open_ member
    rcases sound.closes open_ member with none | ⟨head, _⟩
    · exact .inl none
    · exact .inr ⟨closeHead.mp head, moved⟩
  · exact fun _ => quiet
  · exact sound.succeeded

theorem Sound.told {event : SinkEvent} (sound : stream.Sound)
    (same : after = { stream with stage := after.stage, trace := stream.trace ++ [event] })
    (allowed : stream.view.allows event = true)
    (accepted : (stream.view.after event).accepted = stream.view.accepted)
    (finished : (stream.view.after event).finished = stream.view.finished)
    (linked : after.view = stream.view.after event → after.Linked) : after.Sound := by
  have view : after.view = stream.view.after event := by
    rw [WritableStream.view, same]
    exact sinkContract.follow_concat _ _
  refine ⟨linked view, ?_, ?_, ?_, ?_⟩
  · rw [same, sinkContract.keeps_concat, sound.contract]
    exact allowed
  · rw [view, accepted, finished, same]
    exact sound.unfinished
  · rw [same]
    exact sound.total
  · rw [same]
    exact sound.sizes

omit [Measured N] in
theorem Linked.running (linked : stream.Linked) (chain : stream.chain = link :: rest)
    (started : link ≠ .start) (unbroken : stream.broken = false) : stream.view.started = true := by
  rcases linked.started unbroken with begun | ⟨head, _⟩
  · exact begun
  · rw [chain] at head
    cases link with
    | start => exact absurd rfl started
    | write | close => cases head

theorem settle_start (sound : stream.Sound) (failure : Option E)
    (chain : stream.chain = .start :: rest) (stage : stream.stage = .waiting) :
    (let settled : WritableStream V E N := { stream with stage := .answered failure }
      if failure.isNone then settled.log .started else settled).Sound := by
  have unbroken := sound.fresh (by rw [chain]; rfl)
  have calls (other : Stage E) : (isWrite stream.chain && Stage.called other) = false := by
    rw [chain]
    rfl
  have count (has : stream.methods.write = true) : stream.view.writes = stream.view.finished := by
    have count := sound.writes unbroken has (by rw [stage]; exact nofun)
    rw [calls] at count
    exact count
  have closes (open_ : stream.status = .writable) (member : .close ∈ stream.chain) :
      stream.view.closes = 0 := by
    rcases sound.closes open_ member with none | ⟨head, _⟩
    · exact none
    · rw [chain] at head
      cases head
  cases failure with
  | none =>
    apply sound.told (by rfl) rfl rfl rfl
    intro view
    apply sound.toLinked.restage chain (by rfl) (by rw [view]; rfl)
    · exact fun _ => .inr ⟨none, rfl⟩
    · exact nofun
    · exact fun _ => unbroken
    · intro _
      rw [view]
      exact .inl rfl
    · rw [view, chain]
      exact sound.writing.trans (by rw [chain]; rfl)
    · rw [view, chain]
      exact sound.closingView.trans (by rw [chain]; rfl)
    · intro _ has _
      rw [view, calls]
      exact count has
    · intro _
      rw [view]
      rfl
    · intro open_ member
      rw [view]
      exact .inl (closes open_ member)
    · exact fun _ => nofun
    · rw [view]
      exact sound.succeeded
  | some error =>
    refine ⟨?_, sound.contract, sound.unfinished, sound.total, sound.sizes⟩
    apply sound.toLinked.restage chain (by rfl) (by rfl)
    · exact fun _ => .inr ⟨some error, rfl⟩
    · exact nofun
    · exact fun _ => unbroken
    · exact fun _ => .inr ⟨rfl, nofun⟩
    · rw [chain]
      exact sound.writing.trans (by rw [chain]; rfl)
    · rw [chain]
      exact sound.closingView.trans (by rw [chain]; rfl)
    · intro _ has _
      rw [calls]
      exact count has
    · exact fun _ => rfl
    · exact fun open_ member => .inl (closes open_ member)
    · exact fun _ => nofun
    · exact sound.succeeded

variable {id : Nat}

theorem settle_write (sound : stream.Sound) (failure : Option E)
    (chain : stream.chain = .write id value size :: rest) (stage : stream.stage = .calling) :
    (({ stream with stage := .answered failure } : WritableStream V E N).log .wrote).Sound := by
  have unbroken := sound.unbroken (by rw [stage]; rfl)
  apply sound.told (by rfl) rfl rfl rfl
  intro view
  apply sound.toLinked.restage chain (by rfl) (by rw [view]; rfl)
  · exact nofun
  · exact nofun
  · exact fun _ => unbroken
  · intro _
    rw [view]
    exact .inl (sound.running chain nofun unbroken)
  · rw [view, chain]
    rfl
  · rw [view, chain]
    exact sound.closingView.trans (by rw [chain]; rfl)
  · intro _ has _
    have count := sound.writes unbroken has (by rw [stage]; exact nofun)
    rw [stage] at count
    rw [view]
    exact count
  · intro _
    rw [view]
    rfl
  · intro open_ member
    rw [view]
    rcases sound.closes open_ member with none | ⟨head, _⟩
    · exact .inl none
    · rw [chain] at head
      cases head
  · exact fun _ => nofun
  · rw [view]
    exact sound.succeeded

theorem settle_close (sound : stream.Sound) (failure : Option E)
    (chain : stream.chain = .close :: rest) (stage : stream.stage = .calling)
    (fair : failure = none → stream.methods.abort = true → stream.aborting = none) :
    (({ stream with stage := .answered failure } : WritableStream V E N).log
      (.closed failure.isNone)).Sound := by
  have unbroken := sound.unbroken (by rw [stage]; rfl)
  apply sound.told (by rfl) rfl rfl rfl
  intro view
  apply sound.toLinked.restage chain (by rfl) (by rw [view]; rfl)
  · exact nofun
  · exact fun _ => .inr (.inr ⟨failure, rfl⟩)
  · exact fun _ => unbroken
  · intro _
    rw [view]
    exact .inl (sound.running chain nofun unbroken)
  · rw [view, chain]
    exact sound.writing.trans (by rw [chain]; rfl)
  · rw [view, chain]
    rfl
  · intro _ has _
    have count := sound.writes unbroken has (by rw [stage]; exact nofun)
    rw [chain] at count
    rw [view, chain]
    exact count
  · intro _
    rw [view]
    rfl
  · exact fun _ _ => .inr ⟨rfl, nofun⟩
  · exact fun _ => nofun
  · rw [view]
    exact fun closed => fair (Option.isNone_iff_eq_none.mp closed)

theorem settle_sound (sound : stream.Sound) (failure : Option E)
    (fair : stream.Fair (.settle failure)) : (stream.settle failure).Sound := by
  unfold settle
  split
  · rename_i rest chain stage
    exact settle_start sound failure chain stage
  · rename_i id value size rest chain stage
    exact settle_write sound failure chain stage
  · rename_i rest chain stage
    apply settle_close sound failure chain stage
    rintro rfl
    exact fair ⟨by rw [chain]; rfl, stage⟩
  · exact sound

omit [Measured N] in
theorem ids_write (id : Nat) (value : V) (size : N) (rest : List (Link V N)) :
    (Link.write id value size :: rest).filterMap Link.id? = id :: rest.filterMap Link.id? := rfl

omit [Measured N] in
theorem sizes_write (id : Nat) (value : V) (size : N) (rest : List (Link V N)) :
    (Link.write id value size :: rest).filterMap Link.size? = size :: rest.filterMap Link.size? :=
  rfl

theorem Sound.first (sound : stream.Sound) (chain : stream.chain = .write id value size :: rest) :
    id = stream.view.finished ∧ stream.view.finished < stream.view.accepted ∧
      rest.filterMap Link.id? = List.range' (stream.view.finished + 1)
        (stream.view.accepted - (stream.view.finished + 1)) := by
  have ids := sound.unfinished
  rw [WritableStream.unfinished, chain, ids_write] at ids
  cases count : stream.view.accepted - stream.view.finished with
  | zero =>
    rw [count] at ids
    cases ids
  | succ left =>
    rw [count, List.range'_succ] at ids
    obtain ⟨same, others⟩ := List.cons.inj ids
    refine ⟨same, by omega, ?_⟩
    rw [others]
    congr 1
    omega

theorem Sound.callable (sound : stream.Sound) (chain : stream.chain = link :: rest)
    (started : link ≠ .start) (stage : stream.stage = .waiting)
    (fine : ¬ (stream.broken = true ∨ stream.status = .errored)) :
    stream.status = .writable ∧ stream.broken = false ∧ stream.view.started = true ∧
      stream.view.writing = false ∧ stream.view.closing = false ∧ stream.view.closes = 0 ∧
      stream.view.aborts = 0 ∧ stream.aborting = none := by
  have unbroken : stream.broken = false := Bool.eq_false_iff.mpr fun broken => fine (.inl broken)
  have errored : stream.status ≠ .errored := fun errored => fine (.inr errored)
  have writable : stream.status = .writable := by
    cases status : stream.status with
    | writable => rfl
    | closed => exact absurd status (sound.unended chain)
    | errored => exact absurd status errored
  have closes : stream.view.closes = 0 := by
    by_cases member : .close ∈ stream.chain
    · rcases sound.closes writable member with none | ⟨_, moved⟩
      · exact none
      · exact absurd stage moved
    · cases closing : stream.closing with
      | false => exact (sound.unclosed writable closing).2
      | true => exact absurd (sound.closeLink writable closing) member
  refine ⟨writable, unbroken, sound.running chain started unbroken, ?_, ?_, closes,
    (sound.unaborted errored).1, (sound.unaborted errored).2⟩
  · rw [sound.writing, stage]
    exact Bool.and_false _
  · rw [sound.closingView, stage]
    exact Bool.and_false _

theorem call_write (sound : stream.Sound)
    (chain : stream.chain = .write id value size :: rest) (stage : stream.stage = .waiting)
    (fine : ¬ (stream.broken = true ∨ stream.status = .errored))
    (has : stream.methods.write = true) :
    (({ stream with stage := .calling } : WritableStream V E N).log (.write id)).Sound := by
  obtain ⟨writable, unbroken, started, writing, closing, closes, aborts, unaborted⟩ :=
    sound.callable chain nofun stage fine
  obtain ⟨first, _⟩ := sound.first chain
  have count : stream.view.writes = stream.view.finished := by
    have count := sound.writes unbroken has (by rw [stage]; exact nofun)
    rw [stage] at count
    simpa [Stage.called] using count
  apply sound.told (by rfl) ?_ rfl rfl
  · intro view
    apply sound.toLinked.restage chain (by rfl) (by rw [view]; rfl)
    · exact nofun
    · exact nofun
    · exact fun _ => unbroken
    · intro _
      rw [view]
      exact .inl started
    · rw [view, chain]
      rfl
    · rw [view, chain]
      exact closing
    · intro _ _ _
      rw [view, chain]
      exact congrArg (· + 1) count
    · intro _
      rw [view]
      rfl
    · intro _ _
      rw [view]
      exact .inl closes
    · rw [unaborted]
      exact nofun
    · rw [view]
      exact sound.succeeded
  · simp [SinkView.allows, started, writing, closing, closes, aborts, first, count]

theorem call_close (sound : stream.Sound) (chain : stream.chain = .close :: rest)
    (stage : stream.stage = .waiting) (fine : ¬ (stream.broken = true ∨ stream.status = .errored)) :
    (({ stream with stage := .calling } : WritableStream V E N).log .close).Sound := by
  obtain ⟨writable, unbroken, started, writing, closing, closes, aborts, unaborted⟩ :=
    sound.callable chain nofun stage fine
  have alone : rest = [] := by
    have last := sound.lastClose writable
    rw [chain] at last
    cases rest with
    | nil => rfl
    | cons head others => exact absurd mem_cons_self last
  have finished : stream.view.finished = stream.view.accepted := by
    have ids := sound.unfinished
    have behind := sound.behind
    rw [WritableStream.unfinished, chain, alone] at ids
    have none := congrArg List.length ids
    rw [length_range'] at none
    have empty : stream.view.accepted - stream.view.finished = 0 := none.symm
    omega
  apply sound.told (by rfl) ?_ rfl rfl
  · intro view
    apply sound.toLinked.restage chain (by rfl) (by rw [view]; rfl)
    · exact nofun
    · exact fun _ => .inr (.inl rfl)
    · exact fun _ => unbroken
    · intro _
      rw [view]
      exact .inl started
    · rw [view, chain]
      exact writing
    · rw [view, chain]
      rfl
    · intro _ has _
      have count := sound.writes unbroken has (by rw [stage]; exact nofun)
      rw [chain] at count
      rw [view, chain]
      exact count
    · intro absent
      rw [chain] at absent
      exact absurd mem_cons_self absent
    · exact fun _ _ => .inr ⟨rfl, nofun⟩
    · rw [unaborted]
      exact nofun
    · rw [view]
      exact sound.succeeded
  · simp [SinkView.allows, started, writing, closing, closes, aborts, finished]

theorem Sound.finish (sound : stream.Sound)
    (chain : stream.chain = .write id value size :: rest) (same : after = { stream with
      total := Number.sub stream.total size, status := after.status, error := after.error
      blocked := after.blocked, ready := after.ready, closed := after.closed
      chain := rest, stage := .waiting, broken := after.broken
      aborting := stream.aborting.map (· - 1), trace := stream.trace ++ [.finished] })
    (resting : stream.stage ≠ .calling) (fails : after.broken = true → after.status = .errored)
    (succeeds : after.broken = false → stream.stage = .fulfilled)
    (writable : after.status = .writable → stream.status = .writable)
    (errored : after.status ≠ .errored → stream.status ≠ .errored) (open_ : after.status ≠ .closed)
    (difference : Exact (Number.sub stream.total size) stream.total size (· - ·)) :
    after.Sound := by
  have view : after.view = { stream.view with finished := stream.view.finished + 1 } := by
    rw [WritableStream.view, same]
    exact sinkContract.follow_concat _ _
  obtain ⟨_, more, others⟩ := sound.first chain
  constructor
  · apply sound.toLinked.advance chain (by rw [same]) (by rw [view]) resting
      (by rw [view]; exact more) fails _ (fun still => ⟨writable still, nofun⟩) errored
      (fun closed => absurd closed open_)
    intro fine
    have stage := succeeds fine
    have unbroken := sound.unbroken (by rw [stage]; rfl)
    refine ⟨sound.running chain nofun unbroken, fun has => ?_⟩
    have count := sound.writes unbroken has (by rw [stage]; exact nofun)
    rw [chain, stage] at count
    rw [view]
    exact count
  · rw [same, sinkContract.keeps_concat, sound.contract]
    rfl
  · rw [view, WritableStream.unfinished, same]
    exact others
  · obtain ⟨amount, worth, _⟩ := Measured.value_valid size
      (sound.sizes size (by rw [chain, sizes_write]; exact mem_cons_self))
    have total := sound.total
    rw [amounts, chain, sizes_write, map_cons, sum_cons, worth] at total
    have left : after.total = Number.sub stream.total size ∧ after.chain = rest := by
      rw [same]
      exact ⟨rfl, rfl⟩
    rw [left.1, left.2, difference _ total _ worth]
    simp [amounts]
  · intro other member
    rw [same] at member
    apply sound.sizes
    rw [chain, sizes_write]
    exact mem_cons_of_mem _ member

section
variable (sound : stream.Sound)
include sound

theorem reactWrite_sound {id : Nat}
    (chain : stream.chain = .write id value size :: rest) (difference : ∀ size ∈ stream.leaving,
      Exact (Number.sub stream.total size) stream.total size (· - ·)) :
    (stream.reactWrite id size rest).Sound := by
  have open_ := sound.unended chain
  unfold reactWrite
  split
  · rename_i stage
    have resting : stream.stage ≠ .calling := by
      rw [stage]
      exact nofun
    split
    · exact sound.staged (.rejected stream.error) chain nofun resting nofun nofun nofun
        (fun going => absurd rfl (going _)) nofun
    · rename_i fine
      split
      · rename_i has
        exact call_write sound chain stage fine has
      · rename_i lacks
        have unbroken : stream.broken = false :=
          Bool.eq_false_iff.mpr fun broken => fine (.inl broken)
        exact sound.staged (.answered none) chain nofun resting nofun nofun (fun _ => unbroken)
          (fun _ has => absurd has lacks) nofun
  · exact sound
  · rename_i stage
    have resting : stream.stage ≠ .calling := by
      rw [stage]
      exact nofun
    split
    · exact sound.staged (.rejected stream.error) chain nofun resting nofun nofun nofun
        (fun going => absurd rfl (going _)) nofun
    · apply sound.staged .fulfilled chain nofun resting nofun nofun
      · exact fun _ => sound.unbroken (by rw [stage]; rfl)
      · rw [stage]
        exact fun _ _ _ => ⟨rfl, nofun⟩
      · exact nofun
  · rename_i error stage
    apply sound.staged (.rejected (some (.given error))) chain nofun (by rw [stage]; exact nofun)
      nofun nofun nofun
    · exact fun going => absurd rfl (going _)
    · exact nofun
  · rename_i stage
    apply sound.finish chain (by rfl) (by rw [stage]; exact nofun)
    · exact fun broken => by cases (show false = true from broken)
    · exact fun _ => stage
    · exact fun writable => writable
    · exact fun fine => fine
    · exact open_
    · apply difference
      rw [leaving, chain, stage]
      rfl
  · rename_i error stage
    have errored : ((stream.finishWrite size).writeError error).status = .errored := by
      apply writeError_status
      exact open_
    apply sound.finish chain (by unfold writeError; split <;> rfl)
    · rw [stage]
      exact nofun
    · exact fun _ => errored
    · exact nofun
    · exact fun writable => WriteStatus.noConfusion (errored.symm.trans writable)
    · exact fun fine => absurd errored fine
    · exact fun closed => WriteStatus.noConfusion (errored.symm.trans closed)
    · apply difference
      rw [leaving, chain, stage]
      rfl

theorem reactClose_sound (chain : stream.chain = .close :: rest) :
    (stream.reactClose rest).Sound := by
  have open_ := sound.unended chain
  unfold reactClose
  split
  · rename_i stage
    have resting : stream.stage ≠ .calling := by
      rw [stage]
      exact nofun
    split
    · apply (writeError_sound sound _).breaks ((writeError_chain ..).trans chain) (.inr rfl)
      · rw [writeError_stage]
        exact resting
      · exact writeError_status open_ _
    · rename_i fine
      split
      · exact call_close sound chain stage fine
      · have unbroken : stream.broken = false :=
          Bool.eq_false_iff.mpr fun broken => fine (.inl broken)
        apply sound.staged (.answered none) chain nofun resting nofun (fun _ => ⟨none, rfl⟩) (fun _ => unbroken)
        · rw [chain]
          exact nofun
        · exact nofun
  · rename_i stage
    have resting : stream.stage ≠ .calling := by
      rw [stage]
      exact nofun
    split
    · rename_i errored
      exact sound.breaks chain (.inr rfl) resting errored
    · rename_i fine
      have writable : stream.status = .writable := by
        cases status : stream.status with
        | writable => rfl
        | closed => exact absurd status open_
        | errored => exact absurd status fine
      apply sound.advance chain (by rfl) (.inr rfl) resting
      · exact nofun
      · intro _
        rw [stage]
        exact ⟨rfl, nofun⟩
      · exact nofun
      · exact fun _ => fine
      · intro _
        have last := sound.lastClose writable
        rw [chain] at last
        cases rest with
        | nil => rfl
        | cons head others => exact absurd mem_cons_self last
  · rename_i error stage
    apply (writeError_sound sound _).breaks ((writeError_chain ..).trans chain) (.inr rfl)
    · rw [writeError_stage, stage]
      exact nofun
    · exact writeError_status open_ _
  · exact sound

theorem react_sound (difference : ∀ size ∈ stream.leaving,
      Exact (Number.sub stream.total size) stream.total size (· - ·)) : stream.react.Sound := by
  unfold react
  split
  · exact sound
  · rename_i rest chain
    exact reactStart_sound sound chain
  · rename_i id value size rest chain
    exact reactWrite_sound sound chain difference
  · rename_i rest chain
    exact reactClose_sound sound chain

theorem Sound.abortDone : ({ stream with aborting := none } : WritableStream V E N).Sound :=
  { sound with
    unaborted := fun fine => ⟨(sound.unaborted fine).1, rfl⟩
    abortOnce := fun waits => absurd rfl waits
    abortIdle := nofun
    succeeded := fun _ _ => rfl }

theorem Sound.abortTold (errored : stream.status = .errored)
    (done : stream.aborting = none) (allowed : stream.view.allows .abort = true) :
    (stream.log .abort).Sound := by
  have view := view_log stream .abort
  constructor
  · constructor
    all_goals try simp only [view]
    · exact sound.counted
    · exact sound.behind
    · exact sound.starts
    · exact sound.idle
    · exact sound.startStage
    · exact sound.closeStage
    · exact sound.fresh
    · exact sound.unbroken
    · exact sound.started
    · exact sound.writing
    · exact sound.closingView
    · exact sound.writes
    · exact sound.broken
    · exact sound.ended
    · exact sound.lastClose
    · exact sound.unclosed
    · exact sound.closeLink
    · exact sound.closes
    · exact fun fine => absurd errored fine
    · exact fun waits => absurd done waits
    · exact sound.abortIdle
    · exact sound.succeeded
  · rw [log, sinkContract.keeps_concat, sound.contract]
    exact allowed
  · rw [view]
    exact sound.unfinished
  · exact sound.total
  · exact sound.sizes

theorem callAbort_sound : stream.callAbort.Sound := by
  unfold callAbort
  split
  · rename_i now
    have errored : stream.status = .errored := by
      by_contra fine
      rw [(sound.unaborted fine).2] at now
      cases now
    split
    · rename_i has
      apply sound.abortDone.abortTold errored rfl
      have aborts := sound.abortOnce (by rw [now]; exact nofun)
      have writing : stream.view.writing = false := by
        rw [sound.writing]
        cases stage : stream.stage with
        | calling => exact absurd stage (sound.abortIdle now)
        | waiting | answered | fulfilled | rejected => simp [Stage.inCall]
      have closed : stream.view.closed = false := by
        apply Bool.eq_false_iff.mpr
        intro closed
        rw [sound.succeeded closed has] at now
        cases now
      show stream.view.allows .abort = true
      simp [SinkView.allows, aborts, writing, closed]
    · exact sound.abortDone
  · exact sound

theorem perform_sound (running : stream.measuring ≠ [] → stream.status ≠ .closed) (step : WriteStep V E N)
    (fair : stream.Fair step) : (stream.perform step).Sound := by
  cases step with
  | getWriter =>
    simp only [perform]
    split
    · exact sound
    · exact sound.carried rfl
  | releaseLock writer =>
    simp only [perform]
    split
    · exact sound.carried rfl
    · exact sound
  | write writer value =>
    simp only [perform, write]
    split
    · split
      · exact sound
      · exact sound.carried rfl
    · exact sound
  | measured size => exact measured_sound sound running size fair
  | close writer =>
    simp only [perform]
    split
    · exact closeWrite_sound sound
    · exact sound
  | abort writer reason =>
    simp only [perform]
    split
    · rename_i holds
      exact abortWrite_sound sound reason (fair holds)
    · exact sound
  | error error => exact writeError_sound sound _
  | settle failure => exact settle_sound sound failure fair
  | react =>
    simp only [perform]
    split
    · rename_i idle
      exact react_sound sound (fair idle)
    · exact sound
  | callAbort =>
    simp only [perform]
    split
    · exact callAbort_sound sound
    · exact sound

end

omit [Measured N] in
@[simp] theorem writeError_measuring (stream : WritableStream V E N)
    (error : Option (Failure E)) : (stream.writeError error).measuring = stream.measuring := by
  unfold writeError
  split <;> rfl

theorem react_measuring (stream : WritableStream V E N) :
    stream.react.measuring = stream.measuring := by
  unfold react
  split
  · rfl
  · unfold reactStart
    split
    · rfl
    · exact writeError_measuring ..
    · rfl
  · unfold reactWrite
    split
    · split
      · rfl
      · split <;> rfl
    · rfl
    · split <;> rfl
    · rfl
    · rfl
    · exact writeError_measuring ..
  · unfold reactClose
    split
    · split
      · exact writeError_measuring ..
      · split <;> rfl
    · split <;> rfl
    · exact writeError_measuring ..
    · rfl

omit [Measured N] in
theorem settle_status (stream : WritableStream V E N) (failure : Option E) :
    (stream.settle failure).status = stream.status ∧
      (stream.settle failure).measuring = stream.measuring := by
  unfold settle
  split
  · dsimp only
    split <;> exact ⟨rfl, rfl⟩
  · exact ⟨rfl, rfl⟩
  · exact ⟨rfl, rfl⟩
  · exact ⟨rfl, rfl⟩

omit [Measured N] in
theorem writeError_running (error : Option (Failure E)) (open_ : stream.status ≠ .closed) :
    (stream.writeError error).status ≠ .closed := by
  rw [writeError_status open_]
  exact nofun

theorem measured_running (running : stream.measuring ≠ [] → stream.status ≠ .closed)
    (size : Except E N) :
    (stream.measured size).measuring ≠ [] → (stream.measured size).status ≠ .closed := by
  unfold measured
  split
  · exact running
  · rename_i value measuring queue
    have open_ := running (by rw [queue]; exact nofun)
    intro _
    have fails (error : Option (Failure E)) :
        (({ stream with measuring } : WritableStream V E N).writeError error).status ≠ .closed :=
      writeError_running error open_
    split
    · exact fails _
    · split
      · exact open_
      · exact fails _

theorem perform_running (running : stream.measuring ≠ [] → stream.status ≠ .closed)
    (step : WriteStep V E N) :
    (stream.perform step).measuring ≠ [] → (stream.perform step).status ≠ .closed := by
  cases step with
  | getWriter | releaseLock =>
    simp only [perform]
    split <;> exact running
  | write writer value =>
    simp only [perform, write]
    split
    · split
      · exact running
      · rename_i accepted
        intro _ closed
        exact accepted (.inl (by rw [closed]; exact nofun))
    · exact running
  | measured size => exact measured_running running size
  | close writer =>
    simp only [perform, closeWrite]
    split
    · split <;> exact running
    · exact running
  | abort writer reason =>
    simp only [perform, abortWrite]
    split
    · split
      · rename_i writable
        intro _
        exact writeError_running _ (by rw [writable]; exact nofun)
      · exact running
    · exact running
  | error error =>
    intro measuring
    rw [perform, writeError_measuring] at measuring
    exact writeError_running _ (running measuring)
  | settle failure =>
    obtain ⟨status, measuring⟩ := settle_status stream failure
    simp only [perform, status, measuring]
    exact running
  | react =>
    simp only [perform]
    split
    · rename_i idle
      intro measuring
      exact absurd ((react_measuring stream).trans idle) measuring
    · exact running
  | callAbort =>
    simp only [perform, callAbort]
    split
    · split
      · split <;> exact running
      · exact running
    · exact running

def Opened (stream : WritableStream V E N) : Prop := ∃ methods hwm, stream = start methods hwm

/-- The runs whose steps are fair to the sink. -/
abbrev Reached (stream : WritableStream V E N) : Prop :=
  Reachable Opened (restrict (fun before step after => perform before step = after) Fair) stream

/-- In a fair run the sink's contract is kept and the total is the sum of what is unfinished. -/
theorem reached_dependable (run : Reached stream) : stream.Dependable := by
  have kept : stream.Sound ∧ (stream.measuring ≠ [] → stream.status ≠ .closed) := by
    apply run.invariant
    · rintro _ ⟨methods, hwm, rfl⟩
      refine ⟨start_sound methods hwm, ?_⟩
      exact fun measuring => absurd rfl measuring
    · rintro before step _ _ ⟨sound, running⟩ ⟨rfl, fair⟩
      exact ⟨perform_sound sound running step fair, perform_running running step⟩
  exact kept.1.dependable

end WritableStream

/-- Counts, as the sizes of a strategy that has no size function. -/
instance : Measured Nat where
  zero := 0
  one := 1
  add := (· + ·)
  sub := (· - ·)
  nonpositive := (· = 0)
  valid := fun _ => true
  valid_one := rfl
  atLeast := fun first second => second ≤ first
  value := fun size => some size
  value_zero := rfl
  value_valid := fun size _ => ⟨size, rfl, Nat.cast_nonneg size⟩

namespace WritableStream

/-- One write, from the start to its end. -/
theorem reached_dependable_written :
    let steps : List (WriteStep Unit Unit Nat) := [.getWriter, .settle none, .react, .write 0 (),
      .measured (.ok 1), .react, .settle none, .react, .react]
    let stream := steps.foldl perform (start {} 1)
    stream.trace = [.started, .accepted, .write 0, .wrote, .finished] ∧ stream.Dependable := by
  intro steps stream
  have begins : Reached (start {} 1 : WritableStream Unit Unit Nat) := .start ⟨{}, 1, rfl⟩
  have run : Reached stream := by
    apply begins.run_meeting steps
    refine ⟨trivial, ?_, ?_, trivial, ?_, ?_, ?_, ?_, ?_, trivial⟩
    · rintro ⟨head, _⟩
      cases head
    · exact fun _ size leaves => nomatch leaves
    · refine fun _ _ => ⟨fun _ => rfl, ?_⟩
      rintro a ⟨⟩ b ⟨⟩
      exact congrArg some (Nat.cast_add _ _)
    · exact fun _ size leaves => nomatch leaves
    · rintro ⟨head, _⟩
      cases head
    · exact fun _ size leaves => nomatch leaves
    · rintro _ size ⟨⟩ a ⟨⟩ b ⟨⟩
      exact congrArg some (Nat.cast_sub (Nat.le_refl 1))
  exact ⟨rfl, reached_dependable run⟩

/-- A writer aborts while the sink is in its `close`, which then succeeds. -/
theorem not_dependable_aborted :
    ∃ stream : WritableStream Unit Unit Nat,
      Reachable Opened (fun before step after => before.perform step = after) stream ∧
        stream.trace = [.started, .close, .closed true, .abort] ∧ ¬ stream.Dependable := by
  have begins : Reachable Opened (fun before step after => before.perform step = after)
      (start {} 1 : WritableStream Unit Unit Nat) := .start ⟨{}, 1, rfl⟩
  have run := begins.run [.getWriter, .settle none, .react, .close (some 0), .react,
    .abort (some 0) (), .settle none, .react, .callAbort]
  refine ⟨_, run, rfl, ?_⟩
  intro dependable
  exact absurd dependable.contract (by decide)

end WritableStream
end Chuzz.Streams
