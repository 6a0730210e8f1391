import Chuzz.Library.Grouping
import Chuzz.Streams.Sides
import Chuzz.Streams.Transform

/-! A write of a transform stream waits for the demand that the next pull announces, unless a
chunk from elsewhere takes that demand away. The chunks read are the transformer's outputs in the
order of the writes, and no chunk follows the flush. -/
namespace Chuzz.Streams
open Library Library.Transition List

/-- The outputs of a call stand behind those of the calls before it. -/
def Origin.Before : Origin → Origin → Prop
  | .transform first, .transform second => first ≤ second
  | .flush, .transform _ => False
  | _, _ => True

/-- The write for which the sink has been called. -/
def Call.write? {V : Type} : Call V → Option Nat
  | .awaiting id _ _ | .transforming id => Option.some id
  | .none | .flushing => Option.none

namespace TransformStream
variable {V E N : Type} [Measured N]

/-- Whether a chunk that is enqueued leaves neither a read that waits nor room. -/
def fills (output : Stream V E N) (size : Except E N) : Bool :=
  match output.reads, size with
  | [], .ok size =>
    Number.valid size && Number.nonpositive (Number.sub output.hwm (Number.add output.total size))
  | [], .error _ => false
  | [_], _ => Number.nonpositive (Number.sub output.hwm output.total)
  | _ :: _ :: _, _ => false

/-- A write waits for a demand that is not settled. -/
def Waits (stream : TransformStream V E N) (demand : Nat) : Prop :=
  (∃ id value, stream.call = .awaiting id demand value) ∧ stream.pending demand = true

/-- No chunk takes away the demand that a write waits for. -/
def Leaves (stream : TransformStream V E N) : TransformStep V E N → Prop
  | .enqueue _ size => ∀ demand, stream.Waits demand → ¬ stream.output.Ended →
    fills stream.output size = false
  | _ => True

def outputs (stream : TransformStream V E N) (origin : Origin) : List (Origin × V) :=
  stream.emitted.filter fun chunk => chunk.1 = origin

/-- What the claimants of a transform stream are promised. -/
structure Served (stream : TransformStream V E N) : Prop where
  /-- The next pull settles the demand that a write waits for. -/
  waits : ∀ demand, stream.Waits demand → demand = stream.current ∧
    (stream.output.job = .call →
      (stream.perform (.output .pullCall)).demands[demand]? = some .fulfilled)
  /-- That pull is on its way as soon as somebody reads. -/
  heard : ∀ demand, stream.Waits demand → stream.output.Awake
  ordered : (stream.emitted.filter fun chunk => chunk.1 ≠ .elsewhere) =
    (List.range stream.input.accepted).flatMap (fun id => stream.outputs (.transform id)) ++
      stream.outputs .flush
  read : stream.output.delivered <+: stream.emitted.map (·.2)
  whole : stream.output.canceled = false → stream.output.status ≠ .errored →
    stream.output.delivered ++ stream.output.queued = stream.emitted.map (·.2)
  /-- The readable side ends before the close of the writable side does. -/
  closes : stream.input.status = .closed → stream.output.Ended

/-- The sink's call is for the first link of the chain. -/
structure Held (stream : TransformStream V E N) : Prop where
  write : ∀ id ∈ stream.call.write?, stream.input.stage = .calling ∧ stream.input.writing = some id
  flush : stream.call = .flushing → stream.input.stage = .calling ∧
    stream.input.chain.head? = some .close ∧ stream.flushed = true

structure Demanded (stream : TransformStream V E N) : Prop where
  some : stream.demands ≠ []
  made : ∀ id demand value, stream.call = .awaiting id demand value →
    demand < stream.demands.length
  waits : ∀ demand, stream.Waits demand → demand = stream.current
  awake : stream.pending stream.current = true → stream.output.Awake

/-- The writes before the first one of the chain have had their outputs. -/
def Past (stream : TransformStream V E N) (first : Nat) : Prop :=
  ∀ id chunk, (Origin.transform id, chunk) ∈ stream.emitted →
    id < first ∨ stream.input.stage ≠ .waiting ∧ stream.input.writing = some id

structure Ordered (stream : TransformStream V E N) : Prop where
  enqueued : stream.output.enqueued = stream.emitted.map (·.2)
  sorted : stream.emitted.Pairwise fun first second => first.1.Before second.1
  numbered : ∃ first count, stream.input.ids = List.range' first count ∧
    first + count = stream.input.accepted ∧ stream.Past first
  flushed : ∀ chunk, (Origin.flush, chunk) ∈ stream.emitted → stream.flushed = true
  last : stream.flushed = true → stream.call = .flushing ∨ stream.output.Ended

structure Sound (stream : TransformStream V E N) : Prop where
  output : stream.output.Sound
  busy : stream.output.Busy
  held : stream.Held
  demanded : stream.Demanded
  ordered : stream.Ordered
  methods : stream.input.methods = {}
  idle : stream.input.chain = [] → stream.input.stage = .waiting
  finishing : stream.input.Finishing → stream.output.Ended
  closes : stream.input.status = .closed → stream.output.Ended

variable {stream : TransformStream V E N}

theorem start_sound (transforms : Bool) (writableHwm readableHwm : N) :
    (start transforms writableHwm readableHwm : TransformStream V E N).Sound where
  output := Stream.start_sound readableHwm
  busy pulling := by cases pulling
  held := ⟨fun _ calls => (nomatch calls), fun calls => by cases calls⟩
  demanded := by
    constructor
    · exact nofun
    · intro id demand value calls
      cases calls
    · rintro demand ⟨⟨id, value, calls⟩, _⟩
      cases calls
    · exact fun _ => .unread rfl
  ordered := by
    constructor
    · rfl
    · exact .nil
    · exact ⟨0, 0, rfl, rfl, nofun⟩
    · exact nofun
    · exact nofun
  methods := rfl
  idle := nofun
  finishing finishing := by cases finishing.2
  closes closed := by cases closed

variable {input : WritableStream V E N} {output : Stream V E N} {value : V}

section
omit [Measured N]

theorem Sound.joins (sound : stream.Sound) (joins : WritableStream.Joins stream.input input) :
    { stream with input }.Sound := by
  have ordered := sound.ordered
  constructor
  · exact sound.output
  · exact sound.busy
  · constructor
    · intro id calls
      obtain ⟨stage, writes⟩ := sound.held.write id calls
      exact ⟨joins.stage.trans stage, joins.writing writes⟩
    · intro calls
      obtain ⟨stage, head, flushed⟩ := sound.held.flush calls
      exact ⟨joins.stage.trans stage, joins.head head, flushed⟩
  · exact { sound.demanded with }
  · constructor
    · exact ordered.enqueued
    · exact ordered.sorted
    · obtain ⟨first, count, ids, all, past⟩ := ordered.numbered
      obtain ⟨links, chain, more, added, accepted⟩ := joins.chain
      refine ⟨first, count + more, ?_, ?_, ?_⟩
      · rw [WritableStream.ids, chain, filterMap_append, added, ← all, ← List.range'_append_1]
        exact congrArg (· ++ _) ids
      · dsimp only
        omega
      · intro id chunk member
        rcases past id chunk member with earlier | ⟨stage, writes⟩
        · exact .inl earlier
        · exact .inr ⟨joins.stage ▸ stage, joins.writing writes⟩
    · exact ordered.flushed
    · exact ordered.last
  · exact joins.methods.trans sound.methods
  · exact joins.idle sound.idle
  · exact fun finishing => sound.finishing (joins.finishing sound.idle finishing)
  · exact fun closed => sound.closes (joins.status closed)

theorem Sound.moves (sound : stream.Sound) (fits : output.Sound) (busy : output.Busy)
    (awake : stream.pending stream.current = true → output.Awake)
    (enqueued : output.enqueued = stream.output.enqueued)
    (ended : stream.output.Ended → output.Ended) : { stream with output }.Sound := by
  have ordered := sound.ordered
  constructor
  · exact fits
  · exact busy
  · exact ⟨sound.held.write, sound.held.flush⟩
  · exact ⟨sound.demanded.some, sound.demanded.made, sound.demanded.waits, awake⟩
  · constructor
    · exact enqueued.trans ordered.enqueued
    · exact ordered.sorted
    · exact ordered.numbered
    · exact ordered.flushed
    · intro flushed
      exact (ordered.last flushed).imp id ended
  · exact sound.methods
  · exact sound.idle
  · exact fun finishing => ended (sound.finishing finishing)
  · exact fun closed => ended (sound.closes closed)

theorem pending_settleDemand (stream : TransformStream V E N) {answer : Settlement}
    (settles : answer ≠ .waiting) (demand : Nat) :
    (stream.settleDemand answer).pending demand =
      (stream.pending demand && decide (demand ≠ stream.current)) := by
  rw [settleDemand]
  split
  · simp only [pending, getElem?_set]
    by_cases same : stream.current = demand
    · subst same
      by_cases inside : stream.current < stream.demands.length
      · simp [inside, settles]
      · simp [inside]
    · simp [same, Ne.symm same]
  · rename_i settled
    by_cases same : demand = stream.current
    · simp [same, settled]
    · simp [same]

theorem settleDemand_current (stream : TransformStream V E N) (answer : Settlement) :
    (stream.settleDemand answer).current = stream.current ∧
      (stream.settleDemand answer).demands.length = stream.demands.length := by
  have same : (stream.settleDemand answer).demands.length = stream.demands.length := by
    rw [settleDemand]
    split
    · exact length_set
    · rfl
  exact ⟨congrArg (· - 1) same, same⟩

theorem Sound.settleDemand (sound : stream.Sound) {answer : Settlement}
    (settles : answer ≠ .waiting) : (stream.settleDemand answer).Sound := by
  have fields : ∃ demands, stream.settleDemand answer = { stream with demands } := by
    rw [TransformStream.settleDemand]
    split
    · exact ⟨_, rfl⟩
    · exact ⟨_, rfl⟩
  obtain ⟨current, length⟩ := settleDemand_current stream answer
  have pending := pending_settleDemand stream settles
  have demanded := sound.demanded
  obtain ⟨demands, same⟩ := fields
  rw [same] at current length pending ⊢
  constructor
  · exact sound.output
  · exact sound.busy
  · exact ⟨sound.held.write, sound.held.flush⟩
  · constructor
    · intro none
      apply demanded.some
      apply eq_nil_of_length_eq_zero
      rw [← length]
      exact congrArg List.length none
    · intro id demand value calls
      exact lt_of_lt_of_eq (demanded.made id demand value calls) length.symm
    · rintro demand ⟨calls, waiting⟩
      rw [pending, Bool.and_eq_true] at waiting
      exact (demanded.waits demand ⟨calls, waiting.1⟩).trans current.symm
    · intro waiting
      rw [pending, current] at waiting
      simp at waiting
  · exact { sound.ordered with }
  · exact sound.methods
  · exact sound.idle
  · exact sound.finishing
  · exact sound.closes

theorem origin_transform {id : Nat} (made : stream.origin = .transform id) :
    stream.call = .transforming id := by
  rw [origin] at made
  split at made
  · rename_i calls
    rw [calls, Origin.transform.inj made]
  · cases made
  · cases made
  · cases made

theorem origin_flush (made : stream.origin = .flush) : stream.call = .flushing := by
  rw [origin] at made
  split at made
  · cases made
  · rename_i calls
    exact calls
  · cases made
  · cases made

theorem Ordered.emit (ordered : stream.Ordered) (held : stream.Held) {demands : List Settlement}
    (open_ : ¬ stream.output.Ended)
    (enqueued : output.enqueued = stream.output.enqueued ++ [value]) : Ordered { stream with
      output, demands, emitted := stream.emitted ++ [(stream.origin, value)] } := by
  obtain ⟨first, count, ids, all, past⟩ := ordered.numbered
  have last : stream.flushed = true → stream.call = .flushing := fun flushed =>
    (ordered.last flushed).resolve_right open_
  constructor
  · dsimp only
    rw [enqueued, ordered.enqueued, map_append]
    rfl
  · apply pairwise_append.mpr
    refine ⟨ordered.sorted, pairwise_singleton _ _, ?_⟩
    rintro ⟨origin, chunk⟩ member _ new
    obtain rfl := mem_singleton.mp new
    unfold TransformStream.origin
    split
    · rename_i id calls
      obtain ⟨_, writes⟩ := held.write id (by rw [calls]; rfl)
      cases origin with
      | elsewhere => trivial
      | transform earlier =>
        rcases past earlier chunk member with less | ⟨_, same⟩
        · have same := (WritableStream.writing_first writes ids).1
          exact Nat.le_of_lt (same ▸ less)
        · exact le_of_eq (Option.some.inj (same.symm.trans writes))
      | flush =>
        have flushing := last (ordered.flushed chunk member)
        rw [calls] at flushing
        cases flushing
    · cases origin <;> trivial
    · cases origin <;> trivial
    · cases origin <;> trivial
  · refine ⟨first, count, ids, all, ?_⟩
    intro id chunk member
    rcases mem_append.mp member with old | new
    · exact past id chunk old
    · have same := mem_singleton.mp new
      have made : stream.origin = .transform id := (congrArg Prod.fst same).symm
      obtain ⟨stage, writes⟩ := held.write id (by rw [origin_transform made]; rfl)
      exact .inr ⟨by rw [stage]; exact nofun, writes⟩
  · intro chunk member
    rcases mem_append.mp member with old | new
    · exact ordered.flushed chunk old
    · have made : stream.origin = .flush := (congrArg Prod.fst (mem_singleton.mp new)).symm
      exact (held.flush (origin_flush made)).2.2
  · exact fun flushed => .inl (last flushed)

end

variable {size : Except E N}

theorem full_enqueue (returns : (output.enqueue value size).2 = true) :
    full (output.enqueue value size).1 = fills output size := by
  have pulls : ∀ after : Stream V E N, full after.pull = full after := by
    intro after
    obtain ⟨again, pulling, job, same⟩ := after.pull_same
    rw [same]
    rfl
  unfold Stream.enqueue at returns ⊢
  unfold fills
  split at returns
  · cases returns
  · rename_i writable
    rw [if_neg writable]
    split at returns
    · rename_i read reads waits
      rw [waits]
      cases reads with
      | nil => exact (pulls _).trans (Bool.true_and _)
      | cons second rest => exact (pulls _).trans (Bool.false_and _)
    · rename_i size waits
      rw [waits]
      split at returns
      · rename_i valid
        dsimp only
        rw [if_pos valid, valid]
        refine (pulls _).trans ?_
        simp [full]
      · cases returns
    · cases returns

/-- A chunk that finds no read and no room takes a demand away that no write waits for. -/
theorem Demanded.enqueue (demanded : stream.Demanded) (busy : stream.output.Busy)
    (leaves : ∀ demand, stream.Waits demand → ¬ stream.output.Ended →
      fills stream.output size = false) : (stream.enqueue value size).1.Demanded := by
  have awake := fun waiting =>
    Stream.enqueue_awake (demanded.awake waiting) busy value size
  unfold TransformStream.enqueue
  dsimp only
  split
  · rename_i returns
    have full := full_enqueue returns
    have open_ : ¬ stream.output.Ended := by
      rcases Stream.enqueue_enqueued stream.output value size with ⟨_, running, _⟩ | ⟨none, _⟩
      · exact running
      · cases none.symm.trans returns
    split
    · rename_i filled
      constructor
      · exact append_ne_nil_of_right_ne_nil _ nofun
      · intro id demand other calls
        have made := demanded.made id demand other calls
        rw [length_append]
        exact Nat.lt_add_right _ made
      · rintro demand ⟨⟨id, other, calls⟩, waiting⟩
        have made := demanded.made id demand other calls
        have kept : stream.pending demand = true := by
          rw [pending, getElem?_append_left made] at waiting
          exact waiting
        have room := leaves demand ⟨⟨id, other, calls⟩, kept⟩ open_
        rw [← full, filled] at room
        cases room
      · intro _
        apply Stream.Awake.unread
        rw [TransformStream.full, Bool.and_eq_true, decide_eq_true_eq] at filled
        exact filled.1
    · exact ⟨demanded.some, demanded.made, demanded.waits, awake⟩
  · exact ⟨demanded.some, demanded.made, demanded.waits, awake⟩

theorem Sound.enqueue (sound : stream.Sound)
    (leaves : ∀ demand, stream.Waits demand → ¬ stream.output.Ended →
      fills stream.output size = false) : (stream.enqueue value size).1.Sound := by
  have demanded : (stream.enqueue value size).1.Demanded :=
    sound.demanded.enqueue sound.busy leaves
  have fits := Stream.enqueue_sound sound.output value size
  have busy := Stream.enqueue_busy sound.busy value size
  have awake := fun waiting =>
    Stream.enqueue_awake (sound.demanded.awake waiting) sound.busy value size
  have ended : stream.output.Ended → (stream.output.enqueue value size).1.Ended := by
    intro ended
    unfold Stream.enqueue
    split
    · exact ended
    · exact absurd ended ‹_›
  unfold TransformStream.enqueue at demanded ⊢
  dsimp only at demanded ⊢
  rcases Stream.enqueue_enqueued stream.output value size with
    ⟨returns, open_, enqueued⟩ | ⟨fails, enqueued⟩
  · rw [if_pos returns] at demanded ⊢
    constructor
    · exact fits
    · exact busy
    · exact ⟨sound.held.write, sound.held.flush⟩
    · exact demanded
    · exact sound.ordered.emit sound.held open_ enqueued
    · exact sound.methods
    · exact sound.idle
    · exact fun finishing => ended (sound.finishing finishing)
    · exact fun closed => ended (sound.closes closed)
  · rw [if_neg (by rw [fails]; exact nofun)]
    exact sound.moves fits busy awake enqueued ended

theorem fail_ended (output : Stream V E N) (failure : Failure E) : (output.fail failure).Ended := by
  rw [Stream.fail]
  split
  · exact .inl (by rintro ⟨⟩)
  · exact .inl ‹_›

theorem Sound.fail (sound : stream.Sound) (error : E) : (stream.fail error).Sound := by
  have moved := sound.moves (Stream.fail_sound sound.output (.given error))
    (Stream.fail_busy sound.busy (.given error))
    (fun waiting => Stream.fail_awake (sound.demanded.awake waiting) (.given error))
    (Stream.fail_keeps stream.output (.given error)).enqueued
    (fun _ => fail_ended stream.output (.given error))
  have joined := moved.joins (WritableStream.outer_joins stream.input
    (rfl : (WriteStep.error error : WriteStep V E N).outer = true))
  exact joined.settleDemand (nofun : Settlement.rejected ≠ .waiting)

theorem fail_output (stream : TransformStream V E N) (error : E) :
    (stream.fail error).output.Ended := by
  have ended := fail_ended stream.output (.given error)
  unfold TransformStream.fail settleDemand
  split
  · exact ended
  · exact ended

omit [Measured N] in
theorem Sound.close (sound : stream.Sound) :
    { stream with output := stream.output.close.1 }.Sound := by
  apply sound.moves
  · exact Stream.close_sound sound.output
  · exact Stream.close_busy sound.busy
  · exact fun waiting => Stream.close_awake (sound.demanded.awake waiting)
  · exact Stream.close_enqueued stream.output
  · exact fun _ => Stream.close_ended stream.output

theorem Sound.terminate (sound : stream.Sound) (error : E) : (stream.terminate error).Sound := by
  unfold TransformStream.terminate
  dsimp only
  split
  · have joined := sound.close.joins (WritableStream.outer_joins stream.input
      (rfl : (WriteStep.error error : WriteStep V E N).outer = true))
    exact joined.settleDemand (nofun : Settlement.rejected ≠ .waiting)
  · exact sound

omit [Measured N] in
theorem Ordered.reacts (ordered : stream.Ordered)
    (reacts : WritableStream.Reacts stream.input input)
    (last : stream.flushed = true → stream.output.Ended) :
    Ordered { stream with input, call := .none } := by
  obtain ⟨first, count, ids, all, past⟩ := ordered.numbered
  refine ⟨ordered.enqueued, ordered.sorted, ?_, ordered.flushed, fun flushed => .inr (last flushed)⟩
  rcases reacts.chain with ⟨chain, stage⟩ | ⟨⟨link, chain⟩, stage⟩
  · refine ⟨first, count, ?_, all.trans reacts.accepted.symm, ?_⟩
    · rw [WritableStream.ids, chain]
      exact ids
    · intro id chunk member
      rcases past id chunk member with earlier | ⟨began, writes⟩
      · exact .inl earlier
      · refine .inr ⟨stage began, ?_⟩
        rw [WritableStream.writing, chain]
        exact writes
  · have writing : stream.input.writing = link.id? := by
      rw [WritableStream.writing, chain]
      rfl
    cases written : link.id? with
    | none =>
      refine ⟨first, count, ?_, all.trans reacts.accepted.symm, ?_⟩
      · rw [WritableStream.ids, chain, filterMap_cons_none written] at ids
        exact ids
      · intro id chunk member
        rcases past id chunk member with earlier | ⟨_, writes⟩
        · exact .inl earlier
        · cases written.symm.trans (writing.symm.trans writes)
    | some number =>
      have writes := writing.trans written
      obtain ⟨rfl, more⟩ := WritableStream.writing_first writes ids
      obtain ⟨rest, rfl⟩ := Nat.exists_eq_add_of_lt more
      refine ⟨number + 1, rest, ?_, ?_, ?_⟩
      · rw [WritableStream.ids, chain, filterMap_cons_some written, Nat.zero_add,
          List.range'_succ] at ids
        exact (List.cons.inj ids).2
      · have same := reacts.accepted
        dsimp only
        omega
      · intro id chunk member
        rcases past id chunk member with earlier | ⟨_, same⟩
        · exact .inl (Nat.lt_succ_of_lt earlier)
        · obtain rfl := Option.some.inj (same.symm.trans writes)
          exact .inl (Nat.lt_succ_self id)

omit [Measured N] in
theorem Sound.reacts (sound : stream.Sound) (reacts : WritableStream.Reacts stream.input input)
    (last : stream.flushed = true → stream.output.Ended)
    (close : stream.input.stage = .calling → stream.input.chain.head? = some .close →
      stream.output.Ended) : { stream with input, call := .none }.Sound := by
  constructor
  · exact sound.output
  · exact sound.busy
  · exact ⟨fun _ calls => (nomatch calls), fun calls => by cases calls⟩
  · constructor
    · exact sound.demanded.some
    · intro id demand value calls
      cases calls
    · rintro demand ⟨⟨id, value, calls⟩, _⟩
      cases calls
    · exact sound.demanded.awake
  · exact sound.ordered.reacts reacts last
  · exact reacts.methods.trans sound.methods
  · exact reacts.idle sound.idle
  · intro finishing
    rcases reacts.finishing finishing with before | ⟨calling, head⟩
    · exact sound.finishing before
    · exact close calling head
  · intro closed
    rcases reacts.status closed with before | finishing
    · exact sound.closes before
    · exact sound.finishing finishing

/-- A call of the sink ends; if it is a flush, the readable side has ended before. -/
theorem Sound.finishCall (sound : stream.Sound) (failure : Option E)
    (last : stream.flushed = true → stream.output.Ended)
    (close : stream.input.chain.head? = some .close → stream.output.Ended) :
    (stream.finishCall failure).Sound :=
  sound.reacts (WritableStream.settle_reacts stream.input failure) last fun _ => close

theorem fail_call (stream : TransformStream V E N) (error : E) :
    (stream.fail error).call = stream.call := by
  unfold TransformStream.fail settleDemand
  split
  · rfl
  · rfl

theorem enqueue_call (stream : TransformStream V E N) (value : V) (size : Except E N) :
    (stream.enqueue value size).1.call = stream.call := by
  unfold TransformStream.enqueue
  dsimp only
  split
  · rfl
  · rfl

omit [Measured N] in
theorem Sound.uncalled (sound : stream.Sound) (stage : stream.input.stage ≠ .calling) :
    stream.call = .none := by
  cases calls : stream.call with
  | none => rfl
  | awaiting id demand value => exact absurd (sound.held.write id (by rw [calls]; rfl)).1 stage
  | transforming id => exact absurd (sound.held.write id (by rw [calls]; rfl)).1 stage
  | flushing => exact absurd (sound.held.flush calls).1 stage

omit [Measured N] in
theorem Sound.steps (sound : stream.Sound) (reacts : WritableStream.Reacts stream.input input)
    (stage : stream.input.stage ≠ .calling) :
    stream.call = .none ∧ { stream with input }.Sound := by
  have none := sound.uncalled stage
  have same : stream = { stream with call := .none } := by rw [← none]
  refine ⟨none, ?_⟩
  rw [same]
  apply sound.reacts reacts
  · intro flushed
    exact (sound.ordered.last flushed).resolve_left (by rw [none]; exact nofun)
  · exact fun calling => absurd calling stage

theorem Sound.finishWrite (sound : stream.Sound) {id : Nat} (calls : stream.call.write? = some id)
    (failure : Option E) : (stream.finishCall failure).Sound := by
  apply sound.finishCall
  · intro flushed
    rcases sound.ordered.last flushed with flushing | ended
    · rw [flushing] at calls
      cases calls
    · exact ended
  · intro head
    have writes := (sound.held.write id calls).2
    rw [WritableStream.writing, head] at writes
    cases writes

omit [Measured N] in
theorem Sound.awaits (sound : stream.Sound) (none : stream.call = .none) {id : Nat}
    (calling : stream.input.stage = .calling) (writes : stream.input.writing = some id) :
    { stream with call := .awaiting id stream.current value }.Sound := by
  have ordered := sound.ordered
  constructor
  · exact sound.output
  · exact sound.busy
  · constructor
    · intro other calls
      obtain rfl := Option.some.inj calls
      exact ⟨calling, writes⟩
    · intro calls
      cases calls
  · constructor
    · exact sound.demanded.some
    · intro other demand chunk calls
      cases calls
      exact Nat.sub_lt (length_pos_of_ne_nil sound.demanded.some) Nat.one_pos
    · rintro demand ⟨⟨other, chunk, calls⟩, _⟩
      cases calls
      rfl
    · exact sound.demanded.awake
  · refine ⟨ordered.enqueued, ordered.sorted, ordered.numbered, ordered.flushed, ?_⟩
    intro flushed
    exact .inr ((ordered.last flushed).resolve_left (by rw [none]; exact nofun))
  · exact sound.methods
  · exact sound.idle
  · exact sound.finishing
  · exact sound.closes

omit [Measured N] in
theorem Sound.flushes (sound : stream.Sound) (calling : stream.input.stage = .calling)
    (head : stream.input.chain.head? = some .close) :
    { stream with call := .flushing, flushed := true }.Sound := by
  have ordered := sound.ordered
  constructor
  · exact sound.output
  · exact sound.busy
  · exact ⟨fun _ calls => (nomatch calls), fun _ => ⟨calling, head, rfl⟩⟩
  · constructor
    · exact sound.demanded.some
    · intro id demand value calls
      cases calls
    · rintro demand ⟨⟨id, value, calls⟩, _⟩
      cases calls
    · exact sound.demanded.awake
  · exact ⟨ordered.enqueued, ordered.sorted, ordered.numbered, fun _ _ => rfl, fun _ => .inl rfl⟩
  · exact sound.methods
  · exact sound.idle
  · exact sound.finishing
  · exact sound.closes

theorem Sound.react (sound : stream.Sound) : stream.react.Sound := by
  have reacts : WritableStream.Reacts stream.input (stream.input.perform .react) :=
    WritableStream.react_reacts (by rw [sound.methods])
  unfold TransformStream.react
  dsimp only
  split
  · rename_i calling
    rw [WritableStream.react_calling calling]
    exact sound
  · rename_i calling chain stage
    obtain ⟨none, stepped⟩ := sound.steps reacts stage
    exact stepped.awaits none calling (by rw [WritableStream.writing, chain]; rfl)
  · rename_i calling chain stage
    obtain ⟨none, stepped⟩ := sound.steps reacts stage
    exact stepped.flushes calling (by rw [chain]; rfl)
  · rename_i stage _ _
    exact (sound.steps reacts stage).2

theorem Sound.started (sound : stream.Sound) (failure : Option E) :
    (stream.started failure).Sound := by
  unfold TransformStream.started
  split
  · rename_i stage
    have settled := (sound.steps (WritableStream.settle_reacts stream.input failure)
      (by rw [stage]; exact nofun)).2
    split
    · exact settled
    · exact settled.fail _
  · exact sound

theorem Sound.callAbort (sound : stream.Sound) : stream.callAbort.Sound := by
  have joined := sound.joins (WritableStream.outer_joins stream.input (rfl : WriteStep.callAbort.outer = true))
  unfold TransformStream.callAbort
  split
  · split
    · exact joined.fail _
    · exact joined
  · exact joined

omit [Measured N] in
theorem Sound.transforming (sound : stream.Sound) {id : Nat}
    (calls : stream.call.write? = some id) : { stream with call := .transforming id }.Sound := by
  have ordered := sound.ordered
  constructor
  · exact sound.output
  · exact sound.busy
  · constructor
    · intro _ same
      obtain rfl := Option.some.inj same
      exact sound.held.write _ calls
    · intro flushing
      cases flushing
  · constructor
    · exact sound.demanded.some
    · intro id demand value calls
      cases calls
    · rintro demand ⟨⟨id, value, calls⟩, _⟩
      cases calls
    · exact sound.demanded.awake
  · refine ⟨ordered.enqueued, ordered.sorted, ordered.numbered, ordered.flushed, ?_⟩
    intro flushed
    rcases ordered.last flushed with flushing | ended
    · rw [flushing] at calls
      cases calls
    · exact .inr ended
  · exact sound.methods
  · exact sound.idle
  · exact sound.finishing
  · exact sound.closes

section
variable (sound : stream.Sound)
include sound

theorem Sound.resume (size : Except E N) (thrown : E) : (stream.resume size thrown).Sound := by
  unfold TransformStream.resume
  split
  · rename_i id demand value calls
    have writes : stream.call.write? = some id := by
      rw [calls]
      rfl
    split
    · have called := sound.transforming writes
      dsimp only
      split
      · exact called
      · have enqueued : (TransformStream.enqueue
            { stream with call := .transforming id } value size).1.Sound := by
          apply called.enqueue
          rintro demand ⟨⟨other, chunk, calls⟩, _⟩
          cases calls
        have kept := enqueue_call { stream with call := .transforming id } value size
        split
        · exact enqueued.finishWrite (by rw [kept]; rfl) none
        · exact (enqueued.fail thrown).finishWrite (by rw [fail_call, kept]; rfl) (some thrown)
    · exact sound.finishWrite writes (some thrown)
    · exact sound
  · exact sound

theorem Sound.transformed (failure : Option E) : (stream.transformed failure).Sound := by
  unfold TransformStream.transformed
  split
  · rename_i calls
    exact sound.finishWrite (by rw [calls]; rfl) none
  · rename_i error calls
    exact (sound.fail error).finishWrite (by rw [fail_call, calls]; rfl) (some error)
  · exact sound

theorem Sound.flush (failure : Option E) : (stream.flush failure).Sound := by
  unfold TransformStream.flush
  split
  · have ended := Stream.close_ended stream.output
    exact sound.close.finishCall none (fun _ => ended) fun _ => ended
  · rename_i error _
    have ended := fail_output stream error
    exact (sound.fail error).finishCall (some error) (fun _ => ended) fun _ => ended
  · exact sound

theorem Sound.outer {step : Step V E N} (outer : step.outer = true) (other : step ≠ .pullCall) :
    { stream with output := stream.output.perform step }.Sound := by
  have keeps := Stream.outer_keeps stream.output outer
  apply sound.moves
  · exact Stream.perform_sound sound.output step
  · exact Stream.perform_busy sound.busy step
  · exact fun waiting => Stream.perform_awake sound.output (sound.demanded.awake waiting) sound.busy
      step outer other
  · exact keeps.enqueued
  · exact keeps.isEnded

/-- The source's `pull` uses up what was on its way, and settles the demand. -/
theorem Sound.pullCall : (stream.perform (.output .pullCall)).Sound := by
  have keeps := Stream.outer_keeps stream.output (rfl : (Step.pullCall : Step V E N).outer = true)
  have settled : (stream.settleDemand .fulfilled).Sound := sound.settleDemand nofun
  have used : (stream.settleDemand .fulfilled).pending (stream.settleDemand .fulfilled).current =
      false := by
    rw [pending_settleDemand stream (nofun : Settlement.fulfilled ≠ .waiting), (settleDemand_current stream .fulfilled).1]
    simp
  simp only [perform]
  split
  · have same : (stream.settleDemand .fulfilled).output = stream.output := by
      unfold TransformStream.settleDemand
      split
      · rfl
      · rfl
    have swap : TransformStream.settleDemand
        { stream with output := stream.output.perform .pullCall } .fulfilled =
        { stream.settleDemand .fulfilled with output := stream.output.perform .pullCall } := by
      rw [TransformStream.settleDemand, TransformStream.settleDemand]
      by_cases waiting : stream.pending stream.current = true
      · rw [if_pos waiting]
        exact if_pos waiting
      · rw [if_neg waiting]
        exact if_neg waiting
    rw [swap]
    apply settled.moves
    · exact Stream.perform_sound sound.output .pullCall
    · exact Stream.perform_busy sound.busy .pullCall
    · intro waiting
      rw [used] at waiting
      cases waiting
    · exact keeps.enqueued.trans (congrArg Stream.enqueued same.symm)
    · intro ended
      rw [same] at ended
      exact keeps.isEnded ended
  · exact sound

theorem Sound.cancelTold (reason : E) : (stream.perform (.cancelTold reason)).Sound := by
  have told : { stream with told := true }.Sound := by
    constructor
    · exact sound.output
    · exact sound.busy
    · exact ⟨sound.held.write, sound.held.flush⟩
    · exact { sound.demanded with }
    · exact { sound.ordered with }
    · exact sound.methods
    · exact sound.idle
    · exact sound.finishing
    · exact sound.closes
  rw [perform]
  split
  · have joined := told.joins (WritableStream.outer_joins stream.input
      (rfl : (WriteStep.error reason : WriteStep V E N).outer = true))
    exact joined.settleDemand (nofun : Settlement.rejected ≠ .waiting)
  · exact sound

theorem perform_sound {step : TransformStep V E N}
    (leaves : stream.Leaves step) : (stream.perform step).Sound := by
  cases step with
  | input step =>
    cases step with
    | settle failure => exact sound
    | error error => exact sound
    | react => exact sound.react
    | callAbort => exact sound.callAbort
    | getWriter | releaseLock | write | measured | close | abort =>
      exact sound.joins (WritableStream.outer_joins stream.input rfl)
  | output step =>
    cases step with
    | enqueue value size => exact sound
    | close => exact sound
    | error error => exact sound
    | startFailed error => exact sound
    | pullFailed error => exact sound
    | pullCall => exact sound.pullCall
    | started | cancel | readerCancel | getReader | read | releaseLock | pulled =>
      exact sound.outer rfl nofun
  | enqueue value size => exact sound.enqueue leaves
  | error error => exact sound.fail error
  | terminate error => exact sound.terminate error
  | started failure => exact sound.started failure
  | resume size thrown => exact sound.resume size thrown
  | transformed failure => exact sound.transformed failure
  | flushed failure => exact sound.flush failure
  | cancelTold reason => exact sound.cancelTold reason

end

/-- The place of a chunk's call among the calls of the transformer. -/
def place (stream : TransformStream V E N) (chunk : Origin × V) : Nat :=
  match chunk.1 with
  | .elsewhere => 0
  | .transform id => id
  | .flush => stream.input.accepted

omit [Measured N] in
theorem Ordered.accepted (ordered : stream.Ordered) {id : Nat} {chunk : V}
    (member : (Origin.transform id, chunk) ∈ stream.emitted) : id < stream.input.accepted := by
  obtain ⟨first, count, ids, all, past⟩ := ordered.numbered
  rcases past id chunk member with earlier | ⟨_, writes⟩
  · omega
  · obtain ⟨rfl, more⟩ := WritableStream.writing_first writes ids
    omega

omit [Measured N] in
theorem Ordered.groups (ordered : stream.Ordered) :
    (stream.emitted.filter fun chunk => chunk.1 ≠ .elsewhere) =
      (List.range stream.input.accepted).flatMap (fun id => stream.outputs (.transform id)) ++
        stream.outputs .flush := by
  have sorted : (stream.emitted.filter fun chunk => chunk.1 ≠ .elsewhere).Pairwise
      fun first second => stream.place first ≤ stream.place second := by
    apply List.Pairwise.imp_of_mem _ (ordered.sorted.filter _)
    rintro ⟨first, chunk⟩ ⟨second, other⟩ former latter before
    obtain ⟨former, called⟩ := mem_filter.mp former
    obtain ⟨latter, calls⟩ := mem_filter.mp latter
    cases first with
    | elsewhere => simp at called
    | transform id =>
      cases second with
      | elsewhere => simp at calls
      | transform next => exact before
      | flush => exact Nat.le_of_lt (ordered.accepted former)
    | flush =>
      cases second with
      | elsewhere => simp at calls
      | transform next => exact before.elim
      | flush => exact Nat.le_refl _
  have bounded : ∀ chunk ∈ stream.emitted.filter fun chunk => chunk.1 ≠ .elsewhere,
      stream.place chunk < stream.input.accepted + 1 := by
    rintro ⟨origin, chunk⟩ member
    have inside := (mem_filter.mp member).1
    cases origin with
    | elsewhere => exact Nat.succ_pos _
    | transform id => exact Nat.lt_succ_of_lt (ordered.accepted inside)
    | flush => exact Nat.lt_succ_self _
  rw [← Grouping.groups_sorted stream.place sorted bounded, range_succ, flatMap_append,
    flatMap_singleton]
  congr 1
  · apply flatMap_congr
    intro id inside
    have small := mem_range.mp inside
    rw [filter_filter]
    apply filter_congr
    rintro ⟨origin, chunk⟩ _
    cases origin with
    | elsewhere => simp
    | transform other =>
      by_cases same : other = id
      · simp [place, same]
      · simp [place, same]
    | flush => simp [place, Nat.ne_of_gt small]
  · rw [filter_filter]
    apply filter_congr
    rintro ⟨origin, chunk⟩ member
    cases origin with
    | elsewhere => simp
    | transform other => simp [place, Nat.ne_of_lt (ordered.accepted member)]
    | flush => simp [place]

theorem Sound.served (sound : stream.Sound) : stream.Served := by
  obtain ⟨settled, answered⟩ := sound.output.answered
  have enqueued := sound.ordered.enqueued
  constructor
  · intro demand waits
    have same := sound.demanded.waits demand waits
    refine ⟨same, fun job => ?_⟩
    subst same
    simp only [perform]
    rw [if_pos job]
    have called : TransformStream.settleDemand
        { stream with output := stream.output.perform .pullCall } .fulfilled =
        { stream with
          output := stream.output.perform .pullCall
          demands := stream.demands.set stream.current .fulfilled } := if_pos waits.2
    rw [called]
    apply getElem?_set_self
    exact Nat.sub_lt (length_pos_of_ne_nil sound.demanded.some) Nat.one_pos
  · intro demand waits
    apply sound.demanded.awake
    rw [← sound.demanded.waits demand waits]
    exact waits.2
  · exact sound.ordered.groups
  · rw [answered.delivered, ← enqueued]
    exact answered.ordered
  · rw [answered.delivered, ← enqueued]
    exact answered.whole
  · exact sound.closes

def Opened (stream : TransformStream V E N) : Prop :=
  ∃ transforms writableHwm readableHwm, stream = start transforms writableHwm readableHwm

/-- The runs in which no chunk takes away the demand that a write waits for. -/
abbrev Reached (stream : TransformStream V E N) : Prop :=
  Reachable Opened (restrict (fun before step after => before.perform step = after) Leaves) stream

theorem reached_served (run : Reached stream) : stream.Served := by
  have kept : stream.Sound := by
    apply run.invariant
    · rintro _ ⟨transforms, writableHwm, readableHwm, rfl⟩
      exact start_sound transforms writableHwm readableHwm
    · rintro before step _ _ sound ⟨rfl, leaves⟩
      exact perform_sound sound leaves
  exact kept.served

/-- A write through a transformer whose outputs are read one by one. -/
theorem reached_served_closed :
    let steps : List (TransformStep Nat Unit Nat) := [.started none, .input .react, .output .started,
      .output .getReader, .output (.read 0), .output .pullCall, .output .pulled, .input .getWriter,
      .input (.write 0 7), .input (.measured (.ok 1)), .input .react, .resume (.ok 1) (),
      .enqueue 8 (.ok 1), .transformed none, .input .react, .input .react, .input (.close (some 0)),
      .input .react, .enqueue 9 (.ok 1), .flushed none, .input .react, .output (.read 0)]
    let stream := steps.foldl perform (start true 1 0)
    stream.input.status = .closed ∧ stream.output.answers = [.chunk 8, .chunk 9] ∧
      stream.Served := by
  intro steps stream
  have begins : Reached (start true 1 0 : TransformStream Nat Unit Nat) := .start ⟨true, 1, 0, rfl⟩
  have run : Reached stream := by
    apply begins.run_meeting steps
    refine ⟨trivial, trivial, trivial, trivial, trivial, trivial, trivial, trivial, trivial, trivial,
      trivial, trivial, ?_, trivial, trivial, trivial, trivial, trivial, ?_, trivial, trivial,
      trivial, trivial⟩
    · rintro demand ⟨⟨id, value, calls⟩, _⟩
      cases calls
    · rintro demand ⟨⟨id, value, calls⟩, _⟩
      cases calls
  exact ⟨rfl, rfl, reached_served run⟩

/-- A chunk from elsewhere takes the demand away that the write waits for. -/
theorem not_served_replaced :
    ∃ stream : TransformStream Nat Unit Nat,
      Reachable Opened (fun before step after => before.perform step = after) stream ∧
        stream.call = .awaiting 0 0 7 ∧ stream.demands = [.waiting, .fulfilled] ∧
        stream.output.reads = [1] ∧ ¬ stream.Served := by
  have begins : Reachable Opened (fun before step after => before.perform step = after)
      (start true 1 0 : TransformStream Nat Unit Nat) := .start ⟨true, 1, 0, rfl⟩
  have run := begins.run [.started none, .input .react, .output .started, .output .getReader,
    .input .getWriter, .input (.write 0 7), .input (.measured (.ok 1)), .input .react,
    .enqueue 8 (.ok 1), .output (.read 0), .output (.read 0), .output .pullCall, .output .pulled]
  refine ⟨_, run, rfl, rfl, rfl, ?_⟩
  intro served
  have waits := (served.waits 0 ⟨⟨0, 7, rfl⟩, rfl⟩).1
  exact absurd waits (by decide)

end TransformStream
end Chuzz.Streams
