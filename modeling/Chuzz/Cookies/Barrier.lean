import Chuzz.Cookies.Persistence

/-! What reaches the table. The snapshots written, held by the writer, carried by
queued commands and pending form one chain, in the order of their enqueueing and
ending with the newest one. A command's barrier is a point of that chain. -/
namespace Chuzz.Cookies
open Library.Transition List

def Writer.holding : Writer → List Snapshot
  | .acting (.command command) => command.snapshot.toList
  | .acting (.snapshot snapshot) => [snapshot]
  | _ => []

/-- The command that the writer works on. -/
def Writer.current : Writer → Option Command
  | .acting (.command command) | .answering command => some command
  | _ => none

/-- No publisher can add anything. -/
def Pending.Sealed (pending : Pending) : Prop := pending.isOpen = false ∧ pending.snapshot = none

/-- Behind `earlier`, each queued command carries the chain to its own newest
snapshot, and nothing follows a closing command. -/
def Barriers (shut : Prop) : (earlier : List Snapshot) → List Command → Prop
  | _, [] => True
  | earlier, command :: rest =>
    (earlier ++ command.snapshot.toList).getLast? = command.newest ∧
      (command.close = true → rest = [] ∧ shut) ∧
      Barriers shut (earlier ++ command.snapshot.toList) rest

theorem Barriers.mono {shut shut' : Prop} (weaker : shut → shut') {earlier : List Snapshot}
    {queue : List Command} (barriers : Barriers shut earlier queue) :
    Barriers shut' earlier queue := by
  induction queue generalizing earlier with
  | nil => trivial
  | cons command rest ih =>
    obtain ⟨newest, last, barriers⟩ := barriers
    exact ⟨newest, fun close => (last close).imp_right weaker, ih barriers⟩

theorem Barriers.append {shut shut' : Prop} (opened : ¬ shut) {earlier : List Snapshot}
    {queue : List Command} (barriers : Barriers shut earlier queue) {command : Command}
    (newest : (earlier ++ queue.filterMap Command.snapshot ++ command.snapshot.toList).getLast? =
      command.newest)
    (last : command.close = true → shut') : Barriers shut' earlier (queue ++ [command]) := by
  induction queue generalizing earlier with
  | nil =>
    rw [filterMap_nil, append_nil] at newest
    exact ⟨newest, fun close => ⟨rfl, last close⟩, trivial⟩
  | cons first rest ih =>
    obtain ⟨reached, ends, barriers⟩ := barriers
    refine ⟨reached, fun close => absurd (ends close).2 opened, ih barriers ?_⟩
    rw [← newest]
    congr 1
    cases carried : first.snapshot <;> simp [carried, append_assoc]

namespace Persistence

/-- The snapshots written and the one that is being written. -/
def history (self : Persistence) : List Snapshot :=
  self.written.map Written.snapshot ++ self.writer.holding

def carried (self : Persistence) : List Snapshot :=
  self.pending.queue.filterMap Command.snapshot

def chain (self : Persistence) : List Snapshot :=
  self.history ++ self.carried ++ self.pending.snapshot.toList

structure Kept (state : Persistence) : Prop where
  ordered : state.chain.Sublist state.enqueued
  newest : state.chain.getLast? = state.enqueued.getLast?
  numbered : state.enqueued.Pairwise fun earlier later => earlier.number < later.number
  bounded : ∀ snapshot ∈ state.enqueued, snapshot.number ≤ state.pending.generation
  barriers : Barriers state.pending.Sealed state.history state.pending.queue
  current : ∀ command ∈ state.writer.current, state.history.getLast? = command.newest ∧
    (command.close = true → state.pending.queue = [] ∧ state.pending.Sealed)
  ended : state.writer = .acting .close ∨ state.writer = .stopped →
    state.pending.queue = [] ∧ state.pending.Sealed
  errors : state.firstError = none → ∀ write ∈ state.written, write.error = none
  answered : ∀ answer ∈ state.answers, answer.written <+: state.written ∧
    (answer.written.map Written.snapshot).getLast? = answer.command.newest ∧
    (answer.result = .ok () → ∀ write ∈ answer.written, write.error = none)

variable {state after : Persistence}

theorem kept_start : Kept {} where
  ordered := List.Sublist.refl _
  newest := rfl
  numbered := List.Pairwise.nil
  bounded _ member := absurd member not_mem_nil
  barriers := trivial
  current _ member := absurd member (by simp [Writer.current])
  ended ends := by simp at ends
  errors _ _ member := absurd member not_mem_nil
  answered _ member := absurd member not_mem_nil

section
variable (kept : state.Kept)
include kept

theorem Kept.enqueue {text : String} (done : state.enqueue text = .ok after) : after.Kept := by
  unfold Persistence.enqueue at done
  split at done
  · contradiction
  rename_i opened
  split at done
  · contradiction
  cases done
  have unsealed : ¬ state.pending.Sealed := fun shut => opened shut.1
  constructor
  · have earlier : (state.history ++ state.carried).Sublist state.enqueued :=
      (sublist_append_left _ _).trans kept.ordered
    exact earlier.append (List.Sublist.refl _)
  · simp only [chain, Option.toList_some, getLast?_concat]
  · refine pairwise_append.mpr ⟨kept.numbered, pairwise_singleton _ _, ?_⟩
    intro earlier member later here
    rw [mem_singleton.mp here]
    exact Nat.lt_succ_of_le (kept.bounded earlier member)
  · intro snapshot member
    rcases mem_append.mp member with member | here
    · exact Nat.le_succ_of_le (kept.bounded snapshot member)
    · rw [mem_singleton.mp here]
  · exact kept.barriers.mono fun shut => absurd shut unsealed
  · intro command member
    refine (kept.current command member).imp_right fun closes close => ?_
    exact absurd (closes close).2 unsealed
  · exact fun ends => absurd (kept.ended ends).2 unsealed
  · exact kept.errors
  · exact kept.answered

theorem Kept.request {close : Bool} (done : state.request close = .ok after) : after.Kept := by
  unfold Persistence.request at done
  split at done
  · contradiction
  rename_i opened
  split at done
  · contradiction
  cases done
  have unsealed : ¬ state.pending.Sealed := fun shut => opened shut.1
  constructor
  · have same := kept.ordered
    simp only [chain, carried, history] at same ⊢
    cases pending : state.pending.snapshot <;> simpa [pending] using same
  · have same := kept.newest
    simp only [chain, carried, history] at same ⊢
    cases pending : state.pending.snapshot <;> simpa [pending] using same
  · exact kept.numbered
  · exact kept.bounded
  · refine kept.barriers.append unsealed kept.newest fun closes => ⟨?_, rfl⟩
    simp only at closes
    simp [closes]
  · intro command member
    refine (kept.current command member).imp_right fun closes close => ?_
    exact absurd (closes close).2 unsealed
  · exact fun ends => absurd (kept.ended ends).2 unsealed
  · exact kept.errors
  · exact kept.answered

theorem Kept.drop : (state.perform .drop).Kept := by
  have shuts : state.pending.Sealed → (state.perform .drop).pending.Sealed :=
    fun shut => ⟨rfl, shut.2⟩
  constructor
  · exact kept.ordered
  · exact kept.newest
  · exact kept.numbered
  · exact kept.bounded
  · exact kept.barriers.mono shuts
  · intro command member
    exact (kept.current command member).imp_right fun closes close =>
      (closes close).imp_right shuts
  · exact fun ends => (kept.ended ends).imp_right shuts
  · exact kept.errors
  · exact kept.answered

/-- The writer takes the oldest command; without one, a snapshot that is due. -/
theorem Kept.choose : (state.perform .choose).Kept := by
  obtain ⟨pending, writer, firstError, due, enqueued, written, answers⟩ := state
  simp only [perform]
  cases writer with
  | acting _ => exact kept
  | answering _ => exact kept
  | stopped => exact kept
  | choosing =>
    obtain ⟨ordered, newest, numbered, bounded, barriers, -, -, errors, answered⟩ := kept
    obtain ⟨queue, snapshot, generation, isOpen⟩ := pending
    simp only [chain, history, carried, Writer.holding, append_nil] at ordered newest barriers
    cases queue with
    | cons command rest =>
      obtain ⟨reached, ends, barriers⟩ := barriers
      constructor
      · cases held : command.snapshot <;>
          simpa [action, chain, history, carried, Writer.holding, held] using ordered
      · cases held : command.snapshot <;>
          simpa [action, chain, history, carried, Writer.holding, held] using newest
      · exact numbered
      · exact bounded
      · exact barriers
      · rintro _ ⟨⟩
        exact ⟨reached, ends⟩
      · exact fun ends => by simp [action] at ends
      · exact errors
      · exact answered
    | nil =>
      cases snapshot with
      | some snapshot =>
        simp only [action]
        split
        · refine ⟨?_, ?_, numbered, bounded, trivial, ?_, ?_, errors, answered⟩
          · simpa [chain, history, carried, Writer.holding] using ordered
          · simpa [chain, history, carried, Writer.holding] using newest
          · exact fun command member => by simp [Writer.current] at member
          · exact fun ends => by simp at ends
        · refine ⟨?_, ?_, numbered, bounded, trivial, ?_, ?_, errors, answered⟩
          · simpa [chain, history, carried, Writer.holding] using ordered
          · simpa [chain, history, carried, Writer.holding] using newest
          · exact fun command member => by simp [Writer.current] at member
          · exact fun ends => by simp at ends
      | none =>
        refine ⟨?_, ?_, numbered, bounded, trivial, ?_, ?_, errors, answered⟩
        · cases isOpen <;> simpa [action, chain, history, carried, Writer.holding] using ordered
        · cases isOpen <;> simpa [action, chain, history, carried, Writer.holding] using newest
        · intro command member
          cases isOpen <;> simp [action, Writer.current] at member
        · intro ends
          cases isOpen with
          | false => exact ⟨rfl, rfl, rfl⟩
          | true => simp [action] at ends

/-- A step outside the lock moves snapshots from what the writer holds to what it has
written, at most. -/
theorem Kept.advance (pending : after.pending = state.pending)
    (enqueued : after.enqueued = state.enqueued) (history : after.history = state.history)
    (current : ∀ command ∈ after.writer.current, command ∈ state.writer.current)
    (ended : after.writer = .acting .close ∨ after.writer = .stopped →
      state.pending.queue = [] ∧ state.pending.Sealed)
    (errors : after.firstError = none → ∀ write ∈ after.written, write.error = none)
    (answered : ∀ answer ∈ after.answers, answer.written <+: after.written ∧
      (answer.written.map Written.snapshot).getLast? = answer.command.newest ∧
      (answer.result = .ok () → ∀ write ∈ answer.written, write.error = none)) :
    after.Kept := by
  constructor
  · simpa only [chain, carried, history, pending, enqueued] using kept.ordered
  · simpa only [chain, carried, history, pending, enqueued] using kept.newest
  · simpa only [enqueued] using kept.numbered
  · simpa only [enqueued, pending] using kept.bounded
  · simpa only [history, pending] using kept.barriers
  · intro command member
    simpa only [history, pending] using kept.current command (current command member)
  · simpa only [pending] using ended
  · exact errors
  · exact answered

theorem Kept.record {snapshot : Option Snapshot} {error : Option String}
    {writer : Writer} {due : Option Nat} (held : state.writer.holding = snapshot.toList)
    (empty : writer.holding = [])
    (current : ∀ command ∈ writer.current, command ∈ state.writer.current)
    (running : writer ≠ .acting .close ∧ writer ≠ .stopped) :
    Kept { state.recordDurableSnapshot snapshot error with writer, dueGeneration := due } := by
  refine kept.advance ?_ ?_ ?_ current (fun ends => absurd ends (not_or.mpr running)) ?_ ?_
  · cases snapshot <;> rfl
  · cases snapshot <;> rfl
  · simp only [history, held, empty, append_nil]
    cases snapshot with
    | none => exact (append_nil _).symm
    | some snapshot => simp [recordDurableSnapshot]
  · intro clean write member
    cases snapshot with
    | none => exact kept.errors clean write member
    | some snapshot =>
      simp only [recordDurableSnapshot] at clean member
      cases earlier : state.firstError with
      | some message => simp [earlier] at clean
      | none =>
        simp only [earlier, Option.isNone_none, if_true] at clean
        rcases mem_append.mp member with member | here
        · exact kept.errors earlier write member
        · rw [mem_singleton.mp here]
          exact clean
  · intro answer member
    cases snapshot with
    | none => exact kept.answered answer member
    | some snapshot =>
      exact (kept.answered answer member).imp_left fun earlier =>
        earlier.trans (prefix_append _ _)

theorem Kept.answer {command : Command} {result : Except String Unit}
    (working : state.writer = .answering command) : (state.answer command result).Kept := by
  have held : state.history = state.written.map Written.snapshot := by
    simp [history, working, Writer.holding]
  have reached := kept.current command (by simp [working, Writer.current])
  have idle : (state.answer command result).writer.holding = [] ∧
      (state.answer command result).writer.current = none := by
    unfold Persistence.answer
    cases command.close <;> exact ⟨rfl, rfl⟩
  refine kept.advance rfl rfl ?_ ?_ ?_ kept.errors ?_
  · rw [held, history, idle.1, append_nil]
    rfl
  · intro other member
    rw [idle.2] at member
    contradiction
  · intro ends
    cases close : command.close with
    | true => exact reached.2 close
    | false => simp [Persistence.answer, close] at ends
  · intro answer member
    rcases mem_append.mp member with member | here
    · exact kept.answered answer member
    · rw [mem_singleton.mp here]
      refine ⟨prefix_rfl, held ▸ reached.1, fun accepted => kept.errors ?_⟩
      cases failed : state.firstError with
      | none => rfl
      | some error => simp [failed] at accepted

theorem Kept.resume {due : Option Nat} {action : Action}
    (waiting : state.writer = .acting action) (idle : (Writer.acting action).holding = []) :
    Kept { state with writer := .choosing, dueGeneration := due } := by
  refine kept.advance rfl rfl ?_ ?_ ?_ kept.errors kept.answered
  · simp only [history, waiting, idle]
    rfl
  · exact fun command member => by simp [Writer.current] at member
  · exact fun ends => by simp at ends

theorem Kept.closed (closing : state.writer = .acting .close) :
    Kept { state with writer := .stopped } := by
  refine kept.advance rfl rfl ?_ ?_ ?_ kept.errors kept.answered
  · simp only [history, closing, Writer.holding]
  · exact fun command member => by simp [Writer.current] at member
  · exact fun _ => kept.ended (.inl closing)

theorem Kept.perform (event : Event) : (state.perform event).Kept := by
  cases event with
  | enqueue text =>
    simp only [Persistence.perform]
    cases done : state.enqueue text with
    | error message => exact kept
    | ok after => exact kept.enqueue done
  | request close =>
    simp only [Persistence.perform]
    cases done : state.request close with
    | error message => exact kept
    | ok after => exact kept.request done
  | drop => exact kept.drop
  | choose => exact kept.choose
  | record error =>
    simp only [Persistence.perform]
    split
    · rename_i command working
      have held : state.writer.holding = command.snapshot.toList := by rw [working]; rfl
      refine kept.record held rfl ?_ (by simp)
      simp [working, Writer.current]
    · rename_i snapshot working
      have held : state.writer.holding = (some snapshot).toList := by rw [working]; rfl
      exact kept.record held rfl (by simp [Writer.current]) (by simp)
    · exact kept
  | answer result =>
    simp only [Persistence.perform]
    split
    · exact kept.answer ‹_›
    · exact kept
  | debounced timedOut =>
    simp only [Persistence.perform]
    split
    · exact kept.resume ‹_› rfl
    · exact kept
  | woken =>
    simp only [Persistence.perform]
    split
    · exact kept.resume ‹_› rfl
    · exact kept
  | closed =>
    simp only [Persistence.perform]
    split
    · exact kept.closed ‹_›
    · exact kept

end

/-- Snapshots are written in the order of their enqueueing, none twice. A command
answered with success found the newest snapshot of its time written last, and no write
failed; a writer that has stopped has written the last snapshot. -/
theorem reached_barrier
    (run : Reachable (fun s => s = {}) (fun s event t => s.perform event = t) state) :
    (state.written.map Written.snapshot).Sublist state.enqueued ∧
      (state.enqueued.Pairwise fun earlier later => earlier.number < later.number) ∧
      (∀ answer ∈ state.answers, answer.result = .ok () →
        answer.written <+: state.written ∧
          (answer.written.map Written.snapshot).getLast? = answer.command.newest ∧
          ∀ write ∈ answer.written, write.error = none) ∧
      (state.writer = .stopped →
        (state.written.map Written.snapshot).getLast? = state.enqueued.getLast?) := by
  have kept : state.Kept := by
    refine run.invariant ?_ ?_
    · rintro _ rfl
      exact kept_start
    · rintro before event _ - kept rfl
      exact kept.perform event
  have written : (state.written.map Written.snapshot).Sublist state.chain := by
    rw [chain, history, append_assoc, append_assoc]
    exact sublist_append_left _ _
  refine ⟨written.trans kept.ordered, kept.numbered, fun answer member accepted => ?_, ?_⟩
  · obtain ⟨earlier, newest, clean⟩ := kept.answered answer member
    exact ⟨earlier, newest, clean accepted⟩
  · intro stopped
    obtain ⟨empty, -, nothing⟩ := kept.ended (.inr stopped)
    rw [← kept.newest]
    simp [chain, history, carried, stopped, Writer.holding, empty, nothing]

/-- A flush overtakes the debounce of the first snapshot; the last one is written when
its owner goes. -/
def flushed : Persistence :=
  [.enqueue "a", .choose, .enqueue "b", .request false, .debounced false, .choose, .record none,
    .answer (.ok ()), .enqueue "c", .drop, .choose, .record none, .choose, .closed].foldl perform {}

theorem reached_barrier_flushed : flushed.writer = .stopped ∧
    flushed.written.map (·.snapshot.number) = [2, 3] ∧ flushed.answers.length = 1 ∧
    (flushed.written.map Written.snapshot).Sublist flushed.enqueued ∧
    (∀ answer ∈ flushed.answers,
      (answer.written.map Written.snapshot).getLast? = answer.command.newest) ∧
    (flushed.written.map Written.snapshot).getLast? = flushed.enqueued.getLast? := by
  have run : Reachable (fun s => s = {}) (fun s event t => s.perform event = t) flushed :=
    Reachable.run _ (.start rfl)
  obtain ⟨ordered, -, answered, last⟩ := reached_barrier run
  refine ⟨rfl, rfl, rfl, ordered, fun answer member => ?_, last rfl⟩
  refine (answered answer member ?_).2.1
  rw [mem_singleton.mp member]
  rfl

end Persistence
end Chuzz.Cookies
