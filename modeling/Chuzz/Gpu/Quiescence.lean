import Chuzz.Gpu.Orphans
import Chuzz.Gpu.Ownership
import Chuzz.Gpu.Worker

/-! A bridge can always settle: without a new request, whatever waits is answered. No thread is ever
stuck, and a pass over the requests that are too late misses none. -/
namespace Chuzz.Gpu
open Std Library.Threads Library.Transition List

/-- How many sections a completion has at most. -/
def Completion.steps : Completion → Nat
  | .start .. => 6
  | .taken .. => 5
  | .cleaning .. => 4
  | .judged .. => 3
  | .reporting .. => 2
  | .posting .. => 1

def Next.steps : Next → Nat
  | .polling _ => 1
  | .expiring ids => 7 * ids.length + 1
  | .ended => 0

/-- How many sections a thread has at most. Each request of the queue brings those of `picked`. -/
def Thread.steps : Thread → Nat
  | .polling => 1
  | .picked _ => 11
  | .executing _ => 10
  | .commanding .. => 9
  | .finishing .. => 8
  | .spawned _ => 9
  | .opening _ => 8
  | .waiting _ => 7
  | .expiring ids => 7 * ids.length + 1
  | .completing completion next => completion.steps + next.steps
  | .ended => 0

@[simp] theorem Next.steps_thread (next : Next) : next.thread.steps = next.steps := by
  cases next <;> rfl

variable {state after : State}

theorem Completes.steps {next : Next} {completion : Completion} {thread : Thread}
    (completes : Completes state next completion after thread) :
    thread.steps < completion.steps + next.steps ∧ after.requests = state.requests := by
  cases completes with
  | gone | capture | success | report | post =>
    exact ⟨by simp [Completion.steps], rfl⟩
  | _ => exact ⟨by simp [Thread.steps, Completion.steps], rfl⟩

/-- Every section is one less, but that native code can raise errors as often as it likes. -/
theorem Moves.steps {thread moved : Thread} (moves : Moves state thread after moved) :
    moved.steps + 11 * after.requests.length < thread.steps + 11 * state.requests.length ∨
      ∃ request address, thread = .commanding request address ∧ moved = thread := by
  cases moves with
  | raise => exact .inr ⟨_, _, rfl, rfl⟩
  | complete completes =>
    obtain ⟨fewer, requests⟩ := completes.steps
    rw [requests]
    exact .inl (Nat.add_lt_add_right fewer _)
  | pick next =>
    simp only [next, Thread.steps, length_cons]
    omega
  | skip | refuse =>
    left
    simp [Thread.steps, Completion.steps, Next.steps]
  | expire =>
    left
    simp only [Thread.steps, Completion.steps, Next.steps, length_cons]
    omega
  | _ =>
    left
    simp_all [Thread.steps, Completion.steps, Next.steps, State.finishSlot, State.onConnection]

theorem advanceExecution_possible {state : State} {request : Request} (other : ¬ request.startup) :
    ∃ choice, (advanceExecution state request choice).isSome := by
  obtain ⟨place, id, body⟩ := request
  cases body with
  | adapter | device => exact absurd rfl other
  | command device command fire =>
    by_cases image : device = 0
    · exact ⟨.cut {}, by simp [advanceExecution, image]⟩
    · refine ⟨.proceed, ?_⟩
      simp only [advanceExecution, image, if_false]
      split <;> rfl
  | readback | capture => exact ⟨.cut {}, rfl⟩
  | bufferCapture => exact ⟨.answer (.ok (.value .null)), rfl⟩

theorem advance_fewer {state : State} {thread : Thread} (attested : thread.Attested state.issued)
    (addressed : thread.Addressed state.addresses) (going : thread ≠ .ended) :
    ∃ choice after moved, advance state choice thread = some (after, moved) ∧
      moved.steps + 11 * after.requests.length < thread.steps + 11 * state.requests.length := by
  by_cases commands : ∃ request address, thread = .commanding request address
  · obtain ⟨request, address, rfl⟩ := commands
    obtain ⟨known, target, command, fire, asks⟩ := addressed
    have found : state.connections[address]? = some state.connections[address] :=
      getElem?_eq_getElem known
    have ran : advanceCommand state request address (.run .working) = some
        (state.onConnection address (·.execute .working request command), .finishing request
          (resultOf (execute .working command) (state.connections[address].connection))) := by
      simp [advanceCommand, asks, found]
    refine ⟨.run .working, _, _, ran, ?_⟩
    simp [Thread.steps, State.onConnection]
  · have possible : ∃ choice, (advance state choice thread).isSome := by
      cases thread with
      | polling | picked | spawned | opening =>
        refine ⟨.proceed, ?_⟩
        rw [advance]
        split <;> rfl
      | executing request => exact advanceExecution_possible attested.2
      | commanding => exact absurd ⟨_, _, rfl⟩ commands
      | finishing request result => exact ⟨.proceed, by cases result <;> rfl⟩
      | waiting request => exact ⟨.cut {}, rfl⟩
      | expiring ids => exact ⟨.proceed, by cases ids <;> rfl⟩
      | completing => exact ⟨.proceed, rfl⟩
      | ended => exact absurd rfl going
    obtain ⟨choice, possible⟩ := possible
    obtain ⟨⟨after, moved⟩, advanced⟩ := Option.isSome_iff_exists.mp possible
    refine ⟨choice, after, moved, advanced, (advance_moves advanced).steps.resolve_right ?_⟩
    rintro ⟨request, address, rfl, _⟩
    exact commands ⟨request, address, rfl⟩

namespace Bridge

def steps (self : Bridge) : Nat := total Thread.steps self.threads + 11 * self.state.requests.length

def Label.asks : Label → Bool
  | .handle .. | .submit .. => true
  | _ => false

/-- A run in which nobody asks for anything. -/
def Continues (before after : Bridge) : Prop :=
  ∃ labels : List Label, (∀ label ∈ labels, label.asks = false) ∧ labels.foldl perform before = after

namespace Continues
variable {first second third : Bridge}

theorem refl : Continues first first := ⟨[], forall_mem_nil _, rfl⟩

theorem step {label : Label} (quiet : label.asks = false) : Continues first (first.perform label) :=
  ⟨[label], forall_mem_singleton.mpr quiet, rfl⟩

theorem trans (former : Continues first second) (latter : Continues second third) :
    Continues first third := by
  obtain ⟨labels, quiet, rfl⟩ := former
  obtain ⟨more, quiet', rfl⟩ := latter
  exact ⟨labels ++ more, forall_mem_append.mpr ⟨quiet, quiet'⟩, foldl_append⟩

theorem reached (continues : Continues first second) (reached : Reached first) : Reached second := by
  obtain ⟨labels, -, rfl⟩ := continues
  exact Reachable.run labels reached

end Continues

/-- With no request of anyone's, the threads come to their ends. What every section keeps is kept. -/
theorem runs_out {P : Bridge → Prop}
    (keeps : ∀ before k thread state moved, P before → before.threads[k]? = some thread →
      Moves before.state thread state moved → P (before.moved k state moved))
    {bridge : Bridge} (reached : Reached bridge) (holds : P bridge) :
    ∃ after, Continues bridge after ∧ P after ∧ (∀ thread ∈ after.threads, thread = .ended) ∧
      after.state.incoming = bridge.state.incoming := by
  generalize least : bridge.steps = n
  induction n using Nat.strong_induction_on generalizing bridge with
  | _ n ih =>
    by_cases finished : ∀ thread ∈ bridge.threads, thread = .ended
    · exact ⟨bridge, .refl, holds, finished, rfl⟩
    · simp only [not_forall] at finished
      obtain ⟨thread, member, going⟩ := finished
      obtain ⟨k, at_k⟩ := mem_iff_getElem?.mp member
      obtain ⟨choice, state, moved, advanced, fewer⟩ := advance_fewer
        (reached.sound.attested.threads thread member) (reached.addressed.threads thread member) going
      have performed : bridge.perform (.advance k choice) = bridge.moved k state moved := by
        simp [perform, at_k, advanced, Bridge.moved]
      have moves := advance_moves advanced
      have counted := total_set Thread.steps moved at_k
      have lighter : (bridge.moved k state moved).steps < n := by
        change total Thread.steps (bridge.threads.set k moved) + 11 * state.requests.length < n
        unfold steps at least
        omega
      have next : Reached (bridge.moved k state moved) := reached.next performed
      have held := keeps bridge k thread state moved holds at_k moves
      obtain ⟨after, continues, kept, ended, incoming⟩ := ih _ lighter next held rfl
      have first : Continues bridge (bridge.moved k state moved) := performed ▸ .step rfl
      exact ⟨after, first.trans continues, kept, ended, incoming.trans (moves.opens 0).2.2⟩

end Bridge

/-- Whether a thread is about to take the flight of an id. -/
def Thread.covers (key : Nat) : Thread → Prop
  | .expiring ids => key ∈ ids
  | .completing (.start id _) next => id = key ∨ key ∈ next.ids
  | .completing _ next => key ∈ next.ids
  | _ => False

theorem Next.covers_thread {next : Next} {key : Nat} (member : key ∈ next.ids) :
    next.thread.covers key := by
  cases next with
  | expiring => exact member
  | polling | ended => contradiction

theorem Completes.covers {next : Next} {completion : Completion} {thread : Thread}
    (completes : Completes state next completion after thread) {key : Nat} {flight : Flight}
    (still : after.inFlight[key]? = some flight)
    (covers : (Thread.completing completion next).covers key) : thread.covers key := by
  cases completes with
  | gone absent =>
    refine Next.covers_thread (covers.resolve_left ?_)
    rintro rfl
    exact absurd (absent.symm.trans still) nofun
  | take =>
    refine covers.resolve_left ?_
    rintro rfl
    simp at still
  | capture | success | report | post => exact Next.covers_thread covers
  | _ => exact covers

theorem Moves.covers {thread moved : Thread} (moves : Moves state thread after moved) {key : Nat}
    {flight : Flight} (still : after.inFlight[key]? = some flight) (covers : thread.covers key) :
    moved.covers key := by
  cases moves with
  | complete completes => exact completes.covers still covers
  | expire => exact (mem_cons.mp covers).imp_left Eq.symm
  | expired => contradiction
  | _ => contradiction

namespace Bridge

/-- All that is in flight is about to be taken. -/
def Covered (bridge : Bridge) : Prop :=
  ∀ (key : Nat) (flight : Flight), bridge.state.inFlight[key]? = some flight →
    ∃ thread ∈ bridge.threads, thread.covers key

variable {bridge : Bridge}

theorem Covered.moved (covered : bridge.Covered) {k : Nat} {state : State} {thread moved : Thread}
    (at_k : bridge.threads[k]? = some thread) (moves : Moves bridge.state thread state moved) :
    (bridge.moved k state moved).Covered := by
  intro key flight still
  obtain ⟨other, member, covers⟩ := covered key flight (moves.flights.2 key flight still)
  rcases mem_set moved member at_k with rfl | member
  · have inside := (List.getElem?_eq_some_iff.mp at_k).choose
    exact ⟨moved, mem_set inside moved, moves.covers still covers⟩
  · exact ⟨other, member, covers⟩

theorem prepares (bridge : Bridge) :
    ∃ after, Continues bridge after ∧ after.state.incoming = [] := by
  generalize waiting : bridge.state.incoming = incoming
  induction incoming generalizing bridge with
  | nil => exact ⟨bridge, .refl, waiting⟩
  | cons request rest ih =>
    have entered := enqueue_enters
      { bridge with state := { bridge.state with incoming := rest } } request false
    have performed : bridge.perform (.prepare false) = enqueue
        { bridge with state := { bridge.state with incoming := rest } } request false := by
      simp only [perform, waiting]
    obtain ⟨after, continues, empty⟩ := ih _ (entered.opens 0).2.1
    rw [← performed] at continues
    exact ⟨after, .trans (.step rfl) continues, empty⟩

/-- Nothing is left to be done. -/
structure Quiet (bridge : Bridge) : Prop where
  incoming : bridge.state.incoming = []
  requests : bridge.state.requests = []
  inFlight : ∀ key, key ∉ bridge.state.inFlight
  threads : ∀ thread ∈ bridge.threads, thread = .ended

/-- Once all its threads are at their ends, a bridge has no worker that anything could wait for. -/
theorem Reached.idle (reached : Reached bridge)
    (ended : ∀ thread ∈ bridge.threads, thread = .ended) : bridge.state.requests = [] := by
  obtain ⟨worker, waiting⟩ := reached.staffed
  have none : total Thread.works bridge.threads = 0 :=
    total_eq_zero fun thread member => ended thread member ▸ rfl
  by_contra some
  rw [none, if_pos (waiting some)] at worker
  contradiction

theorem elapsed (bridge : Bridge) : ∃ duration, ∀ (key : Nat) (flight : Flight),
    bridge.state.inFlight[key]? = some flight →
      ¬ flight.live (bridge.state.now + duration) := by
  refine ⟨total (fun entry => entry.2.deadline) bridge.state.inFlight.toList,
    fun key flight found live => ?_⟩
  have least := le_total (fun entry : Nat × Flight => entry.2.deadline)
    (ExtTreeMap.mem_toList_iff_getElem?_eq_some.mpr found)
  simp only [Flight.live, decide_eq_true_eq] at live least
  omega

/-- A pass finished a bridge where everything is too late covers everything. -/
theorem covered_of_late
    (late : ∀ (key : Nat) (flight : Flight), bridge.state.inFlight[key]? = some flight →
      ¬ flight.live bridge.state.now) :
    (bridge.perform (.expire (expired bridge.state))).Covered := by
  have performed : bridge.perform (.expire (expired bridge.state)) =
      { bridge with threads := bridge.threads ++ [.expiring (expired bridge.state)] } :=
    if_pos (isPerm_iff.mpr (.refl _))
  rw [performed]
  refine fun key flight found => ⟨_, mem_append_right _ (.head _), ?_⟩
  refine mem_map.mpr ⟨(key, flight), mem_filter.mpr ⟨?_, ?_⟩, rfl⟩
  · exact ExtTreeMap.mem_toList_iff_getElem?_eq_some.mpr found
  · simpa using late key flight found

theorem expire_incoming (bridge : Bridge) (order : List Nat) :
    (bridge.perform (.expire order)).state.incoming = bridge.state.incoming := by
  rw [perform]
  split <;> rfl

/-- Without a new request, a run can go on until nothing is left to be done. -/
theorem settles (reached : Reached bridge) : ∃ after, Continues bridge after ∧ after.Quiet := by
  obtain ⟨prepared, continues, empty⟩ := prepares bridge
  obtain ⟨worked, continues', -, -, incoming⟩ := runs_out (P := fun _ => True)
    (fun _ _ _ _ _ _ _ _ => trivial) (continues.reached reached) trivial
  obtain ⟨duration, late⟩ := elapsed worked
  have covered := @covered_of_late (worked.perform (.elapse duration)) late
  generalize label : Label.expire _ = pass at covered
  have waits : Continues worked ((worked.perform (.elapse duration)).perform pass) :=
    .trans (.step rfl) (.step (label ▸ rfl))
  have same : ((worked.perform (.elapse duration)).perform pass).state.incoming =
      worked.state.incoming := by
    subst label
    exact expire_incoming (worked.perform (.elapse duration)) _
  have continues := (continues.trans continues').trans waits
  obtain ⟨after, continues'', covered, ended, incoming'⟩ := runs_out
    (fun _ _ _ _ _ covered at_k moves => Covered.moved covered at_k moves)
    (continues.reached reached) covered
  have last := continues.trans continues''
  refine ⟨after, last, ?_, (last.reached reached).idle ended, fun key flying => ?_, ended⟩
  · exact ((incoming'.trans same).trans incoming).trans empty
  · obtain ⟨flight, found⟩ := Option.isSome_iff_exists.mp (ExtTreeMap.mem_iff_isSome_getElem?.mp flying)
    obtain ⟨thread, member, covers⟩ := covered key flight found
    rw [ended thread member] at covers
    exact covers

end Bridge
end Chuzz.Gpu
