import Chuzz.Gpu.Replies

/-! There is one worker while anything waits for it. -/
namespace Chuzz.Gpu
open Std Library.Threads

def Next.works : Next → Nat
  | .polling _ => 1
  | _ => 0

def Thread.works : Thread → Nat
  | .polling | .picked _ | .executing _ | .commanding .. | .finishing .. => 1
  | .completing _ next => next.works
  | _ => 0

@[simp] theorem Next.works_thread (next : Next) : next.thread.works = next.works := by
  cases next <;> rfl

namespace Bridge

structure Staffed (bridge : Bridge) : Prop where
  worker : total Thread.works bridge.threads = if bridge.state.running then 1 else 0
  waiting : bridge.state.requests ≠ [] → bridge.state.running

end Bridge

@[simp] theorem State.reject_requests (state : State) (request : Request) (error : GpuError) :
    (state.reject request error).requests = state.requests ∧
      (state.reject request error).running = state.running := by
  unfold reject
  split <;> exact ⟨rfl, rfl⟩

theorem Moves.works {state after : State} {thread moved : Thread}
    (moves : Moves state thread after moved) :
    after.running = state.running ∧ moved.works = thread.works ∧
        (∃ taken, state.requests = taken ++ after.requests) ∨
      thread = .polling ∧ moved = .ended ∧ after = { state with running := false } ∧
        state.requests = [] := by
  cases moves with
  | rest empty => exact .inr ⟨rfl, rfl, rfl, empty⟩
  | pick next => exact .inl ⟨rfl, rfl, [_], next⟩
  | skip | refuse => exact .inl ⟨by simp, rfl, [], by simp⟩
  | complete completes =>
    cases completes with
    | gone | capture | success | report | post =>
      rw [Next.works_thread]
      exact .inl ⟨rfl, rfl, [], rfl⟩
    | _ => exact .inl ⟨rfl, rfl, [], rfl⟩
  | _ => exact .inl ⟨rfl, rfl, [], rfl⟩

variable {before after : Bridge}

theorem Enters.staffed {request : Request} (enters : Enters before request after)
    (staffed : before.Staffed) : after.Staffed := by
  obtain ⟨worker, waiting⟩ := staffed
  cases enters with
  | busy => exact ⟨worker, waiting⟩
  | refused | uncaptured =>
    obtain ⟨requests, running⟩ := before.state.reject_requests request Bridge.limitReached
    constructor
    · change _ = if (before.state.reject _ _).running then 1 else 0
      rwa [running]
    · change (before.state.reject _ _).requests ≠ [] → (before.state.reject _ _).running
      rwa [requests, running]
  | spawn =>
    refine ⟨?_, waiting⟩
    rw [total_append]
    exact worker
  | queue _ _ _ _ running => exact ⟨worker, fun _ => running⟩
  | awaken _ _ _ _ idle =>
    rw [if_neg idle] at worker
    refine ⟨?_, fun _ => rfl⟩
    rw [total_append, worker]
    rfl

theorem Turns.staffed (turns : Turns before after) (staffed : before.Staffed) : after.Staffed := by
  obtain ⟨worker, waiting⟩ := staffed
  cases turns with
  | idle | elapse | drain | take | lose | refuse | arrive => exact ⟨worker, waiting⟩
  | prepare _ enters | submit _ _ enters => exact enters.staffed ⟨worker, waiting⟩
  | expire =>
    refine ⟨?_, waiting⟩
    rw [total_append]
    exact worker
  | @move k thread state thread' at_k moves =>
    have counted := total_set Thread.works thread' at_k
    rcases moves.works with ⟨running, works, taken, rest⟩ | ⟨rfl, rfl, rfl, empty⟩
    · constructor
      · dsimp only
        rw [running]
        omega
      · intro some
        refine running ▸ waiting fun none => some ?_
        rw [rest] at none
        exact (List.append_eq_nil_iff.mp none).2
    · refine ⟨?_, fun some => absurd empty some⟩
      change total Thread.works (before.threads.set k .ended) = 0
      change _ + 1 = _ + 0 at counted
      split at worker <;> omega

theorem Bridge.Reached.staffed {bridge : Bridge} (reached : Bridge.Reached bridge) :
    bridge.Staffed :=
  reached.invariant ⟨rfl, nofun⟩ fun _ _ staffed turns => turns.staffed staffed

/-- Connections stay where they are. -/
def State.addresses (self : State) : Nat := self.connections.length

def Completion.Addressed (count : Nat) : Completion → Prop
  | .reporting _ _ _ address => address < count
  | _ => True

/-- What a thread works on is there. -/
def Thread.Addressed (count : Nat) : Thread → Prop
  | .commanding request address =>
    address < count ∧ ∃ target command fire, request.body = .command target command fire
  | .completing completion _ => completion.Addressed count
  | _ => True

structure Bridge.Addressed (bridge : Bridge) : Prop where
  devices : ∀ (key address : Nat), bridge.state.devices[key]? = some address →
    address < bridge.state.addresses
  threads : ∀ thread ∈ bridge.threads, thread.Addressed bridge.state.addresses

@[simp] theorem Next.addressed_thread (next : Next) (count : Nat) :
    next.thread.Addressed count := by
  cases next <;> trivial

theorem Thread.Addressed.mono {count more : Nat} {thread : Thread} (addressed : thread.Addressed count)
    (le : count ≤ more) : thread.Addressed more := by
  cases thread with
  | commanding => exact ⟨addressed.1.trans_le le, addressed.2⟩
  | completing completion =>
    cases completion with
    | reporting => exact Nat.lt_of_lt_of_le addressed le
    | _ => trivial
  | _ => trivial

@[simp] theorem State.reject_addresses (state : State) (request : Request) (error : GpuError) :
    (state.reject request error).addresses = state.addresses ∧
      (state.reject request error).devices = state.devices := by
  unfold reject
  split <;> exact ⟨rfl, rfl⟩

@[simp] theorem State.onConnection_addresses (state : State) (address : Nat)
    (update : Tracked → Tracked) : (state.onConnection address update).addresses = state.addresses := by
  simp [addresses, onConnection]

theorem Completes.addressed {state after : State} {next : Next} {completion : Completion}
    {thread : Thread} (completes : Completes state next completion after thread)
    (devices : ∀ (key address : Nat), state.devices[key]? = some address → address < state.addresses)
    (held : completion.Addressed state.addresses) :
    state.addresses = after.addresses ∧
      (∀ (key address : Nat), after.devices[key]? = some address → address < after.addresses) ∧
      thread.Addressed after.addresses := by
  cases completes with
  | gone | capture | success | post => exact ⟨rfl, devices, by simp⟩
  | take | inTime | cleanUp | tooLate | answer | fail => exact ⟨rfl, devices, trivial⟩
  | clean =>
    refine ⟨rfl, fun key address found => ?_, trivial⟩
    rw [ExtTreeMap.getElem?_erase] at found
    split at found
    · contradiction
    · exact devices key address found
  | blame _ found =>
    obtain ⟨device, _, found⟩ := Option.bind_eq_some_iff.mp found
    exact ⟨rfl, devices, devices device _ found⟩
  | report =>
    refine ⟨(state.onConnection_addresses _ _).symm, ?_, by simp⟩
    change ∀ (key address : Nat), state.devices[key]? = _ →
      address < (state.onConnection _ _).addresses
    rwa [state.onConnection_addresses]
  | reportReply =>
    refine ⟨(state.onConnection_addresses _ _).symm, ?_, trivial⟩
    change ∀ (key address : Nat), state.devices[key]? = _ →
      address < (state.onConnection _ _).addresses
    rwa [state.onConnection_addresses]

theorem Moves.addressed {state after : State} {thread moved : Thread}
    (moves : Moves state thread after moved)
    (devices : ∀ (key address : Nat), state.devices[key]? = some address → address < state.addresses)
    (held : thread.Addressed state.addresses) :
    state.addresses ≤ after.addresses ∧
      (∀ (key address : Nat), after.devices[key]? = some address → address < after.addresses) ∧
      moved.Addressed after.addresses := by
  cases moves with
  | complete completes =>
    obtain ⟨same, after⟩ := completes.addressed devices held
    exact ⟨same.le, after⟩
  | skip | refuse =>
    rw [(state.reject_addresses _ _).1, (state.reject_addresses _ _).2]
    exact ⟨le_rfl, devices, trivial⟩
  | find asks found => exact ⟨le_rfl, devices, devices _ _ found, _, _, _, asks⟩
  | raise | cutCommand | run =>
    refine ⟨(state.onConnection_addresses _ _).ge, ?_, ?_⟩
    · rw [state.onConnection_addresses]
      exact devices
    · rw [state.onConnection_addresses]
      first | exact held | trivial
  | @insertDevice request =>
    have more : state.addresses ≤ (state.connections ++ [({} : Tracked)]).length := by
      simp [State.addresses]
    refine ⟨more, fun key address found => ?_, trivial⟩
    change address < (state.connections ++ [({} : Tracked)]).length
    rw [ExtTreeMap.getElem?_insert] at found
    split at found
    · cases found
      simp
    · exact (devices key address found).trans_le more
  | _ => exact ⟨le_rfl, devices, trivial⟩

theorem Enters.addressed {request : Request} (enters : Enters before request after)
    (addressed : before.Addressed) : after.Addressed := by
  obtain ⟨devices, threads⟩ := addressed
  cases enters with
  | busy | queue => exact ⟨devices, threads⟩
  | refused | uncaptured =>
    obtain ⟨count, same⟩ := before.state.reject_addresses request Bridge.limitReached
    constructor
    · change ∀ (key address : Nat), (before.state.reject _ _).devices[key]? = _ →
        address < (before.state.reject _ _).addresses
      rwa [count, same]
    · change ∀ thread ∈ before.threads, thread.Addressed (before.state.reject _ _).addresses
      rwa [count]
  | spawn | awaken => exact ⟨devices, forall_concat threads trivial⟩

theorem Turns.addressed (turns : Turns before after) (addressed : before.Addressed) :
    after.Addressed := by
  obtain ⟨devices, threads⟩ := addressed
  cases turns with
  | idle | elapse | drain | take | refuse | arrive => exact ⟨devices, threads⟩
  | prepare _ enters | submit _ _ enters => exact enters.addressed ⟨devices, threads⟩
  | expire => exact ⟨devices, forall_concat threads trivial⟩
  | lose =>
    constructor
    · dsimp only
      rw [State.onConnection_addresses]
      exact devices
    · dsimp only
      rw [State.onConnection_addresses]
      exact threads
  | move at_k moves =>
    obtain ⟨more, devices, moved⟩ := moves.addressed devices (threads _ (List.mem_of_getElem? at_k))
    exact ⟨devices, forall_set (fun thread member => (threads thread member).mono more) moved⟩

theorem Bridge.Reached.addressed {bridge : Bridge} (reached : Bridge.Reached bridge) :
    bridge.Addressed :=
  reached.invariant ⟨by simp [new], by simp [new]⟩ fun _ _ addressed turns => turns.addressed addressed

end Chuzz.Gpu
