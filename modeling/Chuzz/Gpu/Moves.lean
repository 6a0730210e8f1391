import Chuzz.Gpu.Host
import Chuzz.Library.Threads

/-! What the threads of a bridge can do, case by case. -/
namespace Chuzz.Gpu
open Std Library.Throwing

/-- The sections of `complete_request`. -/
inductive Completes (state : State) (next : Next) : Completion → State → Thread → Prop where
  | gone (absent : state.inFlight[key]? = none) :
    Completes state next (.start key result) state next.thread
  | take (flying : state.inFlight[key]? = some flight) :
    Completes state next (.start key result) { state with inFlight := state.inFlight.erase key }
      (.completing (.taken key flight result) next)
  | inTime (live : flight.live state.now) :
    Completes state next (.taken key flight result) state (.completing (.judged key flight result) next)
  | cleanUp (late : ¬ flight.live state.now) (startup : flight.startup) :
    Completes state next (.taken key flight result) state (.completing (.cleaning key flight) next)
  | tooLate (late : ¬ flight.live state.now) (other : ¬ flight.startup) :
    Completes state next (.taken key flight result) state
      (.completing (.judged key flight (.error timedOut)) next)
  | clean : Completes state next (.cleaning key flight)
      { state with adapters := state.adapters.erase key, devices := state.devices.erase key }
      (.completing (.judged key flight (.error timedOut)) next)
  | capture (silent : ¬ flight.deliversReply) :
    Completes state next (.judged key flight result) (state.close key .capture) next.thread
  | success (replies : flight.deliversReply) (fire : flight.fireDevice.isSome) :
    Completes state next (.judged key flight (.ok value)) (state.close key .success) next.thread
  | answer (replies : flight.deliversReply) (awaited : flight.fireDevice = none) :
    Completes state next (.judged key flight (.ok value)) state
      (.completing (.posting key (.ok value)) next)
  | fail (replies : flight.deliversReply) (nowhere : flight.device.bind (state.devices[·]?) = none) :
    Completes state next (.judged key flight (.error error)) state
      (.completing (.posting key (.error error false flight.fireDevice)) next)
  | blame (replies : flight.deliversReply)
      (found : flight.device.bind (state.devices[·]?) = some address) :
    Completes state next (.judged key flight (.error error))
      { state with failures := state.failures ++ [(flight.place, address, error)] }
      (.completing (.reporting key flight error address) next)
  | report (fire : flight.fireDevice.isSome) :
    Completes state next (.reporting key flight error address)
      ((state.onConnection address (·.report flight.place error)).close key .report) next.thread
  | reportReply (awaited : flight.fireDevice = none) :
    Completes state next (.reporting key flight error address)
      (state.onConnection address (·.report flight.place error))
      (.completing (.posting key (.error error true flight.fireDevice)) next)
  | post : Completes state next (.posting key reply) (state.post key reply) next.thread

theorem advanceCompletion_completes (state : State) (next : Next) (completion : Completion) :
    Completes state next completion (advanceCompletion state next completion).1
      (advanceCompletion state next completion).2 := by
  cases completion with
  | start id result =>
    rw [advanceCompletion]
    split
    · next absent => exact .gone absent
    · next flying => exact .take flying
  | taken id flight result =>
    rw [advanceCompletion]
    split
    · next live => exact .inTime live
    · next late =>
      split
      · next startup => exact .cleanUp late startup
      · next other => exact .tooLate late other
  | cleaning id flight => exact .clean
  | judged id flight result =>
    by_cases replies : flight.deliversReply
    · cases result with
      | ok value =>
        simp only [advanceCompletion, replies, not_true_eq_false, if_false]
        split
        · next fire => exact .success replies fire
        · next awaited => exact .answer replies (Option.not_isSome_iff_eq_none.mp awaited)
      | error error =>
        simp only [advanceCompletion, replies, not_true_eq_false, if_false]
        split
        · next nowhere => exact .fail replies nowhere
        · next found => exact .blame replies found
    · have silent : advanceCompletion state next (.judged id flight result) =
          (state.close id .capture, next.thread) := by simp [advanceCompletion, replies]
      rw [silent]
      exact .capture replies
  | reporting id flight error address =>
    rw [advanceCompletion]
    split
    · next fire => exact .report fire
    · next awaited => exact .reportReply (Option.not_isSome_iff_eq_none.mp awaited)
  | posting id reply => exact .post

/-- The sections of a thread. -/
inductive Moves (state : State) : Thread → State → Thread → Prop where
  | rest (empty : state.requests = []) : Moves state .polling { state with running := false } .ended
  | pick (next : state.requests = request :: rest) :
    Moves state .polling { state with requests := rest } (.picked request)
  | accept (live : state.live request.id) : Moves state (.picked request) state (.executing request)
  | skip (late : ¬ state.live request.id) :
    Moves state (.picked request) (state.reject request timedOut) .polling
  | missing (asks : request.body = .command device command fire) :
    Moves state (.executing request) state
      (.finishing request (.error (.validation "invalid GPUDevice")))
  | find (asks : request.body = .command device command fire)
      (found : state.devices[device]? = some address) :
    Moves state (.executing request) state (.commanding request address)
  | image (asks : request.body = .command 0 command fire) :
    Moves state (.executing request) state (.finishing request result)
  | read (direct : request.direct) :
    Moves state (.executing request) (state.finishSlot request.place result)
      (.finishing request (.ok (.value .null)))
  | cutReadback (asks : request.body = .readback) :
    Moves state (.executing request) state (.finishing request (.error timedOut))
  | cutCapture (asks : request.body = .capture) :
    Moves state (.executing request)
      { state.finishSlot request.place result with cutOff := state.cutOff ++ [request.place] }
      (.finishing request (.error timedOut))
  | raise : Moves state (.commanding request address)
      (state.onConnection address (·.report request.place error)) (.commanding request address)
  | run (asks : request.body = .command target command fire)
      (known : state.connections[address]? = some device) :
    Moves state (.commanding request address)
      (state.onConnection address (·.execute native request command))
      (.finishing request (resultOf (execute native command) device.connection))
  | cutCommand (asks : request.body = .command target command fire) :
    Moves state (.commanding request address)
      (state.onConnection address fun device =>
        { device with connection := { device.connection with resources } })
      (.finishing request (.error timedOut))
  | succeed : Moves state (.finishing request (.ok value)) state
      (.completing (.start request.id (.ok value)) (.polling request))
  | refuse : Moves state (.finishing request (.error error)) (state.reject request error)
      (.completing (.start request.id (.error error)) (.polling request))
  | begin (live : state.live request.id) : Moves state (.spawned request) state (.opening request)
  | forget (late : ¬ state.live request.id) : Moves state (.spawned request) state .ended
  | opened : Moves state (.opening request) state (.waiting request)
  | consume (asks : request.body = .device adapter) (known : adapter ∈ state.adapters) :
    Moves state (.opening request) { state with adapters := state.adapters.erase adapter }
      (.waiting request)
  | unopened : Moves state (.opening request) state
      (.completing (.start request.id (.error error)) .ended)
  | fail : Moves state (.waiting request) state
      (.completing (.start request.id (.error error)) .ended)
  | nothing : Moves state (.waiting request) state
      (.completing (.start request.id (.ok value)) .ended)
  | insertAdapter (asks : request.body = .adapter powerPreference) (live : state.live request.id) :
    Moves state (.waiting request) { state with adapters := state.adapters.insert request.id () }
      (.completing (.start request.id (.ok (.object request.id))) .ended)
  | insertDevice (asks : request.body = .device adapter) (live : state.live request.id) :
    Moves state (.waiting request)
      { state with
        devices := state.devices.insert request.id state.connections.length
        connections := state.connections ++ [{}] }
      (.completing (.start request.id (.ok (.object request.id))) .ended)
  | expired : Moves state (.expiring []) state .ended
  | expire : Moves state (.expiring (key :: ids)) state
      (.completing (.start key (.error timedOut)) (.expiring ids))
  | complete (completes : Completes state next completion after thread) :
    Moves state (.completing completion next) after thread

section
variable {state after : State} {request : Request}

theorem advanceExecution_moves {choice : Choice}
    {thread : Thread} (advances : advanceExecution state request choice = some (after, thread)) :
    Moves state (.executing request) after thread := by
  cases choice with
  | proceed =>
    rw [advanceExecution] at advances
    split at advances
    · next asks =>
      split at advances
      · contradiction
      · split at advances
        · cases advances
          exact .missing asks
        · next found =>
          cases advances
          exact .find asks found
    · contradiction
  | answer result =>
    rw [advanceExecution] at advances
    split at advances
    · next asks =>
      split at advances
      · next image =>
        subst image
        cases advances
        exact .image asks
      · contradiction
    all_goals first
      | contradiction
      | next asks =>
          cases advances
          exact .read (by rw [Request.direct, asks])
  | cut resources =>
    rw [advanceExecution] at advances
    split at advances
    · next asks =>
      split at advances
      · next image =>
        subst image
        cases advances
        exact .image asks
      · contradiction
    · next asks =>
      cases advances
      exact .cutReadback asks
    · next asks =>
      cases advances
      exact .cutCapture asks
    · contradiction
  | _ => contradiction

theorem advanceCommand_moves {address : Nat} {choice : Choice} {thread : Thread}
    (advances : advanceCommand state request address choice = some (after, thread)) :
    Moves state (.commanding request address) after thread := by
  cases choice with
  | raise error =>
    cases advances
    exact .raise
  | run native =>
    rw [advanceCommand] at advances
    split at advances
    · next asks known =>
      cases advances
      exact .run asks known
    · contradiction
  | cut resources =>
    rw [advanceCommand] at advances
    split at advances
    · next asks =>
      split at advances
      · contradiction
      · cases advances
        exact .cutCommand asks
    · contradiction
  | _ => contradiction

theorem openStartup_moves {result : Except GpuError Unit}
    (opens : openStartup state request = (after, result)) :
    Moves state (.opening request) after (match result with
      | .ok () => .waiting request
      | .error error => .completing (.start request.id (.error error)) .ended) := by
  unfold openStartup at opens
  split at opens
  · split at opens
    · cases opens
      exact .unopened
    · split at opens
      · cases opens
        exact .unopened
      · cases opens
        exact .opened
  · next asks =>
    split at opens
    · next known =>
      cases opens
      exact .consume asks known
    · cases opens
      exact .unopened
  · cases opens
    exact .opened

end

theorem insertObject_moves (state : State) (request : Request) :
    Moves state (.waiting request) (insertObject state request).1
      (.completing (.start request.id (insertObject state request).2) .ended) := by
  unfold insertObject
  split
  · next asks =>
    split
    · exact .fail
    · next live =>
      split
      · exact .fail
      · exact .insertAdapter asks (not_not.mp live)
  · next asks =>
    split
    · exact .fail
    · next live =>
      split
      · exact .fail
      · exact .insertDevice asks (not_not.mp live)
  · exact .nothing

theorem advanceStartup_moves {state after : State} {request : Request} {choice : Choice}
    {thread : Thread} (advances : advanceStartup state request choice = some (after, thread)) :
    Moves state (.waiting request) after thread := by
  cases choice with
  | refuse message =>
    cases advances
    exact .fail
  | nothing =>
    rw [advanceStartup] at advances
    split at advances
    · cases advances
      exact .nothing
    · contradiction
  | cut resources =>
    cases advances
    exact .fail
  | insert =>
    cases advances
    exact insertObject_moves state request
  | _ => contradiction

theorem advance_moves {state after : State} {choice : Choice} {thread thread' : Thread}
    (advances : advance state choice thread = some (after, thread')) :
    Moves state thread after thread' := by
  cases thread with
  | polling =>
    rw [advance] at advances
    split at advances
    · next empty =>
      cases advances
      exact .rest empty
    · next waiting =>
      cases advances
      exact .pick waiting
  | picked request =>
    rw [advance] at advances
    split at advances
    · next live =>
      cases advances
      exact .accept live
    · next late =>
      cases advances
      exact .skip late
  | executing request => exact advanceExecution_moves advances
  | commanding request address => exact advanceCommand_moves advances
  | finishing request result =>
    cases result with
    | ok value =>
      cases advances
      exact .succeed
    | error error =>
      cases advances
      exact .refuse
  | spawned request =>
    rw [advance] at advances
    split at advances
    · next live =>
      cases advances
      exact .begin live
    · next late =>
      cases advances
      exact .forget late
  | opening request =>
    rw [advance] at advances
    split at advances
    · next opens =>
      cases advances
      exact openStartup_moves opens
    · next refuses =>
      cases advances
      exact openStartup_moves refuses
  | waiting request => exact advanceStartup_moves advances
  | expiring ids =>
    cases ids with
    | nil =>
      cases advances
      exact .expired
    | cons id ids =>
      cases advances
      exact .expire
  | completing completion next =>
    have completes := advanceCompletion_completes state next completion
    rw [Option.some.inj advances] at completes
    exact .complete completes
  | ended => contradiction

/-- What the flight of a request says of it. -/
structure Flight.Serves (flight : Flight) (request : Request) : Prop where
  place : flight.place = request.place
  device : flight.device = request.errorDevice
  fireDevice : flight.fireDevice = request.fireDevice
  startup : flight.startup = request.startup
  deliversReply : flight.deliversReply = request.deliversReply

/-- How a request is passed on. -/
inductive Enters (before : Bridge) (request : Request) : Bridge → Prop where
  | busy (startup : request.startup) : Enters before request { before with
      state := before.state.post request.id (.error Bridge.startupBusy false none) }
  | refused (replies : request.deliversReply) : Enters before request { before with
      state := (before.state.reject request Bridge.limitReached).post request.id
        (.error Bridge.limitReached false request.fireDevice) }
  | uncaptured (silent : ¬ request.deliversReply) : Enters before request { before with
      state := (before.state.reject request Bridge.limitReached).close request.id .capture }
  | spawn (startup : request.startup) (room : before.state.inFlight.size < requestLimit)
      (new : request.id ∉ before.state.inFlight) (serves : flight.Serves request) :
    Enters before request {
      state := { before.state with inFlight := before.state.inFlight.insert request.id flight }
      threads := before.threads ++ [.spawned request] }
  | queue (other : ¬ request.startup) (room : before.state.inFlight.size < requestLimit)
      (new : request.id ∉ before.state.inFlight) (serves : flight.Serves request)
      (running : before.state.running) :
    Enters before request { before with
      state := { before.state with
        inFlight := before.state.inFlight.insert request.id flight
        requests := before.state.requests ++ [request] } }
  | awaken (other : ¬ request.startup) (room : before.state.inFlight.size < requestLimit)
      (new : request.id ∉ before.state.inFlight) (serves : flight.Serves request)
      (idle : ¬ before.state.running) :
    Enters before request {
      state := { before.state with
        inFlight := before.state.inFlight.insert request.id flight
        requests := before.state.requests ++ [request]
        running := true }
      threads := before.threads ++ [.polling] }

theorem enqueue_enters (self : Bridge) (request : Request) (busy : Bool) :
    Enters self request (self.enqueue request busy) := by
  unfold Bridge.enqueue
  split
  · next refused => exact .busy (Bool.and_eq_true_iff.mp refused).1
  by_cases full : self.state.inFlight.size ≥ requestLimit ∨ request.id ∈ self.state.inFlight
  · rw [if_pos full]
    split
    · next replies => exact .refused replies
    · next silent => exact .uncaptured silent
  · obtain ⟨room, new⟩ := not_or.mp full
    have room := Nat.lt_of_not_le room
    rw [if_neg full]
    split
    · next startup => exact .spawn startup room new ⟨rfl, rfl, rfl, rfl, rfl⟩
    · next other =>
      dsimp only
      split
      · next running => exact .queue other room new ⟨rfl, rfl, rfl, rfl, rfl⟩ running
      · next idle => exact .awaken other room new ⟨rfl, rfl, rfl, rfl, rfl⟩ idle

/-- What can happen to a bridge. -/
inductive Turns (before : Bridge) : Bridge → Prop where
  | idle : Turns before before
  | refuse (page : ¬ request.direct) (placed : request.place = before.state.issued.length) :
    Turns before { before with
      state := (before.state.issue request).post request.id
        (.error error false request.fireDevice) }
  | arrive (page : ¬ request.direct) (placed : request.place = before.state.issued.length) :
    Turns before { before with
      state := { before.state.issue request with
        incoming := before.state.incoming ++ [request] } }
  | prepare (waiting : before.state.incoming = request :: rest)
      (enters : Enters { before with state := { before.state with incoming := rest } } request after) :
    Turns before after
  | submit (direct : request.direct) (placed : request.place = before.state.issued.length)
      (enters : Enters { before with state := before.state.issue request } request after) :
    Turns before after
  | elapse : Turns before { before with
      state := { before.state with now := before.state.now + duration } }
  | expire (order : ids.Perm (Bridge.expired before.state)) :
    Turns before { before with threads := before.threads ++ [.expiring ids] }
  | drain : Turns before { before with state := { before.state with
      delivered := before.state.delivered ++ before.state.ready
      ready := [] } }
  | take : Turns before { before with state := { before.state with
      slots := Function.update before.state.slots place (before.state.slots place).take } }
  | lose : Turns before { before with state := before.state.onConnection address fun device =>
      { device with connection := { device.connection with lost := true } } }
  | move (at_k : before.threads[k]? = some thread) (moves : Moves before.state thread state thread') :
    Turns before { state, threads := before.threads.set k thread' }

theorem perform_turns (self : Bridge) (label : Bridge.Label) : Turns self (self.perform label) := by
  cases label with
  | handle id body claim =>
    rw [Bridge.perform]
    split
    · exact .idle
    · next page =>
      cases claim with
      | some error => exact .refuse page rfl
      | none =>
        simp only [Bridge.handle]
        split
        · exact .refuse page rfl
        · exact .arrive page rfl
  | prepare busy =>
    rw [Bridge.perform]
    split
    · exact .idle
    · next waiting => exact .prepare waiting (enqueue_enters _ _ _)
  | submit id body =>
    rw [Bridge.perform]
    split
    · next direct => exact .submit direct rfl (enqueue_enters _ _ _)
    · exact .idle
  | elapse duration => exact .elapse
  | expire order =>
    rw [Bridge.perform]
    split
    · next order => exact .expire (List.isPerm_iff.mp order)
    · exact .idle
  | drain => exact .drain
  | take place => exact .take
  | lose address => exact .lose
  | advance k choice =>
    rw [Bridge.perform]
    split
    · exact .idle
    · next advances =>
      obtain ⟨thread, at_k, advances⟩ := Option.bind_eq_some_iff.mp advances
      exact .move at_k (advance_moves advances)

theorem Bridge.Reached.invariant {P : Bridge → Prop} {bridge : Bridge} (reached : Bridge.Reached bridge)
    (initial : P Bridge.new) (preserved : ∀ before after, P before → Turns before after → P after) :
    P bridge := by
  refine Library.Transition.Reachable.invariant ?_ ?_ reached
  · rintro _ rfl
    exact initial
  · rintro before label _ _ holds rfl
    exact preserved _ _ holds (perform_turns before label)

end Chuzz.Gpu
