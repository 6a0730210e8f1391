import Chuzz.Gpu.Ledger
import Chuzz.Gpu.Orphans
import Chuzz.Gpu.Worker
import Chuzz.Library.Arrivals

/-! The error scopes of a device. The worker takes the commands in the order of the page, so only a
pass over late requests can report an error out of its place. -/
namespace Chuzz.Gpu
open Std Library.Threads Library.Transition Library.Arrivals List

/-- The place of a command in the order of the page. -/
def Request.commandPlace (self : Request) : Option Nat :=
  match self.body with
  | .command .. => some self.place
  | _ => none

def Next.request : Next → Option Request
  | .polling request => some request
  | _ => none

/-- The request that the worker is at. -/
def Thread.request : Thread → Option Request
  | .picked request | .executing request | .commanding request _ | .finishing request _ => some request
  | .completing _ next => next.request
  | _ => none

def Thread.place (self : Thread) : Option Nat := self.request.bind Request.commandPlace

@[simp] theorem Next.request_thread (next : Next) : next.thread.request = none := by
  cases next <;> rfl

/-- The places of the commands that wait for the worker. -/
def State.line (self : State) : List Nat :=
  (self.requests ++ self.incoming).filterMap Request.commandPlace

/-- The commands come to the worker in the order of the page. -/
structure Bridge.InOrder (bridge : Bridge) : Prop where
  line : bridge.state.line.Pairwise (· < ·)
  within : ∀ place ∈ bridge.state.line, place < bridge.state.issued.length
  ahead : ∀ thread ∈ bridge.threads, ∀ place ∈ thread.place,
    place < bridge.state.issued.length ∧ ∀ later ∈ bridge.state.line, place < later

theorem Moves.request {state after : State} {thread moved : Thread}
    (moves : Moves state thread after moved) :
    (moved.request = none ∨ moved.request = thread.request) ∧ after.requests = state.requests ∨
      ∃ request, state.requests = request :: after.requests ∧ moved = .picked request := by
  cases moves with
  | pick next => exact .inr ⟨_, next, rfl⟩
  | skip => exact .inl ⟨.inl rfl, by simp⟩
  | refuse => exact .inl ⟨.inr rfl, by simp⟩
  | complete completes =>
    cases completes with
    | gone | capture | success | report | post => exact .inl ⟨.inl (Next.request_thread _), rfl⟩
    | _ => exact .inl ⟨.inr rfl, rfl⟩
  | rest | begin | forget | opened | consume | unopened | fail | nothing | insertAdapter
  | insertDevice | expired | expire => exact .inl ⟨.inl rfl, rfl⟩
  | _ => exact .inl ⟨.inr rfl, rfl⟩

variable {before after : Bridge} {request : Request}

theorem Enters.requests (enters : Enters before request after) :
    after.state.requests = before.state.requests ∨
      after.state.requests = before.state.requests ++ [request] := by
  cases enters with
  | refused | uncaptured => exact .inl (before.state.reject_requests request _).1
  | queue | awaken => exact .inr rfl
  | _ => exact .inl rfl

theorem Thread.place_of_idle {thread : Thread} (idle : thread.request = none) :
    thread.place = none := by
  simp [Thread.place, idle]

theorem Thread.request_of_rest {thread : Thread} (rests : thread.works = 0) : thread.request = none := by
  cases thread with
  | completing completion next => cases next <;> first | rfl | contradiction
  | _ => first | rfl | contradiction

theorem Enters.places (enters : Enters before request after) :
    ∀ thread ∈ after.threads, thread ∈ before.threads ∨ thread.place = none := by
  cases enters with
  | spawn | awaken => exact forall_concat (fun _ => .inl) (.inr rfl)
  | _ => exact fun _ => .inl

theorem Request.commandPlace_direct (direct : request.direct) : request.commandPlace = none := by
  unfold Request.direct at direct
  unfold Request.commandPlace
  split at direct <;> simp_all

theorem Request.commandPlace_eq {place : Nat}
    (places : request.commandPlace = some place) : request.place = place := by
  unfold Request.commandPlace at places
  split at places
  · exact Option.some.inj places
  · contradiction

/-- A new command comes last. The worker takes the first. -/
structure Proceeds (before after : Bridge) : Prop where
  line : after.state.line.Sublist before.state.line ∨
    after.state.line = before.state.line ++ [before.state.issued.length] ∧
      after.state.issued.length = before.state.issued.length + 1
  issued : after.state.issued.length = before.state.issued.length ∨
    after.state.issued.length = before.state.issued.length + 1
  threads : ∀ thread ∈ after.threads, ∀ place ∈ thread.place,
    (∃ thread ∈ before.threads, place ∈ thread.place) ∨
      before.state.line = place :: after.state.line

theorem Turns.proceeds (turns : Turns before after) : Proceeds before after := by
  have old : ∀ thread ∈ before.threads, ∀ place ∈ thread.place,
      (∃ thread ∈ before.threads, place ∈ thread.place) ∨
        before.state.line = place :: after.state.line :=
    fun thread member place here => .inl ⟨thread, member, here⟩
  have entered : ∀ {thread : Thread}, thread ∈ before.threads ∨ thread.place = none →
      ∀ place ∈ thread.place, (∃ thread ∈ before.threads, place ∈ thread.place) ∨
        before.state.line = place :: after.state.line := by
    rintro thread (member | none) place here
    · exact old thread member place here
    · rw [none] at here
      contradiction
  cases turns with
  | idle | elapse | drain | take | lose => exact ⟨.inl (.refl _), .inl rfl, old⟩
  | refuse => exact ⟨.inl (.refl _), .inr (by simp [State.post, State.issue]), old⟩
  | @arrive request page placed =>
    have count : (before.state.issue request).issued.length = before.state.issued.length + 1 := by
      simp [State.issue]
    have longer : State.line { before.state.issue request with
        incoming := before.state.incoming ++ [request] } =
          before.state.line ++ request.commandPlace.toList := by
      simp [State.line, State.issue, filterMap_append, filterMap_cons]
      cases request.commandPlace <;> rfl
    refine ⟨?_, .inr count, old⟩
    cases places : request.commandPlace with
    | none => exact .inl (by rw [longer, places]; simp)
    | some place =>
      obtain rfl := Request.commandPlace_eq places
      exact .inr ⟨by rw [longer, places, placed]; rfl, count⟩
  | @prepare request rest _ waiting enters =>
    have incoming := (enters.opens 0).2.1
    refine ⟨.inl ?_, .inl (congrArg List.length (enters.tokens 0).2),
      fun thread member => entered (enters.places thread member)⟩
    unfold State.line
    rw [incoming, waiting]
    refine List.Sublist.filterMap _ ?_
    rcases enters.requests with same | more
    · rw [same]
      exact (sublist_cons_self _ _).append_left _
    · rw [more]
      simp
  | @submit request _ direct placed enters =>
    have incoming := (enters.opens 0).2.1
    have count : (before.state.issue request).issued.length = before.state.issued.length + 1 := by
      simp [State.issue]
    refine ⟨.inl ?_, .inr ((congrArg List.length (enters.tokens 0).2).trans count),
      fun thread member => entered (enters.places thread member)⟩
    unfold State.line
    rw [incoming]
    change (_ ++ before.state.incoming).filterMap _ |>.Sublist _
    rcases enters.requests with same | more
    · rw [same]
      exact .refl _
    · rw [more]
      simp [Request.commandPlace_direct direct, State.issue]
  | expire => exact ⟨.inl (.refl _), .inl rfl, forall_concat old (by intro _ here; contradiction)⟩
  | @move k thread state thread' at_k moves =>
    have member := mem_of_getElem? at_k
    have incoming := (moves.opens 0).2.2
    have issued := congrArg List.length (moves.tokens 0).2
    rcases moves.request with ⟨request, requests⟩ | ⟨request, next, rfl⟩
    · refine ⟨.inl ?_, .inl issued, forall_set old fun place here => .inl ⟨thread, member, ?_⟩⟩
      · simp only [State.line, requests, incoming, List.Sublist.refl]
      · rcases request with none | same
        · rw [Thread.place_of_idle none] at here
          contradiction
        · rwa [Thread.place, same] at here
    · have line : before.state.line = request.commandPlace.toList ++ state.line := by
        simp only [State.line, next, incoming, cons_append, filterMap_cons]
        cases request.commandPlace <;> rfl
      refine ⟨.inl (line ▸ sublist_append_right _ _), .inl issued,
        forall_set old fun place here => .inr ?_⟩
      have here : request.commandPlace = some place := here
      rw [line, here]
      rfl

theorem Turns.inOrder (turns : Turns before after) (inOrder : before.InOrder) : after.InOrder := by
  obtain ⟨line, within, ahead⟩ := inOrder
  obtain ⟨next, issued, threads⟩ := turns.proceeds
  have more : before.state.issued.length ≤ after.state.issued.length := by omega
  have later : ∀ place ∈ after.state.line, place ∈ before.state.line ∨
      place = before.state.issued.length ∧ place < after.state.issued.length := by
    intro place member
    rcases next with fewer | ⟨longer, count⟩
    · exact .inl (fewer.subset member)
    · rw [longer] at member
      refine (mem_append.mp member).imp_right fun last => ?_
      have last := mem_singleton.mp last
      omega
  refine ⟨?_, fun place member => ?_, fun thread member place here => ?_⟩
  · rcases next with fewer | ⟨longer, _⟩
    · exact line.sublist fewer
    · rw [longer, pairwise_append]
      refine ⟨line, pairwise_singleton _ _, fun place member last here => ?_⟩
      exact mem_singleton.mp here ▸ within place member
  · rcases later place member with old | ⟨_, new⟩
    · exact (within place old).trans_le more
    · exact new
  · rcases threads thread member place here with ⟨thread, member, here⟩ | first
    · obtain ⟨inside, ahead⟩ := ahead thread member place here
      refine ⟨inside.trans_le more, fun other member => ?_⟩
      rcases later other member with old | ⟨last, _⟩
      · exact ahead other old
      · exact last ▸ inside
    · rw [first] at line within
      exact ⟨(within place (.head _)).trans_le more, (pairwise_cons.mp line).1⟩

namespace Completion

def id : Completion → Nat
  | .start id _ | .taken id .. | .cleaning id _ | .judged id .. | .reporting id .. | .posting id _ => id

/-- A completion of a pass over late requests. -/
def TimesOut : Completion → Prop
  | .start _ result | .taken _ _ result | .judged _ _ result => result = .error timedOut
  | .reporting _ _ error _ => error = timedOut
  | _ => True

/-- Errors are reported of the commands of a device. -/
def Routed : Completion → Prop
  | .reporting _ flight .. => flight.device.isSome
  | _ => True

end Completion

theorem Completes.keeps {state after : State} {next : Next} {completion : Completion}
    {thread : Thread} (completes : Completes state next completion after thread) :
    thread = next.thread ∨ ∃ completion', thread = .completing completion' next ∧
      completion'.id = completion.id ∧ (completion.TimesOut → completion'.TimesOut) ∧
      completion'.Routed := by
  cases completes with
  | gone | capture | success | report | post => exact .inl rfl
  | take | inTime => exact .inr ⟨_, rfl, rfl, fun late => late, trivial⟩
  | cleanUp => exact .inr ⟨_, rfl, rfl, fun _ => trivial, trivial⟩
  | tooLate | clean => exact .inr ⟨_, rfl, rfl, fun _ => rfl, trivial⟩
  | answer | fail | reportReply => exact .inr ⟨_, rfl, rfl, fun _ => trivial, trivial⟩
  | blame _ found =>
    obtain ⟨device, known, _⟩ := Option.bind_eq_some_iff.mp found
    exact .inr ⟨_, rfl, rfl, fun late => Except.error.inj late, Option.isSome_iff_exists.mpr ⟨device, known⟩⟩

/-- Whose request a thread completes. -/
def Thread.Assigned (issued : List Request) : Thread → Prop
  | .completing completion next => completion.Routed ∧
    match next with
    | .polling request => request ∈ issued ∧ request.id = completion.id
    | .ended => Vouched issued completion.id (·.startup)
    | .expiring _ => completion.TimesOut
  | _ => True

variable {thread moved : Thread}

theorem Moves.assigned {state after : State}
    (moves : Moves state thread after moved) (attested : thread.Attested state.issued)
    (assigned : thread.Assigned state.issued) : moved.Assigned state.issued := by
  cases moves with
  | @complete next completion _ _ completes =>
    rcases completes.keeps with rfl | ⟨completion', rfl, same, late, routed⟩
    · cases next <;> trivial
    · obtain ⟨_, assigned⟩ := assigned
      refine ⟨routed, ?_⟩
      cases next with
      | polling request => exact ⟨assigned.1, assigned.2.trans same.symm⟩
      | ended => exact same ▸ assigned
      | expiring ids => exact late assigned
  | succeed | refuse => exact ⟨trivial, attested.1, rfl⟩
  | unopened | fail | nothing | insertAdapter | insertDevice =>
    exact ⟨trivial, _, attested.1, rfl, attested.2⟩
  | expire => exact ⟨trivial, rfl⟩
  | _ => trivial

theorem Thread.Assigned.mono {issued more : List Request} {thread : Thread}
    (assigned : thread.Assigned issued) : thread.Assigned (issued ++ more) := by
  cases thread with
  | completing completion next =>
    obtain ⟨routed, assigned⟩ := assigned
    refine ⟨routed, ?_⟩
    cases next with
    | polling => exact ⟨mem_append_left _ assigned.1, assigned.2⟩
    | ended => exact Vouched.mono assigned
    | expiring => exact assigned
  | _ => trivial

def Bridge.Assigned (bridge : Bridge) : Prop :=
  ∀ thread ∈ bridge.threads, thread.Assigned bridge.state.issued

theorem Enters.assigned {request : Request} (enters : Enters before request after)
    (assigned : before.Assigned) : after.Assigned := by
  unfold Bridge.Assigned
  rw [(enters.tokens 0).2]
  cases enters with
  | spawn | awaken => exact forall_concat assigned trivial
  | _ => exact assigned

theorem Turns.assigned (turns : Turns before after) (sound : before.Sound)
    (assigned : before.Assigned) : after.Assigned := by
  have more : ∀ request, ∀ thread ∈ before.threads,
      thread.Assigned (before.state.issued ++ [request]) :=
    fun _ thread member => (assigned thread member).mono
  cases turns with
  | idle | elapse | drain | take | lose => exact assigned
  | refuse | arrive => exact more _
  | prepare _ enters => exact enters.assigned assigned
  | submit _ _ enters => exact enters.assigned (more _)
  | expire => exact forall_concat assigned trivial
  | move at_k moves =>
    unfold Bridge.Assigned
    rw [(moves.tokens 0).2]
    have member := mem_of_getElem? at_k
    exact forall_set assigned
      (moves.assigned (sound.attested.threads _ member) (assigned _ member))

/-- What a section of a thread does to the scopes of the devices: the connection, the place of the
command and the touch. -/
def Thread.making (state : State) (choice : Choice) : Thread → List (Nat × Nat × Touch)
  | .commanding request address =>
    match choice with
    | .raise error => [(address, request.place, .report error)]
    | .run native =>
      match request.body, state.connections[address]? with
      | .command _ command _, some device =>
        (touched native command device.connection).map (address, request.place, ·)
      | _, _ => []
    | _ => []
  | .completing (.reporting _ flight error address) _ => [(address, flight.place, .report error)]
  | _ => []

def Bridge.making (self : Bridge) : Label → List (Nat × Nat × Touch)
  | .advance k choice => (self.threads[k]?.map (Thread.making self.state choice)).getD []
  | _ => []

def State.touches (self : State) (address : Nat) : List (Nat × Touch) :=
  (self.connections[address]?.map Tracked.touches).getD []

theorem touches_modify (state : State) (address : Nat) (update : Tracked → Tracked)
    (made : List (Nat × Touch)) (known : address < state.addresses)
    (adds : ∀ device, state.connections[address]? = some device →
      (update device).touches = device.touches ++ made) (other : Nat) :
    (state.onConnection address update).touches other =
      state.touches other ++ if address = other then made else [] := by
  unfold State.touches State.onConnection
  by_cases same : address = other
  · subst same
    have found : state.connections[address]? = some state.connections[address] :=
      getElem?_eq_getElem known
    simp [found, adds _ found]
  · simp [same]

theorem touched_short (native : Native) (command : DeviceCommand) (self : Connection) :
    touched native command self = [] ∨ ∃ touch, touched native command self = [touch] := by
  obtain ⟨handle, op⟩ := command
  cases op with
  | popErrorScope => cases scopes : self.scopes <;> simp [touched, scopes]
  | pushErrorScope filter =>
    simp only [touched]
    split <;> simp
  | resource op =>
    cases op with
    | createShaderModule args =>
      simp only [touched]
      split
      · exact .inl rfl
      · split <;> simp
    | _ => exact .inl rfl
  | _ => exact .inl rfl

/-- Where a thread touches the scopes of a device. -/
structure Touches (bridge : Bridge) (thread : Thread) (after : State) (address place : Nat)
    (touch : Touch) : Prop where
  touches : ∀ other, after.touches other =
    bridge.state.touches other ++ if address = other then [(place, touch)] else []
  line : after.line = bridge.state.line
  here : (∃ request, thread = .commanding request address ∧ request.place = place) ∨
    ∃ id flight error next, thread = .completing (.reporting id flight error address) next ∧
      flight.place = place ∧ touch = .report error

theorem Touches.moved_place {before : Bridge} {state : State} {address place : Nat} {touch : Touch}
    (touches : Touches before thread state address place touch)
    (moves : Moves before.state thread state moved) :
    moved.place = none ∨ moved.place = thread.place := by
  rcases moves.request with ⟨none | same, _⟩ | ⟨request, next, rfl⟩
  · exact .inl (Thread.place_of_idle none)
  · exact .inr (congrArg (·.bind Request.commandPlace) same)
  · rcases touches.here with ⟨_, rfl, _⟩ | ⟨_, _, _, upcoming, rfl, _⟩
    · cases moves
    · cases moves with
      | complete completes =>
        rcases completes.keeps with same | ⟨_, same, _⟩
        · cases upcoming <;> contradiction
        · contradiction

theorem Moves.touches {state after : State} (moves : Moves state thread after moved) :
    (∃ request address, thread = .commanding request address) ∨
      (∃ id flight error address next,
        thread = .completing (.reporting id flight error address) next) ∨
      (∀ choice, thread.making state choice = []) ∧
        ∀ address, after.touches address = state.touches address := by
  cases moves with
  | raise | run | cutCommand => exact .inl ⟨_, _, rfl⟩
  | complete completes =>
    cases completes with
    | report | reportReply => exact .inr (.inl ⟨_, _, _, _, _, rfl⟩)
    | _ => exact .inr (.inr ⟨fun _ => rfl, fun _ => rfl⟩)
  | skip | refuse =>
    refine .inr (.inr ⟨fun _ => rfl, fun _ => ?_⟩)
    unfold State.reject
    split <;> rfl
  | insertDevice =>
    refine .inr (.inr ⟨fun _ => rfl, fun address => ?_⟩)
    simp only [State.touches, getElem?_append, getElem?_singleton]
    split
    · rfl
    · next beyond =>
      rw [getElem?_eq_none (Nat.le_of_not_lt beyond)]
      split <;> rfl
  | _ => exact .inr (.inr ⟨fun _ => rfl, fun _ => rfl⟩)

theorem advance_touches {bridge : Bridge} {after : State} {choice : Choice}
    (advances : advance bridge.state choice thread = some (after, moved))
    (addressed : thread.Addressed bridge.state.addresses) :
    (thread.making bridge.state choice = [] ∧
        ∀ address, after.touches address = bridge.state.touches address) ∨
      ∃ address place touch, thread.making bridge.state choice = [(address, place, touch)] ∧
        Touches bridge thread after address place touch := by
  rcases (advance_moves advances).touches with ⟨request, address, rfl⟩ |
    ⟨id, flight, error, address, next, rfl⟩ | ⟨none, same⟩
  · obtain ⟨known, target, command, fire, asks⟩ := addressed
    have adds := touches_modify bridge.state address
    cases choice with
    | raise error =>
      cases advances
      exact .inr ⟨address, request.place, .report error, rfl,
        adds _ [(request.place, .report error)] known fun _ _ => rfl, rfl, .inl ⟨request, rfl, rfl⟩⟩
    | run native =>
      have found : bridge.state.connections[address]? = some bridge.state.connections[address] :=
        getElem?_eq_getElem known
      have ran : after = bridge.state.onConnection address (·.execute native request command) := by
        simp only [advance, advanceCommand, asks, found] at advances
        exact (congrArg Prod.fst (Option.some.inj advances)).symm
      subst ran
      have made : Thread.making bridge.state (.run native) (.commanding request address) =
          (touched native command bridge.state.connections[address].connection).map
            (address, request.place, ·) := by
        simp only [Thread.making, asks, found]
      have more := fun other => adds (·.execute native request command)
        ((touched native command bridge.state.connections[address].connection).map
          (request.place, ·)) known (fun device here => by cases found.symm.trans here; rfl) other
      rcases touched_short native command bridge.state.connections[address].connection with
        none | ⟨touch, one⟩
      · simp only [none, map_nil] at made more
        exact .inl ⟨made, by simpa using more⟩
      · simp only [one, map_cons, map_nil] at made more
        exact .inr ⟨address, request.place, touch, made, more, rfl, .inl ⟨request, rfl, rfl⟩⟩
    | cut resources =>
      have cut : ∃ update : Tracked → Tracked, (∀ device, (update device).touches = device.touches) ∧
          after = bridge.state.onConnection address update := by
        simp only [advance, advanceCommand, asks] at advances
        split at advances
        · contradiction
        · refine ⟨fun device => { device with
            connection := { device.connection with resources } }, fun _ => rfl, ?_⟩
          exact (congrArg Prod.fst (Option.some.inj advances)).symm
      obtain ⟨update, same, rfl⟩ := cut
      refine .inl ⟨rfl, fun other => ?_⟩
      rw [adds update [] known (fun device _ => by rw [same, append_nil])]
      simp
    | _ => contradiction
  · have made : Thread.making bridge.state choice
        (.completing (.reporting id flight error address) next) =
          [(address, flight.place, .report error)] := rfl
    have more := touches_modify bridge.state address (·.report flight.place error)
      [(flight.place, .report error)] addressed fun _ _ => rfl
    have completes := advanceCompletion_completes bridge.state next (.reporting id flight error address)
    rw [Option.some.inj advances] at completes
    refine .inr ⟨address, flight.place, .report error, made, ?_, ?_, .inr ⟨_, _, _, _, rfl, rfl, rfl⟩⟩
    · cases completes <;> exact more
    · cases completes <;> rfl
  · exact .inl ⟨none choice, same⟩

/-- The scopes of a device are what its touches have made of them. -/
def Tracked.Replayed (self : Tracked) : Prop :=
  Ledger.run (self.touches.map Prod.snd) = self.connection.ledger (self.touches.map Prod.snd)

namespace Tracked.Replayed
variable {device : Tracked}

theorem report (replayed : device.Replayed) (place : Nat) (error : GpuError) :
    (device.report place error).Replayed := by
  simp only [Replayed, Tracked.report, map_append, map_cons, map_nil,
    Ledger.run_append, foldl_cons, foldl_nil]
  rw [replayed, report_ledger]

theorem execute (replayed : device.Replayed) (native : Native) (request : Request)
    (command : DeviceCommand) : (device.execute native request command).Replayed := by
  have values : ((touched native command device.connection).map
      (fun touch => (request.place, touch))).map Prod.snd = touched native command device.connection := by
    simp
  simp only [Replayed, Tracked.execute, map_append, Ledger.run_append, values]
  rw [replayed, execute_ledger]

end Tracked.Replayed

theorem forall_modify {P : α → Prop} {f : α → α} {i : Nat} {l : List α} (all : ∀ a ∈ l, P a)
    (kept : ∀ a, P a → P (f a)) : ∀ a ∈ l.modify i f, P a := by
  intro a member
  obtain ⟨j, at_j⟩ := mem_iff_getElem?.mp member
  rw [getElem?_modify] at at_j
  obtain ⟨b, found, same⟩ := Option.map_eq_some_iff.mp at_j
  have holds := all b (mem_of_getElem? found)
  split at same
  · exact same ▸ kept b holds
  · exact same ▸ holds

theorem Moves.replayed {state after : State} {thread moved : Thread}
    (moves : Moves state thread after moved) (replayed : ∀ device ∈ state.connections, device.Replayed) :
    ∀ device ∈ after.connections, device.Replayed := by
  cases moves with
  | raise => exact forall_modify replayed fun _ holds => holds.report _ _
  | run => exact forall_modify replayed fun _ holds => holds.execute _ _ _
  | cutCommand => exact forall_modify replayed fun _ holds => holds
  | insertDevice => exact forall_concat replayed rfl
  | skip | refuse =>
    unfold State.reject
    split <;> exact replayed
  | complete completes =>
    cases completes with
    | report | reportReply => exact forall_modify replayed fun _ holds => holds.report _ _
    | _ => exact replayed
  | _ => exact replayed

theorem Enters.connections {request : Request} (enters : Enters before request after) :
    after.state.connections = before.state.connections := by
  cases enters with
  | refused | uncaptured =>
    change (before.state.reject request Bridge.limitReached).connections = _
    unfold State.reject
    split <;> rfl
  | _ => rfl

theorem Turns.replayed (turns : Turns before after)
    (replayed : ∀ device ∈ before.state.connections, device.Replayed) :
    ∀ device ∈ after.state.connections, device.Replayed := by
  cases turns with
  | prepare _ enters | submit _ _ enters =>
    rw [enters.connections]
    exact replayed
  | lose => exact forall_modify replayed fun _ holds => holds
  | move _ moves => exact moves.replayed replayed
  | _ => exact replayed

theorem touches_grow {state : State} {address : Nat} {update : Tracked → Tracked}
    (grows : ∀ device, device.touches ⊆ (update device).touches) (other : Nat) :
    state.touches other ⊆ (state.onConnection address update).touches other := by
  unfold State.touches State.onConnection
  rw [getElem?_modify]
  cases state.connections[other]? with
  | none => exact nil_subset _
  | some device =>
    by_cases same : address = other
    · simpa [same] using grows device
    · simp [same]

theorem Moves.grows {state after : State} {thread moved : Thread}
    (moves : Moves state thread after moved) (address : Nat) :
    state.touches address ⊆ after.touches address := by
  cases moves with
  | raise | run => exact touches_grow (fun _ => subset_append_left _ _) address
  | cutCommand =>
    refine touches_grow (fun device => ?_) address
    exact List.Subset.refl _
  | insertDevice =>
    unfold State.touches
    rw [getElem?_append]
    split
    · exact List.Subset.refl _
    · next beyond =>
      rw [getElem?_eq_none (Nat.le_of_not_lt beyond)]
      exact nil_subset _
  | skip | refuse =>
    unfold State.reject
    split <;> exact List.Subset.refl _
  | complete completes =>
    cases completes with
    | report | reportReply => exact touches_grow (fun _ => subset_append_left _ _) address
    | _ => exact List.Subset.refl _
  | _ => exact List.Subset.refl _

/-- Whom an error of a command concerns: the place of the command and the connection. -/
def Thread.blames (place address : Nat) (error : GpuError) : Thread → Prop
  | .completing (.reporting _ flight error' address') _ =>
    flight.place = place ∧ address' = address ∧ error' = error
  | _ => False

/-- An error that is to be reported of a command has been, or a thread is about to. -/
def Bridge.Reported (bridge : Bridge) : Prop :=
  ∀ place address error, (place, address, error) ∈ bridge.state.failures →
    (place, .report error) ∈ bridge.state.touches address ∨
      ∃ thread ∈ bridge.threads, thread.blames place address error

section
variable {state after : State} {thread moved : Thread} (moves : Moves state thread after moved)
include moves

theorem Moves.failures {place address : Nat} {error : GpuError}
    (member : (place, address, error) ∈ after.failures) :
    (place, address, error) ∈ state.failures ∨ moved.blames place address error := by
  cases moves with
  | complete completes =>
    cases completes with
    | blame =>
      refine (mem_append.mp member).imp_right fun last => ?_
      cases mem_singleton.mp last
      exact ⟨rfl, rfl, rfl⟩
    | _ => exact .inl member
  | skip | refuse =>
    unfold State.reject at member
    split at member <;> exact .inl member
  | _ => exact .inl member

theorem Moves.reports (addressed : thread.Addressed state.addresses)
    {place address : Nat} {error : GpuError} (blames : thread.blames place address error) :
    (place, .report error) ∈ after.touches address := by
  cases moves with
  | complete completes =>
    cases completes with
    | @report _ flight error' address' | @reportReply _ flight error' address' =>
      obtain ⟨rfl, rfl, rfl⟩ := blames
      have more := touches_modify state address' (·.report flight.place error')
        [(flight.place, .report error')] addressed (fun _ _ => rfl) address'
      refine (congrArg (_ ∈ ·) more).mpr ?_
      simp
    | _ => exact blames.elim
  | _ => exact blames.elim

end

theorem Enters.reported {request : Request} (enters : Enters before request after)
    (reported : before.Reported) : after.Reported := by
  have failures : after.state.failures = before.state.failures := by
    cases enters with
    | refused | uncaptured =>
      change (before.state.reject request Bridge.limitReached).failures = _
      unfold State.reject
      split <;> rfl
    | _ => rfl
  have stay : before.threads ⊆ after.threads := by
    cases enters with
    | spawn | awaken => exact subset_append_left _ _
    | _ => exact List.Subset.refl _
  intro place address error member
  rw [failures] at member
  rw [State.touches, enters.connections]
  exact (reported place address error member).imp_right fun ⟨thread, member, blames⟩ =>
    ⟨thread, stay member, blames⟩

theorem Turns.reported (turns : Turns before after) (addressed : before.Addressed)
    (reported : before.Reported) : after.Reported := by
  cases turns with
  | idle | elapse | drain | take | refuse | arrive => exact reported
  | prepare _ enters => exact enters.reported reported
  | submit _ _ enters => exact enters.reported reported
  | expire =>
    intro place address error member
    refine (reported place address error member).imp_right fun ⟨thread, member, blames⟩ =>
      ⟨thread, mem_append_left _ member, blames⟩
  | lose =>
    intro place address error member
    refine (reported place address error member).imp_left fun here => touches_grow ?_ address here
    exact fun device => List.Subset.refl device.touches
  | @move k thread state moved at_k moves =>
    have member := mem_of_getElem? at_k
    intro place address error failed
    rcases moves.failures failed with failed | blames
    · rcases reported place address error failed with here | ⟨other, there, blames⟩
      · exact .inl (moves.grows address here)
      · rcases mem_set moved there at_k with rfl | there
        · exact .inl (moves.reports (addressed.threads _ member) blames)
        · exact .inr ⟨other, there, blames⟩
    · exact .inr ⟨moved, List.mem_set (List.getElem?_eq_some_iff.mp at_k).choose _, blames⟩

namespace Bridge
variable {bridge : Bridge}

theorem Reached.inOrder (reached : Reached bridge) : bridge.InOrder :=
  reached.invariant ⟨.nil, forall_mem_nil _, forall_mem_nil _⟩ fun _ _ inOrder turns => turns.inOrder inOrder

theorem Reached.assigned (reached : Reached bridge) : bridge.Assigned := by
  have both : bridge.Sound ∧ bridge.Assigned := by
    refine Reached.invariant (P := fun bridge => bridge.Sound ∧ bridge.Assigned) reached
      ⟨sound_new, forall_mem_nil _⟩ ?_
    exact fun _ _ ⟨sound, assigned⟩ turns => ⟨turns.sound sound, turns.assigned sound assigned⟩
  exact both.2

theorem Reached.reported (reached : Reached bridge) : bridge.Reported := by
  have both : bridge.Addressed ∧ bridge.Reported := by
    refine Reached.invariant (P := fun bridge => bridge.Addressed ∧ bridge.Reported) reached
      ⟨(Reached.addressed (.start rfl)), by simp [Reported, new]⟩ ?_
    exact fun _ _ both turns =>
      ⟨turns.addressed both.1, turns.reported both.1 both.2⟩
  exact both.2

theorem Reached.replayed (reached : Reached bridge) :
    ∀ device ∈ bridge.state.connections, device.Replayed :=
  reached.invariant (P := fun bridge => ∀ device ∈ bridge.state.connections, device.Replayed)
    nofun fun _ _ replayed turns => turns.replayed replayed

end Bridge
end Chuzz.Gpu
