import Chuzz.Sockets.Bridge

/-! The order of what a page observes of one socket. Each connection opens at most
once, so an open event can be late only for a socket that the page closed while it
was connecting; where that does not happen, `readyState` never falls. -/
namespace Chuzz.Sockets
open Std Library.Transition List Option ExtTreeMap

/-- What may follow what, in the log of one socket. -/
def Moment.Allows : Moment → Moment → Prop
  | .state earlier, .state later => earlier ≤ later
  | .closing, .fired (.opened _) => False
  | .closing, .sent _ => False
  | .fired (.closed _ _), .fired _ => False
  | _, _ => True

/-- What the socket says about its past. -/
def Socket.Past (socket : Socket) : Moment → Prop
  | .state value => value ≤ socket.readyState
  | .closing => 2 ≤ socket.readyState
  | .fired (.closed _ _) => socket.registered = false
  | _ => True

def Event.isOpened : Event → Bool
  | .opened _ => true
  | _ => false

def isOpening (id : Nat) (event : Nat × Event) : Bool := event.1 = id && event.2.isOpened

def isConnect (id : Nat) (command : Command) : Bool :=
  match command with
  | .connect other _ _ => other = id
  | _ => false

/-- An open event can still come to this socket. -/
def Socket.opens (socket : Socket) : Nat :=
  if socket.registered = true ∧ socket.readyState ≠ 0 ∧ socket.early = false then 0 else 1

namespace Bridge

def connecting (self : Bridge) (id : Nat) : Nat :=
  if (self.connections[id]?).any (·.phase = .connecting) then 1 else 0

/-- The open events on their way to a socket, and what can still become one. -/
def openings (self : Bridge) (id : Nat) : Nat :=
  self.delivering.countP (isOpening id) + self.events.countP (isOpening id) +
    self.connecting id + self.commands.countP (isConnect id)

structure Ordered (bridge : Bridge) : Prop where
  openings : ∀ id, bridge.openings id ≤ ((bridge.sockets[id]?).map Socket.opens).getD 0
  fresh : ∀ id, bridge.nextId ≤ id → bridge.sockets[id]? = none
  past : ∀ entry ∈ bridge.log, ∃ socket, bridge.sockets[entry.1]? = some socket ∧
    socket.Past entry.2
  log : bridge.log.Pairwise fun earlier later =>
    earlier.1 = later.1 → earlier.2.Allows later.2
  states : ∀ (id : Nat) (socket : Socket), bridge.sockets[id]? = some socket →
    socket.readyState ≤ 3 ∧ (socket.registered = true → socket.readyState ≤ 2)

/-- No open event is delivered to a socket that the page closed while it was
connecting. -/
def opensInTime (bridge : Bridge) : Step → Bool
  | .deliver =>
    match bridge.delivering with
    | (id, .opened _) :: _ => (bridge.sockets[id]?).all fun socket =>
        !(socket.registered && socket.early)
    | _ => true
  | _ => true

variable {bridge after : Bridge}

theorem Ordered.native (ordered : bridge.Ordered) (sockets : after.sockets = bridge.sockets)
    (log : after.log = bridge.log) (next : after.nextId = bridge.nextId)
    (fewer : ∀ id, after.openings id ≤ bridge.openings id) : after.Ordered := by
  constructor
  · intro id
    rw [sockets]
    exact (fewer id).trans (ordered.openings id)
  · rw [sockets, next]
    exact ordered.fresh
  · rw [sockets, log]
    exact ordered.past
  · rw [log]
    exact ordered.log
  · rw [sockets]
    exact ordered.states

/-- A page step on one socket: the new moments fit each other and the socket before,
which the socket after still remembers. -/
theorem Ordered.observed (ordered : bridge.Ordered) {id : Nat} {socket : Socket}
    (found : bridge.sockets[id]? = some socket) (changed : Socket) (moments : List Moment)
    (sockets : after.sockets = bridge.sockets.insert id changed)
    (log : after.log = bridge.log ++ moments.map (id, ·)) (next : after.nextId = bridge.nextId)
    (openings : ∀ other, after.openings other ≤ bridge.openings other)
    (opens : after.openings id ≤ changed.opens)
    (remembers : ∀ moment, socket.Past moment → changed.Past moment)
    (recorded : ∀ moment ∈ moments, changed.Past moment)
    (follows : ∀ moment ∈ moments, ∀ earlier, socket.Past earlier → earlier.Allows moment)
    (within : moments.Pairwise Moment.Allows)
    (states : changed.readyState ≤ 3 ∧ (changed.registered = true → changed.readyState ≤ 2)) :
    after.Ordered := by
  have lookup : ∀ other, after.sockets[other]? =
      if id = other then some changed else bridge.sockets[other]? := by
    intro other
    rw [sockets, ExtTreeMap.getElem?_insert]
    simp only [Std.compare_eq_iff_eq]
  constructor
  · intro other
    rw [lookup]
    split
    · rename_i same
      exact same ▸ opens
    · exact (openings other).trans (ordered.openings other)
  · intro other newer
    rw [next] at newer
    have absent := ordered.fresh other newer
    rw [lookup, if_neg, absent]
    rintro rfl
    rw [found] at absent
    contradiction
  · intro entry member
    rw [log] at member
    rw [lookup]
    rcases mem_append.mp member with member | member
    · obtain ⟨holder, held, past⟩ := ordered.past entry member
      split
      · rename_i same
        rw [← same, found] at held
        cases held
        exact ⟨changed, rfl, remembers _ past⟩
      · exact ⟨holder, held, past⟩
    · obtain ⟨moment, new, rfl⟩ := mem_map.mp member
      exact ⟨changed, if_pos rfl, recorded moment new⟩
  · rw [log, pairwise_append]
    refine ⟨ordered.log, ?_, ?_⟩
    · rw [pairwise_map]
      exact within.imp fun allows => fun _ => allows
    · intro earlier member later added same
      obtain ⟨moment, new, rfl⟩ := mem_map.mp added
      obtain ⟨holder, held, past⟩ := ordered.past earlier member
      rw [same, found] at held
      cases held
      exact follows moment new _ past
  · intro other holder held
    rw [lookup] at held
    split at held
    · cases held
      exact states
    · exact ordered.states other holder held

theorem countP_events (id other : Nat) (events : List Event) :
    (events.map (id, ·)).countP (isOpening other) =
      if id = other then events.countP Event.isOpened else 0 := by
  rw [countP_map]
  split
  · rename_i same
    refine countP_congr fun event _ => ?_
    simp [isOpening, same]
  · rename_i apart
    refine countP_eq_zero.mpr fun event _ => ?_
    simp [isOpening, apart]

theorem openings_post (bridge : Bridge) (id other : Nat) (events : List Event) :
    (bridge.post id events).openings other ≤
      bridge.openings other + if id = other then events.countP Event.isOpened else 0 := by
  unfold post
  split
  · exact Nat.le_add_right _ _
  · rw [← countP_events]
    simp only [openings, connecting, countP_append]
    omega

theorem post_page (bridge : Bridge) (id : Nat) (events : List Event) :
    (bridge.post id events).sockets = bridge.sockets ∧
      (bridge.post id events).log = bridge.log ∧
      (bridge.post id events).nextId = bridge.nextId := by
  unfold post
  split <;> exact ⟨rfl, rfl, rfl⟩

theorem connecting_insert (bridge : Bridge) {after : Bridge} {id : Nat} {connection : Connection}
    (inserted : after.connections = bridge.connections.insert id connection) (other : Nat) :
    after.connecting other =
      if id = other then (if connection.phase = .connecting then 1 else 0)
      else bridge.connecting other := by
  simp only [connecting, inserted, ExtTreeMap.getElem?_insert, Std.compare_eq_iff_eq]
  by_cases same : id = other <;> simp [same]

theorem openings_taken {command : Command} {commands : List Command}
    (queued : bridge.commands = command :: commands) (other : Nat) :
    openings { bridge with commands } other +
      (if isConnect other command = true then 1 else 0) = bridge.openings other := by
  have taken := countP_cons (p := isConnect other) (a := command) (l := commands)
  simp only [openings, queued, connecting] at taken ⊢
  omega

/-- A task that leaves `connecting` may post one open event; no other task may. -/
theorem Ordered.progress (ordered : bridge.Ordered) (id : Nat) {phase : Phase}
    {act : Connection → Connection × List Event}
    (bounded : ∀ connection : Connection, connection.phase = phase →
      (if (act connection).1.phase = .connecting then 1 else 0) +
        (act connection).2.countP Event.isOpened ≤ if phase = .connecting then 1 else 0) :
    (bridge.progress id phase act).Ordered := by
  unfold Bridge.progress
  split
  · exact ordered
  rename_i connection found
  split
  · rename_i here
    have bound := bounded connection here
    obtain ⟨sockets, log, next⟩ := post_page
      { bridge with connections := bridge.connections.insert id (act connection).1 } id
      (act connection).2
    refine ordered.native sockets log next fun other => ?_
    refine (openings_post _ id other _).trans ?_
    have before : bridge.connecting id = if phase = .connecting then 1 else 0 := by
      simp only [connecting, found, here, any_some, decide_eq_true_eq]
    simp only [Bridge.openings]
    rw [connecting_insert bridge rfl]
    split
    · rename_i same
      rw [← same, before]
      omega
    · omega
  · exact ordered

theorem push_frame (bridge : Bridge) (id : Nat) (frame : Frame) :
    (bridge.push id frame).sockets = bridge.sockets ∧
      (bridge.push id frame).log = bridge.log ∧
      (bridge.push id frame).nextId = bridge.nextId ∧
      ∀ other, (bridge.push id frame).openings other = bridge.openings other := by
  unfold push
  split
  · exact ⟨rfl, rfl, rfl, fun _ => rfl⟩
  rename_i connection found
  split
  · refine ⟨rfl, rfl, rfl, fun other => ?_⟩
    simp only [openings]
    rw [connecting_insert bridge rfl]
    split
    · rename_i here
      simp [connecting, ← here, found]
    · rfl
  · exact ⟨rfl, rfl, rfl, fun _ => rfl⟩

section
variable (ordered : bridge.Ordered)
include ordered

theorem Ordered.handle (sendable : Nat → Bool) : (bridge.handle sendable).Ordered := by
  unfold Bridge.handle
  split
  · exact ordered
  · rename_i id url protocols commands queued
    refine ordered.native rfl rfl rfl fun other => ?_
    rw [← openings_taken queued other]
    simp only [Bridge.openings, isConnect, decide_eq_true_eq]
    rw [connecting_insert { bridge with commands } rfl]
    split
    · simp only [if_true]
      omega
    · omega
  · rename_i id data commands queued
    obtain ⟨sockets, log, next, same⟩ := push_frame { bridge with commands } id (.text data)
    refine ordered.native sockets log next fun other => ?_
    rw [same, ← openings_taken queued other]
    exact Nat.le_add_right _ _
  · rename_i id code commands queued
    simp only
    split
    · obtain ⟨sockets, log, next⟩ := post_page { bridge with commands } id [.error "bad close code"]
      refine ordered.native sockets log next fun other => ?_
      refine (openings_post _ id other _).trans ?_
      rw [← openings_taken queued other]
      simp [Event.isOpened]
    · obtain ⟨sockets, log, next, same⟩ := push_frame { bridge with commands } id (.close code)
      refine ordered.native sockets log next fun other => ?_
      rw [same, ← openings_taken queued other]
      exact Nat.le_add_right _ _

theorem Ordered.construct (url : String) (protocols : List String) :
    (bridge.construct url protocols).Ordered := by
  have absent := ordered.fresh bridge.nextId (Nat.le_refl _)
  have lookup : ∀ other, (bridge.construct url protocols).sockets[other]? =
      if bridge.nextId = other then some {} else bridge.sockets[other]? := by
    intro other
    simp only [Bridge.construct, update, ExtTreeMap.getElem?_insert, Std.compare_eq_iff_eq]
  have older : ∀ entry ∈ bridge.log, bridge.nextId ≠ entry.1 := by
    rintro entry member same
    obtain ⟨holder, held, _⟩ := ordered.past entry member
    rw [← same, absent] at held
    contradiction
  have counted : ∀ other, (bridge.construct url protocols).openings other =
      bridge.openings other + if bridge.nextId = other then 1 else 0 := by
    intro other
    simp only [Bridge.openings, connecting, Bridge.construct, update, List.countP_append,
      List.countP_singleton, isConnect, decide_eq_true_eq]
    exact (Nat.add_assoc _ _ _).symm
  constructor
  · intro other
    have bound := ordered.openings other
    rw [lookup, counted]
    split
    · rename_i same
      rw [← same, absent] at bound
      simpa [Socket.opens, ← same] using bound
    · exact bound
  · intro other newer
    simp only [Bridge.construct] at newer
    rw [lookup, if_neg (by omega)]
    exact ordered.fresh other (by omega)
  · intro entry member
    rw [lookup]
    rcases List.mem_append.mp member with member | here
    · rw [if_neg (older entry member)]
      exact ordered.past entry member
    · rw [List.mem_singleton.mp here]
      exact ⟨{}, if_pos rfl, Nat.le_refl _⟩
  · refine List.pairwise_append.mpr ⟨ordered.log, List.pairwise_singleton _ _, ?_⟩
    intro earlier member later here same
    rw [List.mem_singleton.mp here] at same
    exact absurd same.symm (older earlier member)
  · intro other holder held
    rw [lookup] at held
    split at held
    · cases held
      exact ⟨Nat.zero_le _, fun _ => Nat.zero_le _⟩
    · exact ordered.states other holder held

theorem Ordered.send (id : Nat) (data : String) : (bridge.send id data).Ordered := by
  unfold Bridge.send
  split
  · exact ordered
  rename_i socket found
  split
  · rename_i opened
    have openings : ∀ other, Bridge.openings { bridge with
        log := bridge.log ++ [(id, .sent data)]
        commands := bridge.commands ++ [.send id data] } other = bridge.openings other := by
      intro other
      simp [Bridge.openings, connecting, isConnect]
    refine ordered.observed found socket [.sent data] ?_ rfl rfl
      (fun other => (openings other).le) ?_ (fun _ past => past) ?_ ?_ (pairwise_singleton _ _)
      (ordered.states id socket found)
    · exact (Library.TreeMapValues.insert_same found).symm
    · rw [openings]
      simpa [found] using ordered.openings id
    · simp [Socket.Past]
    · intro moment new earlier past
      rw [mem_singleton.mp new]
      cases earlier with
      | closing => exact absurd past (by simp [Socket.Past, opened])
      | fired event => cases event <;> trivial
      | _ => trivial
  · exact ordered

theorem Ordered.close (id : Nat) (code : Option Nat) : (bridge.close id code).Ordered := by
  unfold Bridge.close
  split
  · exact ordered
  rename_i socket found
  have states := ordered.states id socket found
  split
  · rename_i shut
    refine ordered.observed found socket [.closing] ?_ rfl rfl
      (fun other => Nat.le_refl _) ?_ (fun _ past => past) ?_ ?_ (pairwise_singleton _ _) states
    · exact (Library.TreeMapValues.insert_same found).symm
    · have bound := ordered.openings id
      simp only [found, map_some, getD_some] at bound
      exact bound
    · simp [Socket.Past, shut]
    · intro moment new earlier past
      rw [mem_singleton.mp new]
      cases earlier with
      | fired event => cases event <;> trivial
      | _ => trivial
  · rename_i unshut
    have openings : ∀ other, Bridge.openings { bridge.update id
        { socket with readyState := 2, early := socket.early || socket.readyState = 0 }
        [.closing, .state 2] with
        commands := bridge.commands ++ [.close id (code.getD 1000)] } other =
        bridge.openings other := by
      intro other
      simp [Bridge.openings, connecting, isConnect, update]
    have open_ : socket.readyState ≤ 2 := by omega
    refine ordered.observed found _ _ rfl rfl rfl (fun other => (openings other).le) ?_ ?_ ?_ ?_ ?_
      ?_
    · rw [openings]
      have bound := ordered.openings id
      simp only [found, map_some, getD_some, Socket.opens] at bound
      refine bound.trans ?_
      simp only [Socket.opens]
      split <;> split <;> simp_all
    · intro moment past
      cases moment with
      | state value => exact past.trans open_
      | closing => exact Nat.le_refl _
      | sent data => trivial
      | fired event =>
        cases event with
        | closed code reason => exact past
        | _ => trivial
    · simp [Socket.Past]
    · intro moment new earlier past
      rcases mem_cons.mp new with rfl | new
      · cases earlier with
        | fired event => cases event <;> trivial
        | _ => trivial
      · rw [mem_singleton.mp new]
        cases earlier with
        | state value => exact past.trans open_
        | fired event => cases event <;> trivial
        | _ => trivial
    · simp [Moment.Allows]
    · exact ⟨Nat.le_succ 2, fun _ => Nat.le_refl _⟩

theorem Ordered.deliver (inTime : bridge.opensInTime .deliver = true) : bridge.deliver.Ordered := by
  unfold Bridge.deliver
  split
  · exact ordered
  rename_i id event rest queued
  have taken : ∀ other, Bridge.openings { bridge with delivering := rest } other +
      (if isOpening other (id, event) = true then 1 else 0) = bridge.openings other := by
    intro other
    have counted := countP_cons (p := isOpening other) (a := (id, event)) (l := rest)
    simp only [Bridge.openings, queued, connecting] at counted ⊢
    omega
  have fewer : ∀ other, Bridge.openings { bridge with delivering := rest } other ≤
      bridge.openings other := fun other => taken other ▸ Nat.le_add_right _ _
  unfold deliverTo
  split
  · exact ordered.native rfl rfl rfl fewer
  rename_i socket found
  have states := ordered.states id socket found
  have bound := ordered.openings id
  simp only [found, map_some, getD_some] at bound
  split
  · exact ordered.native rfl rfl rfl fewer
  rename_i listed
  rw [Bool.not_eq_false] at listed
  split
  · rename_i protocol
    have timely : socket.early = false := by
      simpa [opensInTime, queued, found, listed] using inTime
    have counted := taken id
    simp only [isOpening, Event.isOpened, decide_true, Bool.and_self, if_true] at counted
    have first : socket.readyState = 0 := by
      by_contra later
      simp only [Socket.opens, listed, timely, later, ne_eq, not_false_eq_true, and_self,
        if_true] at bound
      omega
    refine ordered.observed found _ _ rfl rfl rfl fewer ?_ ?_ ?_ ?_ ?_ ?_
    · have one : socket.opens ≤ 1 := by
        unfold Socket.opens
        split <;> decide
      have none : Bridge.openings { bridge with delivering := rest } id = 0 := by omega
      exact none.le.trans (Nat.zero_le _)
    · intro moment past
      cases moment with
      | state value => exact past.trans (first ▸ Nat.zero_le 1)
      | closing => exact absurd past (by simp [Socket.Past, first])
      | sent data => trivial
      | fired event =>
        cases event with
        | closed code reason => exact past
        | _ => trivial
    · simp [Socket.Past]
    · intro moment new earlier past
      rcases mem_cons.mp new with rfl | new
      · cases earlier with
        | state value => exact past.trans (first ▸ Nat.zero_le 1)
        | fired event => cases event <;> trivial
        | _ => trivial
      · rw [mem_singleton.mp new]
        cases earlier with
        | closing => exact absurd past (by simp [Socket.Past, first])
        | fired event =>
          cases event with
          | closed code reason => exact Bool.noConfusion (listed.symm.trans past)
          | _ => trivial
        | _ => trivial
    · simp [Moment.Allows]
    · exact ⟨by simp, fun _ => Nat.le_succ 1⟩
  · rename_i code reason
    refine ordered.observed found _ _ rfl rfl rfl fewer ?_ ?_ ?_ ?_ ?_ ?_
    · refine (fewer id).trans (bound.trans ?_)
      simp only [Socket.opens, Bool.false_eq_true, false_and, if_false]
      split <;> decide
    · intro moment past
      cases moment with
      | state value => exact past.trans states.1
      | closing => exact past.trans states.1
      | sent data => trivial
      | fired event =>
        cases event with
        | closed code reason => rfl
        | _ => trivial
    · simp [Socket.Past]
    · intro moment new earlier past
      rcases mem_cons.mp new with rfl | new
      · cases earlier with
        | state value => exact past.trans states.1
        | fired event => cases event <;> trivial
        | _ => trivial
      · rw [mem_singleton.mp new]
        cases earlier with
        | fired event =>
          cases event with
          | closed code reason => exact Bool.noConfusion (listed.symm.trans past)
          | _ => trivial
        | _ => trivial
    · simp [Moment.Allows]
    · exact ⟨Nat.le_refl 3, by simp⟩
  · rename_i quiet loud
    refine ordered.observed found socket [.fired event] ?_ rfl rfl fewer ((fewer id).trans bound)
      (fun _ past => past) ?_ ?_ (pairwise_singleton _ _) states
    · exact (Library.TreeMapValues.insert_same found).symm
    · intro moment new
      rw [mem_singleton.mp new]
      cases event with
      | closed code reason => exact absurd rfl (loud code reason)
      | _ => trivial
    · intro moment new earlier past
      rw [mem_singleton.mp new]
      cases earlier with
      | closing =>
        cases event with
        | opened protocol => exact absurd rfl (quiet protocol)
        | _ => trivial
      | fired earlier =>
        cases earlier with
        | closed code reason => exact Bool.noConfusion (listed.symm.trans past)
        | _ => trivial
      | _ => trivial

end

theorem ordered_start : Ordered {} where
  openings _ := Nat.zero_le _
  fresh _ _ := getElem?_empty
  past _ member := absurd member not_mem_nil
  log := List.Pairwise.nil
  states _ _ found := by simp at found

theorem Ordered.perform (ordered : bridge.Ordered) (sendable : Nat → Bool) {step : Step}
    (inTime : bridge.opensInTime step = true) : (bridge.perform sendable step).Ordered := by
  cases step with
  | construct url protocols => exact ordered.construct url protocols
  | send id data => exact ordered.send id data
  | close id code => exact ordered.close id code
  | lose =>
    refine ordered.native rfl rfl rfl fun other => ?_
    cases queued : bridge.commands with
    | nil => simp [Bridge.perform, Bridge.openings, connecting, queued]
    | cons command commands =>
      rw [← openings_taken queued other]
      simp [Bridge.perform, queued]
  | handle => exact ordered.handle sendable
  | connected id protocol =>
    simp only [Bridge.perform]
    apply ordered.progress
    intro connection _
    simp [Event.isOpened]
  | refused id error =>
    simp only [Bridge.perform]
    apply ordered.progress
    intro connection _
    simp [failed, Event.isOpened]
  | write id error =>
    simp only [Bridge.perform]
    apply ordered.progress
    intro connection running
    unfold Bridge.write
    split <;> simp [failed, Event.isOpened, running]
  | receive id received =>
    apply ordered.progress
    intro connection running
    cases received <;> simp [Bridge.receive, failed, Event.isOpened, running]
  | forget id =>
    simp only [Bridge.perform]
    apply ordered.progress
    intro connection finished
    simp [finished]
  | retire =>
    refine ordered.native rfl rfl rfl fun other => ?_
    have same : (bridge.perform sendable .retire).connecting other = bridge.connecting other := by
      simp only [Bridge.perform, connecting, ExtTreeMap.getElem?_map]
      cases bridge.connections[other]? <;> rfl
    simp only [Bridge.openings, same]
    simp only [Bridge.perform, List.countP_nil]
    omega
  | drain =>
    refine ordered.native rfl rfl rfl fun other => ?_
    have same : (bridge.perform sendable .drain).connecting other = bridge.connecting other := rfl
    simp only [Bridge.openings, same]
    simp only [Bridge.perform, List.countP_append, List.countP_nil]
    omega
  | deliver => exact ordered.deliver inTime

/-- For each socket, `readyState` only grows, and after a close of the page or of the
connection nothing comes that must not. -/
theorem reached_ordered (sendable : Nat → Bool)
    (run : Reachable (fun s => s = {})
      (restrict (fun s step t => s.perform sendable step = t) fun s step => s.opensInTime step)
      bridge) :
    bridge.log.Pairwise fun earlier later => earlier.1 = later.1 → earlier.2.Allows later.2 := by
  have ordered : bridge.Ordered := by
    refine run.invariant ?_ ?_
    · rintro _ rfl
      exact ordered_start
    · rintro before step _ - ordered ⟨rfl, inTime⟩
      exact ordered.perform sendable inTime
  exact ordered.log

/-- The close codes that an endpoint may send. -/
def standardCode (code : Nat) : Bool :=
  1000 ≤ code && code ≤ 1003 || 1007 ≤ code && code ≤ 1011 || 3000 ≤ code && code ≤ 4999

/-- Opened, used and closed by the page. -/
def conversation : Bridge :=
  [.construct "wss://example.test/" [], .handle, .connected 1 "", .drain, .deliver, .send 1 "a",
    .close 1 none, .handle, .handle, .write 1 none, .write 1 none, .forget 1, .drain,
    .deliver].foldl (perform standardCode) {}

theorem reached_ordered_conversation :
    conversation.log.map Prod.snd = [.state 0, .state 1, .fired (.opened ""), .sent "a", .closing,
      .state 2, .state 3, .fired (.closed 1000 "")] ∧
    conversation.log.Pairwise fun earlier later =>
      earlier.1 = later.1 → earlier.2.Allows later.2 := by
  refine ⟨by decide, reached_ordered standardCode (Reachable.run_meeting _ (.start rfl) ?_)⟩
  decide

/-- The page closes the socket while the handshake is in flight. -/
def closedEarly : Bridge :=
  [.construct "wss://example.test/" [], .close 1 none, .handle, .connected 1 "", .handle, .drain,
    .deliver, .send 1 "late"].foldl (perform standardCode) {}

theorem closed_socket_opens :
    Reachable (fun s => s = {}) (fun s step t => perform standardCode s step = t) closedEarly ∧
      ¬ closedEarly.log.Pairwise fun earlier later =>
        earlier.1 = later.1 → earlier.2.Allows later.2 := by
  have log : closedEarly.log = [(1, .state 0), (1, .closing), (1, .state 2), (1, .state 1),
      (1, .fired (.opened "")), (1, .sent "late")] := by decide
  refine ⟨Reachable.run _ (.start rfl), ?_⟩
  rw [log]
  simp [Moment.Allows]

end Bridge
end Chuzz.Sockets
