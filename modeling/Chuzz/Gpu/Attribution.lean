import Chuzz.Gpu.Scopes
import Chuzz.Gpu.Ownership

/-! Which scope an error goes to. As long as time-outs are reported in the order of the page, the
scopes of a device are those of its commands one after the other. -/
namespace Chuzz.Gpu
open Std Library.Threads Library.Transition Library.Arrivals List

/-- The report of a time-out. -/
def late : Touch := .report timedOut

namespace Bridge

/-- The page chooses new ids. -/
def Fresh (self : Bridge) : Label → Prop
  | .handle id _ _ | .submit id _ => self.state.asked id = 0
  | _ => True

/-- Nothing is done to the scopes of a device after a later command has done something else to them,
where one of the two is the report of a time-out. -/
def Punctual (self : Bridge) (label : Label) : Prop :=
  ∀ made ∈ self.making label, ∀ other ∈ self.state.touches made.1, made.2.1 < other.1 →
    made.2.2 = late ∨ other.2 = late → other.2 = made.2.2

def Orderly (self : Bridge) (label : Label) : Prop := self.Fresh label ∧ self.Punctual label

instance : ∀ (self : Bridge) label, Decidable (self.Fresh label)
  | self, .handle id _ _ | self, .submit id _ => inferInstanceAs (Decidable (self.state.asked id = 0))
  | _, .prepare _ | _, .elapse _ | _, .expire _ | _, .drain | _, .take _ | _, .lose _
  | _, .advance .. => inferInstanceAs (Decidable True)

instance (self : Bridge) (label : Label) : Decidable (self.Punctual label) :=
  inferInstanceAs (Decidable (∀ made ∈ self.making label, _))

instance (self : Bridge) (label : Label) : Decidable (self.Orderly label) :=
  inferInstanceAs (Decidable (_ ∧ _))

/-- A bridge after a run in which the page's ids are its own and nothing is reported out of turn. -/
abbrev ReachedOrderly : Bridge → Prop := Reachable (· = new) (restrict step Orderly)

/-- What has been done to the scopes of every device is in the order of the page, but for reports of
time-outs. -/
structure Timely (bridge : Bridge) : Prop where
  ids : ∀ key, bridge.state.asked key ≤ 1
  within : ∀ address, ∀ touch ∈ bridge.state.touches address, touch.1 < bridge.state.issued.length
  arranged : ∀ address,
    (arranged bridge.state.issued.length (bridge.state.touches address)).map Prod.snd =
      (bridge.state.touches address).map Prod.snd
  behind : ∀ address, ∀ touch ∈ bridge.state.touches address, touch.2 = late ∨
    (∀ later ∈ bridge.state.line, touch.1 < later) ∧
      ∀ thread ∈ bridge.threads, ∀ place ∈ thread.place, touch.1 ≤ place

variable {before after bridge : Bridge}

theorem Timely.quiet (timely : before.Timely) (proceeds : Proceeds before after)
    (ids : ∀ key, after.state.asked key ≤ 1)
    (same : ∀ address, after.state.touches address = before.state.touches address) :
    after.Timely := by
  obtain ⟨_, within, arranged, behind⟩ := timely
  obtain ⟨line, issued, threads⟩ := proceeds
  refine ⟨ids, fun address touch member => ?_, fun address => ?_, fun address touch member => ?_⟩
  · have inside := within address touch (same address ▸ member)
    omega
  · rw [same]
    rcases issued with still | more
    · rw [still]
      exact arranged address
    · rw [more, arranged_widen (within address)]
      exact arranged address
  · rw [same] at member
    have inside := within address touch member
    refine (behind address touch member).imp_right fun ⟨ahead, current⟩ => ⟨fun later here => ?_, ?_⟩
    · rcases line with fewer | ⟨longer, _⟩
      · exact ahead later (fewer.subset here)
      · rw [longer] at here
        rcases mem_append.mp here with old | last
        · exact ahead later old
        · exact mem_singleton.mp last ▸ inside
    · intro thread here place at_place
      rcases threads thread here place at_place with ⟨thread, old, at_place⟩ | first
      · exact current thread old place at_place
      · exact (ahead place (first ▸ .head _)).le

theorem asked_new (ids : ∀ key, before.state.asked key ≤ 1) {id : Nat} {body : Body}
    (fresh : before.state.asked id = 0) (key : Nat) :
    (before.state.issue (before.state.request id body)).asked key ≤ 1 := by
  have more : (before.state.issue (before.state.request id body)).asked key =
      before.state.asked key + if id = key then 1 else 0 := before.state.asked_issue _ key
  have old := ids key
  split at more
  · next same =>
    subst same
    omega
  · omega

theorem asked_fresh (ids : ∀ key, before.state.asked key ≤ 1) {label : Label}
    (fresh : before.Fresh label) (key : Nat) : (before.perform label).state.asked key ≤ 1 := by
  cases label with
  | handle id body claim =>
    rw [perform]
    split
    · exact ids key
    · have new := @asked_new before ids id body fresh key
      cases claim with
      | some error => exact new
      | none =>
        simp only [handle]
        split <;> exact new
  | submit id body =>
    rw [perform]
    split
    · have entered := enqueue_enters { before with
        state := before.state.issue (before.state.request id body) }
        (before.state.request id body) false
      rw [State.asked, (entered.tokens key).2]
      exact asked_new ids fresh key
    · exact ids key
  | prepare busy =>
    rw [perform]
    split
    · exact ids key
    · rw [State.asked, ((enqueue_enters _ _ _).tokens key).2]
      exact ids key
  | expire order =>
    rw [perform]
    split <;> exact ids key
  | advance k choice =>
    rw [perform]
    split
    · exact ids key
    · next advances =>
      obtain ⟨thread, -, advances⟩ := Option.bind_eq_some_iff.mp advances
      rw [State.asked, ((advance_moves advances).tokens key).2]
      exact ids key
  | elapse | drain | take | lose => exact ids key

theorem reporting_place {id : Nat} {flight : Flight} {error : GpuError} {address : Nat} {next : Next}
    (sound : bridge.Sound) (assigned : bridge.Assigned) (ids : ∀ key, bridge.state.asked key ≤ 1)
    (member : .completing (.reporting id flight error address) next ∈ bridge.threads) :
    flight.place < bridge.state.issued.length ∧
      match next with
      | .polling request => request.commandPlace = some flight.place
      | .expiring _ => error = timedOut
      | .ended => False := by
  obtain ⟨⟨request, made, same, serves⟩, _⟩ := sound.attested.threads _ member
  obtain ⟨routed, assigned⟩ := assigned _ member
  have placed : flight.place < bridge.state.issued.length := by
    obtain ⟨place, at_place⟩ := mem_iff_getElem?.mp made
    rw [serves.place, sound.attested.state.places place request at_place]
    exact (List.getElem?_eq_some_iff.mp at_place).choose
  have command : request.commandPlace = some flight.place := by
    have device : request.errorDevice.isSome := serves.device ▸ routed
    unfold Request.errorDevice at device
    cases asks : request.body with
    | command => simp [Request.commandPlace, asks, serves.place]
    | _ => simp [asks] at device
  refine ⟨placed, ?_⟩
  cases next with
  | polling other =>
    obtain ⟨made', same'⟩ := assigned
    obtain rfl := made_unique made same made' same' (ids id)
    exact command
  | expiring => exact assigned
  | ended =>
    obtain ⟨other, made', same', startup⟩ := assigned
    obtain rfl := made_unique made same made' same' (ids id)
    unfold Request.startup at startup
    unfold Request.commandPlace at command
    cases asks : request.body <;> simp [asks] at startup command

/-- Where something is done to a scope: for a command in its turn, or for one that is late. -/
structure InTurn (bridge : Bridge) (thread : Thread) (place : Nat) (touch : Touch) : Prop where
  within : place < bridge.state.issued.length
  turn : touch = late ∨ 0 < thread.works ∧ thread.place = some place

theorem inTurn_of_touches {thread : Thread} {after : State} {address place : Nat} {touch : Touch}
    (touches : Touches bridge thread after address place touch) (sound : bridge.Sound)
    (addressed : bridge.Addressed) (assigned : bridge.Assigned)
    (ids : ∀ key, bridge.state.asked key ≤ 1) (member : thread ∈ bridge.threads) :
    InTurn bridge thread place touch := by
  rcases touches.here with ⟨request, rfl, rfl⟩ | ⟨id, flight, error, next, rfl, rfl, rfl⟩
  · have made := (sound.attested.threads _ member).1
    obtain ⟨_, target, command, fire, asks⟩ := addressed.threads _ member
    obtain ⟨place, at_place⟩ := mem_iff_getElem?.mp made
    rw [sound.attested.state.places place request at_place]
    refine ⟨(List.getElem?_eq_some_iff.mp at_place).choose, .inr ⟨Nat.one_pos, ?_⟩⟩
    change request.commandPlace = some place
    rw [Request.commandPlace, asks, sound.attested.state.places place request at_place]
  · obtain ⟨within, turn⟩ := reporting_place sound assigned ids member
    refine ⟨within, ?_⟩
    cases next with
    | polling request => exact .inr ⟨Nat.one_pos, turn⟩
    | expiring => exact .inl (congrArg Touch.report turn)
    | ended => exact turn.elim

section
variable {k address place : Nat} {thread moved : Thread} {state : State} {touch : Touch}

theorem Timely.add (timely : before.Timely) (staffed : before.Staffed) (inOrder : before.InOrder)
    (at_k : before.threads[k]? = some thread) (moves : Moves before.state thread state moved)
    (touches : Touches before thread state address place touch)
    (inTurn : InTurn before thread place touch)
    (punctual : ∀ other ∈ before.state.touches address, place < other.1 →
      touch = late ∨ other.2 = late → other.2 = touch) :
    Timely { state, threads := before.threads.set k moved } := by
  obtain ⟨ids, within, arranged, behind⟩ := timely
  have member := mem_of_getElem? at_k
  have issued : state.issued = before.state.issued := (moves.tokens 0).2
  have current : ∀ event, (∀ thread ∈ before.threads, ∀ place ∈ thread.place, event ≤ place) →
      ∀ thread ∈ before.threads.set k moved, ∀ place ∈ thread.place, event ≤ place := by
    refine fun event current => forall_set current fun place here => ?_
    rcases touches.moved_place moves with none | same
    · rw [none] at here
      contradiction
    · exact current thread member place (same ▸ here)
  -- Only a report of a time-out is of a command that the worker is not at.
  have overtakes : ∀ other ∈ before.state.touches address, place < other.1 → other.2 = touch := by
    intro other here overtaken
    rcases behind address other here with other_late | ⟨_, still⟩
    · exact punctual other here overtaken (.inr other_late)
    · rcases inTurn.turn with touch_late | ⟨_, at_place⟩
      · exact punctual other here overtaken (.inl touch_late)
      · exact absurd (still thread member place at_place) (by omega)
  have new : touch = late ∨ (∀ later ∈ before.state.line, place < later) ∧
      ∀ thread ∈ before.threads.set k moved, ∀ at_thread ∈ thread.place, place ≤ at_thread := by
    refine inTurn.turn.imp_right fun ⟨works, at_place⟩ =>
      ⟨(inOrder.ahead thread member place at_place).2, fun other there at_other here => ?_⟩
    have one : total Thread.works before.threads ≤ 1 := by
      rw [staffed.worker]
      split <;> omega
    rcases others_of_total at_k works one other there with rfl | rests
    · rcases touches.moved_place moves with none | same
      · rw [none] at here
        contradiction
      · rw [same, at_place] at here
        exact (Option.some.inj here).le
    · rw [Thread.place_of_idle (Thread.request_of_rest rests)] at here
      contradiction
  refine ⟨?_, fun other event here => ?_, fun other => ?_, fun other event here => ?_⟩
  · dsimp only
    unfold State.asked at *
    rwa [issued]
  · dsimp only at *
    rw [touches.touches] at here
    rw [issued]
    rcases mem_append.mp here with old | last
    · exact within other event old
    · split at last
      · exact mem_singleton.mp last ▸ inTurn.within
      · contradiction
  · dsimp only
    rw [touches.touches, issued]
    split
    · next same =>
      subst same
      rw [arranged_values inTurn.within overtakes, arranged, map_append]
      rfl
    · rw [append_nil]
      exact arranged other
  · dsimp only at *
    rw [touches.touches] at here
    rw [touches.line]
    rcases mem_append.mp here with old | last
    · exact (behind other event old).imp_right fun ⟨ahead, still⟩ => ⟨ahead, current event.1 still⟩
    · split at last
      · exact mem_singleton.mp last ▸ new
      · contradiction

end

theorem touches_perform {label : Label} (other : ∀ k choice, label ≠ .advance k choice)
    (address : Nat) : (before.perform label).state.touches address = before.state.touches address := by
  cases label with
  | handle id body claim =>
    rw [perform]
    split
    · rfl
    · cases claim with
      | some error => rfl
      | none =>
        simp only [handle]
        split <;> rfl
  | prepare busy =>
    rw [perform]
    split
    · rfl
    · rw [State.touches, (enqueue_enters _ _ _).connections]
      rfl
  | submit id body =>
    rw [perform]
    split
    · rw [State.touches, (enqueue_enters _ _ _).connections]
      rfl
    · rfl
  | expire order =>
    rw [perform]
    split <;> rfl
  | advance k choice => exact absurd rfl (other k choice)
  | lose lost =>
    rw [perform]
    simp only [State.touches, State.onConnection, getElem?_modify]
    cases before.state.connections[address]? <;> by_cases same : lost = address <;> simp [same]
  | elapse | drain | take => rfl

theorem ReachedOrderly.reached (orderly : ReachedOrderly bridge) : Reached bridge :=
  Reachable.unrestricted orderly

theorem Timely.advance {k : Nat} {choice : Choice} (timely : before.Timely)
    (reached : Reached before) (punctual : before.Punctual (.advance k choice)) :
    (before.perform (.advance k choice)).Timely := by
  have proceeds := (perform_turns before (.advance k choice)).proceeds
  have ids := @asked_fresh before timely.ids (.advance k choice) trivial
  cases advances : before.threads[k]?.bind (Gpu.advance before.state choice) with
  | none =>
    rw [perform, advances]
    exact timely
  | some pair =>
    obtain ⟨state, moved⟩ := pair
    have performed : before.perform (.advance k choice) =
        { state, threads := before.threads.set k moved } := by
      rw [perform, advances]
    rw [performed] at proceeds ids ⊢
    obtain ⟨thread, at_k, advances⟩ := Option.bind_eq_some_iff.mp advances
    have member := mem_of_getElem? at_k
    rcases advance_touches advances (reached.addressed.threads _ member) with
      ⟨_, same⟩ | ⟨address, place, touch, made, touches⟩
    · exact timely.quiet proceeds ids same
    · refine timely.add reached.staffed reached.inOrder at_k (advance_moves advances) touches
        (inTurn_of_touches touches reached.sound reached.addressed reached.assigned timely.ids
          member) fun other here overtaken => ?_
      have making : before.making (.advance k choice) = [(address, place, touch)] := by
        simp only [making, at_k, Option.map_some, Option.getD_some, made]
      exact punctual (address, place, touch) (by simp [making]) other here overtaken

theorem ReachedOrderly.timely (orderly : ReachedOrderly bridge) : bridge.Timely := by
  refine Reachable.invariant ?_ ?_ orderly
  · rintro _ rfl
    exact ⟨by simp [new, State.asked], by simp [new, State.touches], by simp [new, State.touches],
      by simp [new, State.touches]⟩
  · rintro before label _ earlier timely ⟨rfl, fresh, punctual⟩
    have reached : Reached before := ReachedOrderly.reached earlier
    have proceeds := (perform_turns before label).proceeds
    have ids := asked_fresh timely.ids fresh
    cases label with
    | advance k choice => exact timely.advance reached punctual
    | _ => exact timely.quiet proceeds ids (touches_perform (by simp))

/-- The touches of a device, put in the order of the page. -/
def pageOrder (bridge : Bridge) (device : Tracked) : List Touch :=
  (arranged bridge.state.issued.length device.touches).map Prod.snd

/-- A device, with an error scope for internal errors and a command in it. -/
def scoping : List Label :=
  [.handle 1 (.adapter none) none, .prepare false, .advance 0 .proceed, .advance 0 .proceed,
    .advance 0 .insert, .advance 0 .proceed, .advance 0 .proceed, .advance 0 .proceed,
    .advance 0 .proceed,
    .handle 2 (.device 1) none, .prepare false, .advance 1 .proceed, .advance 1 .proceed,
    .advance 1 .insert, .advance 1 .proceed, .advance 1 .proceed, .advance 1 .proceed,
    .advance 1 .proceed,
    .handle 3 (.command 2 ⟨0, .pushErrorScope (some "internal")⟩ true) none,
    .handle 4 (.command 2 ⟨1, .resource .destroyBuffer⟩ true) none, .prepare false, .prepare false,
    .advance 2 .proceed, .advance 2 .proceed, .advance 2 .proceed, .advance 2 (.run .working),
    .advance 2 .proceed, .advance 2 .proceed, .advance 2 .proceed, .advance 2 .proceed,
    .elapse 5000, .handle 5 (.command 2 ⟨0, .popErrorScope⟩ false) none, .prepare false,
    .elapse 5000]

/-- The worker skips the command, which is late, and pops the scope. -/
def popping : List Label :=
  [.advance 2 .proceed, .advance 2 .proceed, .advance 2 .proceed, .advance 2 .proceed,
    .advance 2 .proceed, .advance 2 (.run .working), .advance 2 .proceed, .advance 2 .proceed,
    .advance 2 .proceed, .advance 2 .proceed]

/-- The document reports what is late. -/
def reporting : List Label :=
  [.expire [4], .advance 3 .proceed, .advance 3 .proceed, .advance 3 .proceed, .advance 3 .proceed,
    .advance 3 .proceed]

def reportedFirst : Bridge := (scoping ++ reporting ++ popping).foldl perform new

end Bridge
end Chuzz.Gpu
