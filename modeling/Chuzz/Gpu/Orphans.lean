import Chuzz.Gpu.Slots

/-! No adapter and no device is left to a request that has failed. A start-up that is too late takes
its object out before it is answered, and afterwards nothing can put one in. -/
namespace Chuzz.Gpu
open Std Library.Threads List ExtTreeMap

/-- Whether the task of a start-up can still put an object in. -/
def Thread.opens (key : Nat) : Thread → Nat
  | .spawned request | .opening request | .waiting request => if request.id = key then 1 else 0
  | _ => 0

@[simp] theorem Next.opens_thread (next : Next) (key : Nat) : next.thread.opens key = 0 := by
  cases next <;> rfl

namespace State

def held (self : State) (key : Nat) : Nat :=
  (if key ∈ self.adapters then 1 else 0) + if key ∈ self.devices then 1 else 0

theorem held_iff {self : State} {key : Nat} :
    0 < self.held key ↔ key ∈ self.adapters ∨ key ∈ self.devices := by
  unfold held
  split <;> split <;> simp_all

@[simp] theorem held_reject (self : State) (request : Request) (error : GpuError) (key : Nat) :
    (self.reject request error).held key = self.held key := by
  unfold reject
  split <;> rfl

@[simp] theorem reject_incoming (self : State) (request : Request) (error : GpuError) :
    (self.reject request error).incoming = self.incoming := by
  unfold reject
  split <;> rfl

end State

theorem count_erase {V : Type} (objects : ExtTreeMap Nat V) (id key : Nat) :
    (if key ∈ objects.erase id then 1 else 0) ≤ if key ∈ objects then 1 else 0 := by
  by_cases same : id = key <;> simp [same]

theorem count_insert {V : Type} (objects : ExtTreeMap Nat V) (id key : Nat) (value : V) :
    (if key ∈ objects.insert id value then 1 else 0) ≤
      (if key ∈ objects then 1 else 0) + if id = key then 1 else 0 := by
  by_cases same : id = key <;> simp [same]

theorem Moves.opens {state after : State} {thread moved : Thread}
    (moves : Moves state thread after moved) (key : Nat) :
    after.held key + moved.opens key ≤ state.held key + thread.opens key ∧
      moved.opens key ≤ thread.opens key ∧ after.incoming = state.incoming := by
  cases moves with
  | complete completes =>
    cases completes with
    | @clean id =>
      have adapters := count_erase state.adapters id key
      have devices := count_erase state.devices id key
      exact ⟨Nat.add_le_add_right (Nat.add_le_add adapters devices) _, le_rfl, rfl⟩
    | gone | capture | success | report | post =>
      rw [Next.opens_thread]
      exact ⟨le_rfl, Nat.zero_le _, rfl⟩
    | _ => exact ⟨le_rfl, le_rfl, rfl⟩
  | skip | refuse => exact ⟨by simp [Thread.opens], le_rfl, by simp⟩
  | @consume adapter =>
    have adapters := count_erase state.adapters adapter key
    exact ⟨Nat.add_le_add_right (Nat.add_le_add_right adapters _) _, le_rfl, rfl⟩
  | forget | unopened | fail | nothing => exact ⟨Nat.le_add_right _ _, Nat.zero_le _, rfl⟩
  | @insertAdapter request =>
    have adapters := count_insert state.adapters request.id key ()
    refine ⟨?_, Nat.zero_le _, rfl⟩
    simp only [State.held, Thread.opens]
    omega
  | @insertDevice request =>
    have devices := count_insert state.devices request.id key state.connections.length
    refine ⟨?_, Nat.zero_le _, rfl⟩
    simp only [State.held, Thread.opens]
    omega
  | _ => exact ⟨le_rfl, le_rfl, rfl⟩

namespace Bridge

def opens (self : Bridge) (key : Nat) : Nat := total (Thread.opens key) self.threads

/-- The requests of an id that can still get an object, and the objects they have got. -/
def chances (self : Bridge) (key : Nat) : Nat :=
  self.state.incoming.countP (·.id = key) + self.state.held key + self.opens key

end Bridge

theorem Enters.opens {before after : Bridge} {request : Request}
    (enters : Enters before request after) (key : Nat) :
    after.state.held key = before.state.held key ∧ after.state.incoming = before.state.incoming ∧
      after.opens key ≤ before.opens key + if request.id = key then 1 else 0 := by
  unfold Bridge.opens
  cases enters with
  | busy | queue => exact ⟨rfl, rfl, Nat.le_add_right _ _⟩
  | refused | uncaptured =>
    exact ⟨before.state.held_reject request _ key, before.state.reject_incoming request _,
      Nat.le_add_right _ _⟩
  | spawn =>
    refine ⟨rfl, rfl, ?_⟩
    rw [total_append]
    rfl
  | awaken =>
    refine ⟨rfl, rfl, ?_⟩
    rw [total_append]
    exact Nat.le_add_right _ _

theorem Turns.chances {before after : Bridge} (turns : Turns before after) {key : Nat}
    (kept : before.chances key ≤ before.state.asked key) :
    after.chances key ≤ after.state.asked key := by
  unfold Bridge.chances Bridge.opens at *
  cases turns with
  | idle | elapse | drain | take | lose => exact kept
  | @refuse request =>
    have asked := before.state.asked_issue request key
    change _ ≤ (before.state.issue request).asked key
    change before.state.incoming.countP _ + before.state.held key + total _ before.threads ≤ _
    omega
  | @arrive request =>
    have asked := before.state.asked_issue request key
    change _ ≤ (before.state.issue request).asked key
    change (before.state.incoming ++ [request]).countP _ + before.state.held key +
      total _ before.threads ≤ _
    simp only [countP_append, countP_cons, countP_nil, decide_eq_true_eq]
    omega
  | @prepare request rest _ waiting enters =>
    obtain ⟨held, incoming, opens⟩ := enters.opens key
    have issued : after.state.asked key = before.state.asked key :=
      congrArg (countP _) (enters.tokens 0).2
    rw [held, incoming, issued]
    simp only [waiting, countP_cons, decide_eq_true_eq] at kept
    unfold Bridge.opens at opens
    change rest.countP _ + before.state.held key + _ ≤ _
    dsimp only at *
    omega
  | @submit request _ direct placed enters =>
    obtain ⟨held, incoming, opens⟩ := enters.opens key
    have asked := before.state.asked_issue request key
    have issued : after.state.asked key = (before.state.issue request).asked key :=
      congrArg (countP _) (enters.tokens 0).2
    rw [held, incoming, issued]
    unfold Bridge.opens at opens
    change before.state.incoming.countP _ + before.state.held key + _ ≤ _
    dsimp only at *
    omega
  | expire =>
    rw [total_append]
    exact kept
  | @move k thread state thread' at_k moves =>
    obtain ⟨moved, _, incoming⟩ := moves.opens key
    have counted := total_set (Thread.opens key) thread' at_k
    have issued : state.asked key = before.state.asked key :=
      congrArg (countP _) (moves.tokens 0).2
    rw [issued, incoming]
    dsimp only
    omega

section
variable {state after : State} {thread moved : Thread} (moves : Moves state thread after moved)
include moves

theorem Moves.flights : after.now = state.now ∧
      ∀ (key : Nat) (flight : Flight), after.inFlight[key]? = some flight →
        state.inFlight[key]? = some flight := by
  cases moves with
  | complete completes =>
    cases completes with
    | take =>
      refine ⟨rfl, fun id flight found => ?_⟩
      rw [getElem?_erase] at found
      split at found
      · contradiction
      · exact found
    | _ => exact ⟨rfl, fun _ _ => id⟩
  | skip | refuse =>
    unfold State.reject
    split <;> exact ⟨rfl, fun _ _ => id⟩
  | _ => exact ⟨rfl, fun _ _ => id⟩

theorem Moves.held {key : Nat} (none : state.held key = 0) :
    after.held key = 0 ∨ ∃ request, thread = .waiting request ∧ request.id = key ∧ state.live key := by
  cases moves with
  | @insertAdapter request _ _ live =>
    by_cases same : request.id = key
    · exact .inr ⟨request, rfl, same, same ▸ live⟩
    · have more := count_insert state.adapters request.id key ()
      simp only [State.held, same, if_false] at *
      omega
  | @insertDevice request _ _ live =>
    by_cases same : request.id = key
    · exact .inr ⟨request, rfl, same, same ▸ live⟩
    · have more := count_insert state.devices request.id key state.connections.length
      simp only [State.held, same, if_false] at *
      omega
  | complete completes =>
    have fewer := ((Moves.complete completes).opens key).1
    change _ ≤ state.held key + 0 at fewer
    exact .inl (by omega)
  | skip | refuse => exact .inl (by simpa using none)
  | consume asks known =>
    have fewer := ((Moves.consume asks known).opens key).1
    simp only [Thread.opens] at fewer
    exact .inl (by omega)
  | _ => exact .inl none

end

theorem Enters.flights {before after : Bridge} {request : Request}
    (enters : Enters before request after) {key : Nat} (other : request.id ≠ key) :
    after.state.now = before.state.now ∧
      after.state.inFlight[key]? = before.state.inFlight[key]? := by
  have apart : ¬ compare request.id key = .eq := by simpa [Nat.compare_eq_eq] using other
  cases enters with
  | busy => exact ⟨rfl, rfl⟩
  | refused | uncaptured =>
    have same : (before.state.reject request Bridge.limitReached).now = before.state.now ∧
        (before.state.reject request Bridge.limitReached).inFlight = before.state.inFlight := by
      unfold State.reject
      split <;> exact ⟨rfl, rfl⟩
    exact ⟨same.1, congrArg (·[key]?) same.2⟩
  | spawn | queue | awaken =>
    refine ⟨rfl, ?_⟩
    rw [ExtTreeMap.getElem?_insert, if_neg apart]

namespace Bridge

/-- What holds of every bridge, whatever ids the page chooses. -/
structure Sound (bridge : Bridge) : Prop where
  attested : bridge.Attested
  tokens : ∀ key, bridge.tokens key = bridge.state.asked key
  chances : ∀ key, bridge.chances key ≤ bridge.state.asked key
  slots : ∀ place, bridge.Finishes place

/-- No object is there for the id, and none will be. -/
structure Barren (bridge : Bridge) (key : Nat) : Prop where
  asked : bridge.state.asked key = 1
  held : bridge.state.held key = 0
  shut : (∀ request ∈ bridge.state.issued, request.id = key → ¬ request.startup) ∨
    bridge.state.incoming.countP (·.id = key) = 0 ∧
      (bridge.state.inFlight[key]? = none ∨ bridge.opens key = 0)

/-- The request of the id is too late. -/
structure Late (bridge : Bridge) (key : Nat) : Prop where
  asked : bridge.state.asked key = 1
  incoming : bridge.state.incoming.countP (·.id = key) = 0
  late : ∀ flight, bridge.state.inFlight[key]? = some flight → ¬ flight.live bridge.state.now

end Bridge

theorem Turns.sound {before after : Bridge} (turns : Turns before after) (sound : before.Sound) :
    after.Sound where
  attested := turns.attested sound.attested
  tokens key := turns.tokens (sound.tokens key)
  chances key := turns.chances (sound.chances key)
  slots place := turns.slots (sound.slots place)

theorem Bridge.sound_new : Bridge.new.Sound where
  attested := {
    state := {
      incoming := nofun
      requests := nofun
      flights := by simp [new]
      replies := nofun
      closed := nofun
      objects := by simp [new]
      cutOff := nofun
      places := by simp [new] }
    threads := by simp [new] }
  tokens key := by
    simp [tokens, State.tokens, State.asked, State.flying, State.replies, State.closings, new]
  chances key := by simp [chances, State.held, opens, new]
  slots place := by
    constructor <;> simp [unfinished, uncut, State.queued, State.finishes, State.slotsAsked,
      State.cuts, new]

theorem Bridge.Reached.sound {bridge : Bridge} (reached : Bridge.Reached bridge) : bridge.Sound :=
  reached.invariant sound_new fun _ _ sound turns => turns.sound sound

section Stability
variable {before after : Bridge} {request : Request} {key : Nat}

theorem Enters.barren (enters : Enters before request after) (barren : before.Barren key)
    (other : request.id = key → ∀ request ∈ before.state.issued, request.id = key → ¬ request.startup) :
    after.Barren key := by
  obtain ⟨held, incoming, opens⟩ := enters.opens key
  have issued := (enters.tokens key).2
  refine ⟨(congrArg (countP _) issued).trans barren.asked, held.trans barren.held, ?_⟩
  by_cases same : request.id = key
  · exact .inl (issued ▸ other same)
  · rw [if_neg same] at opens
    rw [issued, incoming, (enters.flights same).2]
    exact barren.shut.imp_right fun shut => ⟨shut.1, shut.2.imp_right fun none => by omega⟩

theorem Enters.late (enters : Enters before request after) (late : before.Late key)
    (other : request.id ≠ key) : after.Late key := by
  obtain ⟨_, incoming, _⟩ := enters.opens key
  obtain ⟨now, flights⟩ := enters.flights other
  refine ⟨(congrArg (countP _) (enters.tokens key).2).trans late.asked,
    incoming ▸ late.incoming, ?_⟩
  rw [now, flights]
  exact late.late

/-- Another request of the same id rules the ids out of which a step is made. -/
theorem asked_issue_ne (asked : before.state.asked key = 1)
    (alone : (before.state.issue request).asked key ≤ 1) : request.id ≠ key := by
  intro same
  have more := before.state.asked_issue request key
  rw [if_pos same] at more
  omega

theorem Turns.barren (turns : Turns before after) (sound : before.Sound) (barren : before.Barren key)
    (alone : after.state.asked key ≤ 1) : after.Barren key := by
  obtain ⟨asked, held, shut⟩ := barren
  cases turns with
  | idle | elapse | drain | take | lose => exact ⟨asked, held, shut⟩
  | @refuse request =>
    have other := asked_issue_ne asked alone
    have more := before.state.asked_issue request key
    rw [if_neg other] at more
    refine ⟨more.trans asked, held, shut.imp_left fun none => ?_⟩
    exact forall_concat none fun same => absurd same other
  | @arrive request =>
    have other := asked_issue_ne asked alone
    have more := before.state.asked_issue request key
    rw [if_neg other] at more
    refine ⟨more.trans asked, held, ?_⟩
    rcases shut with none | ⟨incoming, shut⟩
    · exact .inl (forall_concat none fun same => absurd same other)
    · refine .inr ⟨?_, shut⟩
      simpa [countP_append, other] using incoming
  | @prepare request rest _ waiting enters =>
    have fewer : rest.countP (·.id = key) ≤ before.state.incoming.countP (·.id = key) := by
      rw [waiting, countP_cons]
      exact Nat.le_add_right _ _
    refine enters.barren ⟨asked, held, ?_⟩ fun same => ?_
    · exact shut.imp_right fun shut => ⟨Nat.le_zero.mp (fewer.trans shut.1.le), shut.2⟩
    · rcases shut with none | ⟨incoming, _⟩
      · exact none
      · rw [waiting, countP_cons, if_pos (decide_eq_true same)] at incoming
        contradiction
  | @submit request _ direct placed enters =>
    have issued := (enters.tokens key).2
    have alone : (before.state.issue request).asked key ≤ 1 := by
      rw [State.asked, issued] at alone
      exact alone
    have other := asked_issue_ne asked alone
    have more := before.state.asked_issue request key
    rw [if_neg other] at more
    refine enters.barren ⟨more.trans asked, held, ?_⟩ fun same => absurd same other
    exact shut.imp_left fun none => forall_concat none fun same => absurd same other
  | expire =>
    refine ⟨asked, held, ?_⟩
    rw [Bridge.opens, total_append]
    exact shut
  | @move k thread state thread' at_k moves =>
    obtain ⟨_, fewer, incoming⟩ := moves.opens key
    have counted := total_set (Thread.opens key) thread' at_k
    have issued := (moves.tokens key).2
    refine ⟨(congrArg (countP _) issued).trans asked, ?_, ?_⟩
    · rcases moves.held held with none | ⟨request, rfl, same, live⟩
      · exact none
      · obtain ⟨made, startup⟩ := sound.attested.threads _ (mem_of_getElem? at_k)
        rcases shut with none | ⟨_, none | none⟩
        · exact absurd startup (none request made same)
        · simp [State.live, none] at live
        · have opens := le_total (Thread.opens key) (mem_of_getElem? at_k)
          simp only [Thread.opens, same, if_true] at opens
          change total _ _ = 0 at none
          omega
    · dsimp only
      rw [issued, incoming]
      refine shut.imp_right fun both => ⟨both.1, both.2.imp ?_ ?_⟩
      · intro none
        rw [Option.eq_none_iff_forall_ne_some] at none ⊢
        exact fun flight found => none flight (moves.flights.2 key flight found)
      · intro none
        unfold Bridge.opens at *
        dsimp only
        omega

theorem Turns.late (turns : Turns before after) (late : before.Late key)
    (alone : after.state.asked key ≤ 1) : after.Late key := by
  obtain ⟨asked, incoming, late⟩ := late
  cases turns with
  | idle | drain | take | lose | expire => exact ⟨asked, incoming, late⟩
  | elapse =>
    refine ⟨asked, incoming, fun flight found live => late flight found ?_⟩
    simp only [Flight.live, decide_eq_true_eq] at live ⊢
    omega
  | @refuse request =>
    have other := asked_issue_ne asked alone
    have more := before.state.asked_issue request key
    rw [if_neg other] at more
    exact ⟨more.trans asked, incoming, late⟩
  | @arrive request =>
    have other := asked_issue_ne asked alone
    have more := before.state.asked_issue request key
    rw [if_neg other] at more
    refine ⟨more.trans asked, ?_, late⟩
    simpa [countP_append, other] using incoming
  | @prepare request rest _ waiting enters =>
    rw [waiting, countP_cons] at incoming
    refine enters.late ⟨asked, by dsimp only; omega, late⟩ fun same => ?_
    rw [if_pos (decide_eq_true same)] at incoming
    contradiction
  | @submit request _ direct placed enters =>
    have issued := (enters.tokens key).2
    have alone : (before.state.issue request).asked key ≤ 1 := by
      rw [State.asked, issued] at alone
      exact alone
    have other := asked_issue_ne asked alone
    have more := before.state.asked_issue request key
    rw [if_neg other] at more
    exact enters.late ⟨more.trans asked, incoming, late⟩ other
  | move at_k moves =>
    obtain ⟨now, flights⟩ := moves.flights
    refine ⟨(congrArg (countP _) (moves.tokens key).2).trans asked,
      (moves.opens key).2.2 ▸ incoming, fun flight found live => ?_⟩
    exact late flight (flights key flight found) (now ▸ live)

end Stability

/-- A completion that fails is of a request that has no object, or it is too late. -/
def Completion.Settled (bridge : Bridge) (key : Nat) : Completion → Prop
  | .start id result => id = key → result.isOk ∨ bridge.Late key ∨ bridge.Barren key
  | .taken id flight result =>
    id = key → result.isOk ∨ ¬ flight.live bridge.state.now ∨ bridge.Barren key
  | .cleaning .. => True
  | .judged id _ result => id = key → result.isOk ∨ bridge.Barren key
  | .reporting id .. => id = key → bridge.Barren key
  | .posting id reply => id = key → reply.succeeded ∨ bridge.Barren key

def Next.ids : Next → List Nat
  | .expiring ids => ids
  | _ => []

/-- The requests that a thread has found to be too late. -/
def Thread.ids : Thread → List Nat
  | .expiring ids => ids
  | .completing _ next => next.ids
  | _ => []

/-- A thread that neither completes a request nor is about to. -/
def Thread.idle : Thread → Bool
  | .completing .. | .expiring _ => false
  | _ => true

@[simp] theorem Next.ids_thread (next : Next) : next.thread.ids = next.ids := by
  cases next <;> rfl

structure Thread.Settled (bridge : Bridge) (key : Nat) (thread : Thread) : Prop where
  completion : ∀ completion next, thread = .completing completion next →
    completion.Settled bridge key
  late : key ∈ thread.ids → bridge.Late key

section Settling
variable {before after bridge : Bridge} {request : Request} {key : Nat} {thread : Thread}

theorem Thread.Settled.idle (idle : thread.idle) : thread.Settled bridge key where
  completion := by
    rintro _ _ rfl
    contradiction
  late member := by cases thread <;> contradiction

theorem Thread.Settled.next {next : Next} (late : key ∈ next.ids → bridge.Late key) :
    next.thread.Settled bridge key where
  completion _ _ same := by cases next <;> simp [Next.thread] at same
  late := by simpa using late

variable {completion : Completion}

theorem Thread.Settled.completing {next : Next} (settled : completion.Settled bridge key)
    (late : key ∈ next.ids → bridge.Late key) :
    (Thread.completing completion next).Settled bridge key where
  completion := by
    rintro _ _ ⟨⟩
    exact settled
  late := late

theorem Completion.Settled.mono (settled : completion.Settled before key)
    (late : before.Late key → after.Late key) (barren : before.Barren key → after.Barren key)
    (now : before.state.now ≤ after.state.now) : completion.Settled after key := by
  cases completion with
  | start => exact fun same => (settled same).imp_right (.imp late barren)
  | taken id flight =>
    refine fun same => (settled same).imp_right (.imp (fun late live => late ?_) barren)
    simp only [Flight.live, decide_eq_true_eq] at live ⊢
    omega
  | cleaning => trivial
  | judged | posting => exact fun same => (settled same).imp_right barren
  | reporting => exact fun same => barren (settled same)

theorem Thread.Settled.mono (settled : thread.Settled before key)
    (late : before.Late key → after.Late key) (barren : before.Barren key → after.Barren key)
    (now : before.state.now ≤ after.state.now) : thread.Settled after key where
  completion completion next same := (settled.completion completion next same).mono late barren now
  late member := late (settled.late member)

theorem asked_of_made (made : request ∈ bridge.state.issued) (same : request.id = key)
    (alone : bridge.state.asked key ≤ 1) : bridge.state.asked key = 1 := by
  have some : 0 < bridge.state.asked key :=
    countP_pos_iff.mpr ⟨request, made, decide_eq_true same⟩
  omega

theorem made_unique {other : Request} (made : request ∈ bridge.state.issued) (same : request.id = key)
    (made' : other ∈ bridge.state.issued) (same' : other.id = key)
    (alone : bridge.state.asked key ≤ 1) : request = other := by
  unfold State.asked at alone
  rw [countP_eq_length_filter] at alone
  have member : request ∈ bridge.state.issued.filter (·.id = key) :=
    mem_filter.mpr ⟨made, decide_eq_true same⟩
  have member' : other ∈ bridge.state.issued.filter (·.id = key) :=
    mem_filter.mpr ⟨made', decide_eq_true same'⟩
  match found : bridge.state.issued.filter (·.id = key) with
  | [] => simp [found] at member
  | [only] =>
    rw [found] at member member'
    exact (mem_singleton.mp member).trans (mem_singleton.mp member').symm
  | _ :: _ :: _ => simp [found] at alone

/-- An id that is not of a start-up never gets an object. -/
theorem barren_of_other (sound : bridge.Sound) (made : request ∈ bridge.state.issued)
    (same : request.id = key) (other : ¬ request.startup) (alone : bridge.state.asked key ≤ 1) :
    bridge.Barren key where
  asked := asked_of_made made same alone
  held := by
    by_contra held
    obtain ⟨startup, made', same', starts⟩ :=
      sound.attested.state.objects key (State.held_iff.mp (Nat.pos_of_ne_zero held))
    exact other (made_unique made same made' same' alone ▸ starts)
  shut := .inl fun request' made' same' starts =>
    other (made_unique made same made' same' alone ▸ starts)

/-- What one thread does to the bridge. -/
abbrev Bridge.moved (self : Bridge) (k : Nat) (state : State) (thread : Thread) : Bridge where
  state := state
  threads := self.threads.set k thread

variable {k : Nat}

theorem barren_of_failed {next : Next} (sound : before.Sound)
    (at_k : before.threads[k]? = some thread) (opened : thread.opens key = 1)
    (alone : before.state.asked key ≤ 1) :
    (before.moved k before.state (.completing completion next)).Barren key := by
  have counted := total_set (Thread.opens key) (.completing completion next) at_k
  have chances := sound.chances key
  unfold Bridge.chances Bridge.opens at chances
  have none : (Thread.completing completion next).opens key = 0 := rfl
  refine ⟨by dsimp only; omega, by dsimp only; omega, .inr ⟨by dsimp only; omega, .inr ?_⟩⟩
  change total _ (before.threads.set k _) = 0
  omega

theorem barren_of_cleaned {flight : Flight} {next : Next} (sound : before.Sound)
    (at_k : before.threads[k]? = some (.completing (.cleaning key flight) next))
    (alone : before.state.asked key ≤ 1) :
    (before.moved k
      { before.state with
        adapters := before.state.adapters.erase key
        devices := before.state.devices.erase key }
      (.completing (.judged key flight (.error timedOut)) next)).Barren key := by
  have owes := le_total (Thread.owes key) (mem_of_getElem? at_k)
  have tokens := sound.tokens key
  unfold Bridge.tokens State.tokens State.flying at tokens
  simp only [Thread.owes, Completion.owes, if_true] at owes
  refine ⟨?_, by simp [State.held], .inr ⟨by dsimp only; omega, .inl ?_⟩⟩
  · change before.state.asked key = 1
    omega
  · refine getElem?_eq_none fun flying => ?_
    rw [if_pos flying] at tokens
    omega

theorem Completes.settled {state : State} {next : Next}
    (completes : Completes before.state next completion state thread) (sound : before.Sound)
    (at_k : before.threads[k]? = some (.completing completion next))
    (alone : before.state.asked key ≤ 1)
    (settled : (Thread.completing completion next).Settled before key) :
    thread.Settled (before.moved k state thread) key ∧
      ∀ reply ∈ state.replies key, reply ∈ before.state.replies key ∨ reply.succeeded ∨
        (before.moved k state thread).Barren key := by
  have turns := Turns.move at_k (.complete completes)
  have alone' : (before.moved k state thread).state.asked key ≤ 1 :=
    (congrArg (countP _) (completes.tokens key).2).trans_le alone
  have barren := fun barren => turns.barren sound barren alone'
  have late := fun late => turns.late late alone'
  have held := settled.completion _ _ rfl
  have nexts : key ∈ next.ids → _ := fun member => late (settled.late member)
  cases completes with
  | gone => exact ⟨.next nexts, fun _ => .inl⟩
  | take flying =>
    refine ⟨.completing (fun same => ?_) nexts, fun _ => .inl⟩
    refine (held same).imp_right (.imp (fun late => ?_) barren)
    exact late.late _ (same ▸ flying)
  | inTime live =>
    refine ⟨.completing (fun same => ?_) nexts, fun _ => .inl⟩
    exact (held same).imp_right fun late => barren (late.resolve_left (not_not.mpr live))
  | cleanUp => exact ⟨.completing trivial nexts, fun _ => .inl⟩
  | tooLate _ other =>
    refine ⟨.completing (fun same => .inr ?_) nexts, fun _ => .inl⟩
    obtain ⟨request, made, same', serves⟩ := sound.attested.threads _ (mem_of_getElem? at_k)
    exact barren (barren_of_other sound made (same'.trans same) (serves.startup ▸ other) alone)
  | clean =>
    refine ⟨.completing (fun same => .inr ?_) nexts, fun _ => .inl⟩
    subst same
    exact barren_of_cleaned sound at_k alone
  | capture | success => exact ⟨.next nexts, fun _ => .inl⟩
  | answer => exact ⟨.completing (fun _ => .inl rfl) nexts, fun _ => .inl⟩
  | fail =>
    refine ⟨.completing (fun same => .inr ?_) nexts, fun _ => .inl⟩
    exact barren ((held same).resolve_left nofun)
  | blame =>
    refine ⟨.completing (fun same => ?_) nexts, fun _ => .inl⟩
    exact barren ((held same).resolve_left nofun)
  | report => exact ⟨.next nexts, fun _ => .inl⟩
  | reportReply =>
    exact ⟨.completing (fun same => .inr (barren (held same))) nexts, fun _ => .inl⟩
  | @post id reply =>
    refine ⟨.next nexts, fun other member => ?_⟩
    rw [State.replies_post] at member
    rcases mem_append.mp member with member | member
    · exact .inl member
    · split at member
      · next same =>
        obtain rfl := mem_singleton.mp member
        exact .inr ((held same).imp_right barren)
      · contradiction

theorem Moves.settled {state : State} {thread moved : Thread}
    (moves : Moves before.state thread state moved) (sound : before.Sound)
    (at_k : before.threads[k]? = some thread) (alone : before.state.asked key ≤ 1)
    (settled : thread.Settled before key) :
    moved.Settled (before.moved k state moved) key ∧
      ∀ reply ∈ state.replies key, reply ∈ before.state.replies key ∨ reply.succeeded ∨
        (before.moved k state moved).Barren key := by
  have turns := Turns.move at_k moves
  have alone' : (before.moved k state moved).state.asked key ≤ 1 :=
    (congrArg (countP _) (moves.tokens key).2).trans_le alone
  have barren := fun barren => turns.barren sound barren alone'
  have late := fun late => turns.late late alone'
  have held := sound.attested.threads _ (mem_of_getElem? at_k)
  cases moves with
  | complete completes => exact completes.settled sound at_k alone settled
  | succeed | nothing | insertAdapter | insertDevice =>
    exact ⟨.completing (fun _ => .inl rfl) nofun, fun _ => .inl⟩
  | refuse =>
    refine ⟨.completing (fun same => .inr (.inr ?_)) nofun, ?_⟩
    · exact barren (barren_of_other sound held.1 same held.2 alone)
    · unfold State.reject
      split <;> exact fun _ => .inl
  | skip =>
    refine ⟨.idle rfl, ?_⟩
    unfold State.reject
    split <;> exact fun _ => .inl
  | unopened | fail =>
    refine ⟨.completing (fun same => .inr (.inr ?_)) nofun, fun _ => .inl⟩
    exact barren_of_failed sound at_k (if_pos same) alone
  | expire =>
    refine ⟨.completing (fun same => .inr (.inl ?_)) fun member => ?_, fun _ => .inl⟩
    · exact late (settled.late (same ▸ .head _))
    · exact late (settled.late (.tail _ member))
  | expired => exact ⟨@Thread.Settled.next _ _ .ended nofun, fun _ => .inl⟩
  | _ => exact ⟨.idle rfl, fun _ => .inl⟩

theorem Bridge.barren_of_none (asked : bridge.state.asked key = 1) (none : bridge.chances key = 0) :
    bridge.Barren key := by
  unfold chances at none
  exact ⟨asked, by omega, .inr ⟨by omega, .inr (by omega)⟩⟩

theorem Enters.settled (enters : Enters before request after) {reply : Reply}
    (first : request.id = key → after.state.asked key = 1 ∧ before.chances key = 0)
    (member : reply ∈ after.state.replies key) :
    reply ∈ before.state.replies key ∨ after.Barren key := by
  obtain ⟨held, incoming, _⟩ := enters.opens key
  have refused : request.id = key → after.opens key = before.opens key → after.Barren key := by
    intro same opens
    refine Bridge.barren_of_none (first same).1 ?_
    unfold Bridge.chances
    rw [held, incoming, opens]
    exact (first same).2
  cases enters with
  | busy =>
    rw [State.replies_post] at member
    refine (mem_append.mp member).imp_right fun member => ?_
    split at member
    · next same => exact refused same rfl
    · contradiction
  | refused =>
    rw [State.replies_post] at member
    rcases mem_append.mp member with member | member
    · left
      unfold State.reject at member
      split at member <;> exact member
    · split at member
      · next same => exact .inr (refused same rfl)
      · contradiction
  | uncaptured =>
    left
    unfold State.reject at member
    split at member <;> exact member
  | spawn | queue | awaken => exact .inl member

/-- What the threads and the replies of an id promise. -/
structure Bridge.Settled (bridge : Bridge) (key : Nat) : Prop where
  threads : ∀ thread ∈ bridge.threads, thread.Settled bridge key
  replies : ∀ reply ∈ bridge.state.replies key, reply.succeeded ∨ bridge.Barren key

theorem late_of_expired (sound : bridge.Sound) (member : key ∈ Bridge.expired bridge.state)
    (alone : bridge.state.asked key ≤ 1) : bridge.Late key := by
  obtain ⟨⟨id, flight⟩, here, same⟩ := mem_map.mp member
  obtain rfl : id = key := same
  obtain ⟨flying, late⟩ := mem_filter.mp here
  have flying := mem_toList_iff_getElem?_eq_some.mp flying
  have tokens := sound.tokens id
  unfold Bridge.tokens State.tokens State.flying at tokens
  rw [if_pos (mem_iff_isSome_getElem?.mpr (flying ▸ rfl))] at tokens
  refine ⟨by omega, by omega, fun other found => ?_⟩
  cases flying.symm.trans found
  simpa using late

theorem Enters.now (enters : Enters before request after) : after.state.now = before.state.now :=
  (enters.flights (Nat.succ_ne_self request.id).symm).1

/-- A request that is passed on brings no thread that has to answer already. -/
theorem Enters.idle (enters : Enters before request after) :
    ∀ thread ∈ after.threads, thread ∈ before.threads ∨ thread.idle := by
  cases enters with
  | spawn | awaken =>
    exact forall_concat (fun _ => .inl) (.inr rfl)
  | _ => exact fun _ => .inl

theorem Turns.settled (turns : Turns before after) (sound : before.Sound)
    (kept : before.state.asked key ≤ 1 → before.Settled key) (alone : after.state.asked key ≤ 1) :
    after.Settled key := by
  have barren := fun barren => turns.barren sound barren alone
  have late := fun late => turns.late late alone
  cases turns with
  | idle => exact kept alone
  | elapse =>
    obtain ⟨threads, replies⟩ := kept alone
    exact ⟨fun thread member => (threads thread member).mono late barren (Nat.le_add_right _ _),
      fun reply member => (replies reply member).imp_right barren⟩
  | take | lose =>
    obtain ⟨threads, replies⟩ := kept alone
    exact ⟨fun thread member => (threads thread member).mono late barren le_rfl,
      fun reply member => (replies reply member).imp_right barren⟩
  | drain =>
    obtain ⟨threads, replies⟩ := kept alone
    refine ⟨fun thread member => (threads thread member).mono late barren le_rfl,
      fun reply member => (replies reply ?_).imp_right barren⟩
    simpa [State.replies] using member
  | expire order =>
    obtain ⟨threads, replies⟩ := kept alone
    refine ⟨forall_concat (fun thread member => (threads thread member).mono late barren le_rfl) ?_,
      fun reply member => (replies reply member).imp_right barren⟩
    refine @Thread.Settled.next _ _ (.expiring _) fun member => late ?_
    exact late_of_expired sound (order.mem_iff.mp member) alone
  | @refuse request error =>
    have more := before.state.asked_issue request key
    change (before.state.issue request).asked key ≤ 1 at alone
    obtain ⟨threads, replies⟩ := kept (by omega)
    refine ⟨fun thread member => (threads thread member).mono late barren le_rfl, fun reply member => ?_⟩
    rw [State.replies_post] at member
    rcases mem_append.mp member with member | member
    · exact (replies reply member).imp_right barren
    · split at member
      · next same =>
        rw [if_pos same] at more
        have none := sound.chances key
        refine .inr (Bridge.barren_of_none ?_ ?_)
        · change (before.state.issue request).asked key = 1
          omega
        · change before.chances key = 0
          omega
      · contradiction
  | @arrive request =>
    have more := before.state.asked_issue request key
    change (before.state.issue request).asked key ≤ 1 at alone
    obtain ⟨threads, replies⟩ := kept (by omega)
    exact ⟨fun thread member => (threads thread member).mono late barren le_rfl,
      fun reply member => (replies reply member).imp_right barren⟩
  | @prepare request rest _ waiting enters =>
    have issued : after.state.asked key = before.state.asked key :=
      congrArg (countP _) (enters.tokens 0).2
    obtain ⟨threads, replies⟩ := kept (issued ▸ alone)
    have chances := sound.chances key
    refine ⟨fun thread member => (enters.idle thread member).elim (fun old => ?_) .idle,
      fun reply member => (enters.settled (fun same => ?_) member).elim (fun old => ?_) .inr⟩
    · exact (threads thread old).mono late barren enters.now.ge
    · unfold Bridge.chances at *
      rw [waiting, countP_cons, if_pos (decide_eq_true same)] at chances
      change _ ∧ rest.countP _ + before.state.held key + before.opens key = 0
      omega
    · exact (replies reply old).imp_right barren
  | @submit request _ direct placed enters =>
    have issued : after.state.asked key = (before.state.issue request).asked key :=
      congrArg (countP _) (enters.tokens 0).2
    have more := before.state.asked_issue request key
    obtain ⟨threads, replies⟩ := kept (by omega)
    have chances := sound.chances key
    refine ⟨fun thread member => (enters.idle thread member).elim (fun old => ?_) .idle,
      fun reply member => (enters.settled (fun same => ?_) member).elim (fun old => ?_) .inr⟩
    · exact (threads thread old).mono late barren enters.now.ge
    · rw [if_pos same] at more
      change _ ∧ before.chances key = 0
      omega
    · exact (replies reply old).imp_right barren
  | @move k thread state thread' at_k moves =>
    have alone' : before.state.asked key ≤ 1 :=
      (congrArg (countP _) (moves.tokens key).2).symm.trans_le alone
    obtain ⟨threads, replies⟩ := kept alone'
    obtain ⟨moved, answers⟩ := moves.settled sound at_k alone' (threads _ (mem_of_getElem? at_k))
    refine ⟨forall_set (fun thread member => (threads thread member).mono late barren ?_) moved,
      fun reply member => (answers reply member).elim (fun old => ?_) id⟩
    · exact moves.flights.1.ge
    · exact (replies reply old).imp_right barren

end Settling
end Chuzz.Gpu
