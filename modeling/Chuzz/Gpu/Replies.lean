import Chuzz.Gpu.Moves

/-! Every request is answered once. A request is a token: it waits for the document, it is in flight,
one thread is completing it, or it has been answered or closed. -/
namespace Chuzz.Gpu
open Std Library.Threads List ExtTreeMap

/-- Whether a completion has taken the flight of a request and still has it. -/
def Completion.owes (key : Nat) : Completion → Nat
  | .start .. => 0
  | .taken id .. | .cleaning id _ | .judged id .. | .reporting id .. | .posting id _ =>
    if id = key then 1 else 0

def Thread.owes (key : Nat) : Thread → Nat
  | .completing completion _ => completion.owes key
  | _ => 0

@[simp] theorem Next.owes_thread (next : Next) (key : Nat) : next.thread.owes key = 0 := by
  cases next <;> rfl

namespace State

/-- The replies for a request, with those that are still to be delivered. -/
def replies (self : State) (key : Nat) : List Reply :=
  ((self.delivered ++ self.ready).filter (·.1 = key)).map Prod.snd

def closings (self : State) (key : Nat) : List Closing :=
  (self.closed.filter (·.1 = key)).map Prod.snd

def asked (self : State) (key : Nat) : Nat := self.issued.countP (·.id = key)

def flying (self : State) (key : Nat) : Nat := if key ∈ self.inFlight then 1 else 0

/-- Where the requests of an id are, but for those that a thread has. -/
def tokens (self : State) (key : Nat) : Nat :=
  self.incoming.countP (·.id = key) + self.flying key + (self.replies key).length +
    (self.closings key).length

variable (self : State) (key : Nat) {id : Nat}

@[simp] theorem replies_post {reply : Reply} : (self.post id reply).replies key =
    self.replies key ++ if id = key then [reply] else [] := by
  by_cases same : id = key <;> simp [replies, post, same]

@[simp] theorem closings_close {closing : Closing} : (self.close id closing).closings key =
    self.closings key ++ if id = key then [closing] else [] := by
  by_cases same : id = key <;> simp [closings, close, same]

@[simp] theorem tokens_post {reply : Reply} : (self.post id reply).tokens key =
    self.tokens key + if id = key then 1 else 0 := by
  rw [tokens, tokens, replies_post]
  change _ + self.flying key + _ + (self.closings key).length = _
  by_cases same : id = key <;> simp [post, same]
  omega

@[simp] theorem tokens_close {closing : Closing} : (self.close id closing).tokens key =
    self.tokens key + if id = key then 1 else 0 := by
  rw [tokens, tokens, closings_close]
  change _ + self.flying key + (self.replies key).length + _ = _
  by_cases same : id = key <;> simp [close, same]
  omega

@[simp] theorem tokens_reject {request : Request} {error : GpuError} :
    (self.reject request error).tokens key = self.tokens key := by
  unfold reject
  split <;> rfl

theorem flying_erase {flight : Flight} (flying : self.inFlight[id]? = some flight) :
    (if key ∈ self.inFlight.erase id then 1 else 0) + (if id = key then 1 else 0) =
      self.flying key := by
  have known : id ∈ self.inFlight := by
    rw [mem_iff_isSome_getElem?, flying]
    rfl
  by_cases same : id = key
  · subst same
    simp [State.flying, known]
  · simp [State.flying, same]

theorem flying_insert (flight : Flight) (new : id ∉ self.inFlight) :
    (if key ∈ self.inFlight.insert id flight then 1 else 0) =
      self.flying key + if id = key then 1 else 0 := by
  by_cases same : id = key
  · subst same
    simp [State.flying, new]
  · simp [State.flying, same]

end State

theorem Completes.tokens {state after : State} {next : Next} {completion : Completion}
    {thread : Thread} (completes : Completes state next completion after thread) (key : Nat) :
    after.tokens key + thread.owes key = state.tokens key + completion.owes key ∧
      after.issued = state.issued := by
  cases completes with
  | take flying =>
    have erased := state.flying_erase key flying
    refine ⟨?_, rfl⟩
    simp only [State.tokens, State.flying, Thread.owes, Completion.owes] at *
    simp only [State.replies, State.closings] at *
    omega
  | capture | success | post => exact ⟨by simp [Completion.owes], rfl⟩
  | report =>
    refine ⟨?_, rfl⟩
    rw [State.tokens_close, Next.owes_thread]
    rfl
  | gone => exact ⟨by simp [Completion.owes], rfl⟩
  | _ => exact ⟨rfl, rfl⟩

theorem Moves.tokens {state after : State} {thread moved : Thread}
    (moves : Moves state thread after moved) (key : Nat) :
    after.tokens key + moved.owes key = state.tokens key + thread.owes key ∧
      after.issued = state.issued := by
  cases moves with
  | complete completes => exact completes.tokens key
  | skip | refuse =>
    refine ⟨by simp [Thread.owes, Completion.owes], ?_⟩
    unfold State.reject
    split <;> rfl
  | _ => exact ⟨rfl, rfl⟩

namespace Bridge
variable {before after bridge : Bridge} {request : Request} {key : Nat}

/-- What the page is still owed for an id. -/
def owed (self : Bridge) (key : Nat) : Nat :=
  self.state.incoming.countP (·.id = key) + self.state.flying key +
    total (Thread.owes key) self.threads

def tokens (self : Bridge) (key : Nat) : Nat :=
  self.state.tokens key + total (Thread.owes key) self.threads

theorem tokens_owed (self : Bridge) (key : Nat) : self.tokens key =
    self.owed key + (self.state.replies key).length + (self.state.closings key).length := by
  simp only [tokens, owed, State.tokens]
  omega

end Bridge

@[simp] theorem State.reject_issued (state : State) (request : Request) (error : GpuError) :
    (state.reject request error).issued = state.issued := by
  unfold State.reject
  split <;> rfl

theorem State.tokens_insert (state : State) {id : Nat} (flight : Flight) (key : Nat)
    (new : id ∉ state.inFlight) :
    { state with inFlight := state.inFlight.insert id flight }.tokens key =
      state.tokens key + if id = key then 1 else 0 := by
  have inserted := state.flying_insert key flight new
  simp only [State.tokens, State.flying] at *
  simp only [State.replies, State.closings] at *
  omega

theorem Enters.tokens {before after : Bridge} {request : Request}
    (enters : Enters before request after) (key : Nat) :
    after.tokens key = before.tokens key + (if request.id = key then 1 else 0) ∧
      after.state.issued = before.state.issued := by
  unfold Bridge.tokens
  cases enters with
  | busy => exact ⟨by simp; omega, rfl⟩
  | refused => exact ⟨by simp; omega, by simp [State.post]⟩
  | uncaptured => exact ⟨by simp; omega, by simp [State.close]⟩
  | @spawn flight _ _ new =>
    refine ⟨?_, rfl⟩
    have inserted := before.state.tokens_insert flight key new
    simp only [total_append, total_cons, total_nil, Thread.owes]
    omega
  | @queue flight _ _ new =>
    refine ⟨?_, rfl⟩
    have inserted := before.state.tokens_insert flight key new
    change State.tokens { before.state with inFlight := _ } key +
      total (Thread.owes key) before.threads = _
    dsimp only at *
    omega
  | @awaken flight _ _ new =>
    refine ⟨?_, rfl⟩
    have inserted := before.state.tokens_insert flight key new
    change State.tokens { before.state with inFlight := _ } key + _ = _
    simp only [total_append, total_cons, total_nil, Thread.owes]
    omega

theorem State.asked_issue (state : State) (request : Request) (key : Nat) :
    (state.issue request).asked key = state.asked key + if request.id = key then 1 else 0 := by
  simp [State.asked, State.issue, countP_append, countP_cons]

theorem Turns.tokens {before after : Bridge} (turns : Turns before after) {key : Nat}
    (kept : before.tokens key = before.state.asked key) :
    after.tokens key = after.state.asked key := by
  cases turns with
  | idle | elapse | take | lose => exact kept
  | @refuse request error =>
    have asked := before.state.asked_issue request key
    unfold Bridge.tokens at *
    rw [State.tokens_post]
    change before.state.tokens key + _ + total (Thread.owes key) before.threads =
      (before.state.issue request).asked key
    omega
  | @arrive request =>
    have asked := before.state.asked_issue request key
    unfold Bridge.tokens at *
    have more : State.tokens { before.state.issue request with
        incoming := before.state.incoming ++ [request] } key =
          before.state.tokens key + if request.id = key then 1 else 0 := by
      simp only [State.tokens, countP_append, countP_cons, countP_nil]
      change _ + before.state.flying key + _ + _ = _
      simp only [State.replies, State.closings, State.issue, decide_eq_true_eq]
      omega
    change _ = (before.state.issue request).asked key
    dsimp only at *
    omega
  | @prepare request rest _ waiting enters =>
    obtain ⟨entered, issued⟩ := enters.tokens key
    have fewer : before.state.tokens key =
        State.tokens { before.state with incoming := rest } key +
          if request.id = key then 1 else 0 := by
      simp only [State.tokens, waiting, countP_cons, decide_eq_true_eq]
      change _ + before.state.flying key + _ + _ = _ + before.state.flying key + _ + _ + _
      simp only [State.replies, State.closings]
      omega
    unfold Bridge.tokens at *
    rw [State.asked, issued]
    change _ = before.state.asked key
    dsimp only at *
    omega
  | @submit request _ direct placed enters =>
    obtain ⟨entered, issued⟩ := enters.tokens key
    have asked := before.state.asked_issue request key
    rw [State.asked, issued]
    change _ = (before.state.issue request).asked key
    change _ = before.tokens key + _ at entered
    omega
  | expire =>
    unfold Bridge.tokens at *
    rw [total_append]
    exact kept
  | drain =>
    unfold Bridge.tokens at *
    simpa [State.tokens, State.replies, State.closings, State.flying, State.asked] using kept
  | @move k thread state thread' at_k moves =>
    obtain ⟨moved, issued⟩ := moves.tokens key
    have counted := total_set (Thread.owes key) thread' at_k
    unfold Bridge.tokens State.asked at *
    rw [issued]
    dsimp only
    omega

/-- Some request of the id has been made for which `P` holds. -/
def Vouched (issued : List Request) (id : Nat) (P : Request → Prop) : Prop :=
  ∃ request ∈ issued, request.id = id ∧ P request

theorem Vouched.mono {issued more : List Request} {id : Nat} {P : Request → Prop}
    (vouched : Vouched issued id P) : Vouched (issued ++ more) id P :=
  let ⟨request, member, rest⟩ := vouched
  ⟨request, mem_append_left _ member, rest⟩

/-- A reply that may be given to a request. A fire command hears of its failure only. -/
def Reply.Answers (self : Reply) (request : Request) : Prop :=
  request.deliversReply ∧ (self.succeeded → request.fireDevice = none)

def Closing.Closes (self : Closing) (request : Request) : Prop :=
  match self with
  | .capture => ¬ request.deliversReply
  | .success | .report => request.fireDevice.isSome

/-- What a completion holds is of a request that has been made. -/
def Completion.Attested (issued : List Request) : Completion → Prop
  | .start .. => True
  | .taken id flight _ | .cleaning id flight | .judged id flight _ =>
    Vouched issued id flight.Serves
  | .reporting id flight .. => Vouched issued id flight.Serves ∧ flight.deliversReply
  | .posting id reply => Vouched issued id reply.Answers

def Thread.Attested (issued : List Request) : Thread → Prop
  | .picked request | .executing request | .commanding request _ | .finishing request _ =>
    request ∈ issued ∧ ¬ request.startup
  | .spawned request | .opening request | .waiting request => request ∈ issued ∧ request.startup
  | .completing completion _ => completion.Attested issued
  | _ => True

structure State.Attested (state : State) : Prop where
  incoming : ∀ request ∈ state.incoming, request ∈ state.issued
  requests : ∀ request ∈ state.requests, request ∈ state.issued ∧ ¬ request.startup
  flights : ∀ id flight, state.inFlight[id]? = some flight → Vouched state.issued id flight.Serves
  replies : ∀ entry ∈ state.delivered ++ state.ready, Vouched state.issued entry.1 entry.2.Answers
  closed : ∀ entry ∈ state.closed, Vouched state.issued entry.1 entry.2.Closes
  objects : ∀ id, id ∈ state.adapters ∨ id ∈ state.devices →
    Vouched state.issued id (·.startup)
  cutOff : ∀ place ∈ state.cutOff, ∃ request ∈ state.issued,
    request.place = place ∧ request.body = .capture
  places : ∀ (place : Nat) (request : Request), state.issued[place]? = some request →
    request.place = place

@[simp] theorem Next.attested_thread (next : Next) (issued : List Request) :
    next.thread.Attested issued := by
  cases next <;> trivial

namespace State.Attested
variable {state : State} {id : Nat}

theorem post (attested : state.Attested) {reply : Reply}
    (vouched : Vouched state.issued id reply.Answers) : (state.post id reply).Attested where
  __ := attested
  replies := by
    intro entry member
    simp only [State.post, ← append_assoc] at member
    rcases mem_append.mp member with member | member
    · exact attested.replies entry member
    · obtain rfl := mem_singleton.mp member
      exact vouched

theorem close (attested : state.Attested) {closing : Closing}
    (vouched : Vouched state.issued id closing.Closes) : (state.close id closing).Attested where
  __ := attested
  closed := by
    intro entry member
    rcases mem_append.mp member with member | member
    · exact attested.closed entry member
    · obtain rfl := mem_singleton.mp member
      exact vouched

theorem onConnection (attested : state.Attested) {address : Nat} {update : Tracked → Tracked} :
    (state.onConnection address update).Attested :=
  { attested with }

theorem reject (attested : state.Attested) {request : Request} {error : GpuError} :
    (state.reject request error).Attested := by
  unfold State.reject
  split
  · exact { attested with }
  · exact attested

end State.Attested

theorem Completes.attested {state after : State} {next : Next} {completion : Completion}
    {thread : Thread} (completes : Completes state next completion after thread)
    (attested : state.Attested) (held : completion.Attested state.issued) :
    after.Attested ∧ thread.Attested after.issued := by
  cases completes with
  | gone => exact ⟨attested, by simp⟩
  | take flying =>
    refine ⟨{ attested with flights := fun id flight found => ?_ }, attested.flights _ _ flying⟩
    rw [getElem?_erase] at found
    split at found
    · contradiction
    · exact attested.flights _ _ found
  | inTime | cleanUp | tooLate => exact ⟨attested, held⟩
  | clean =>
    refine ⟨{ attested with objects := fun id here => attested.objects id ?_ }, held⟩
    exact here.imp (fun here => (mem_erase.mp here).2)
      fun here => (mem_erase.mp here).2
  | capture silent =>
    obtain ⟨request, member, same, serves⟩ := held
    have silent : ¬ request.deliversReply := serves.deliversReply ▸ silent
    exact ⟨attested.close ⟨request, member, same, silent⟩, by simp⟩
  | success _ fire =>
    obtain ⟨request, member, same, serves⟩ := held
    have fire : request.fireDevice.isSome := serves.fireDevice ▸ fire
    exact ⟨attested.close ⟨request, member, same, fire⟩, by simp⟩
  | answer replies awaited =>
    obtain ⟨request, member, same, serves⟩ := held
    exact ⟨attested, request, member, same, serves.deliversReply ▸ replies,
      fun _ => serves.fireDevice ▸ awaited⟩
  | fail replies =>
    obtain ⟨request, member, same, serves⟩ := held
    exact ⟨attested, request, member, same, serves.deliversReply ▸ replies, nofun⟩
  | blame replies => exact ⟨{ attested with }, held, replies⟩
  | report fire =>
    obtain ⟨⟨request, member, same, serves⟩, _⟩ := held
    have fire : request.fireDevice.isSome := serves.fireDevice ▸ fire
    exact ⟨attested.onConnection.close ⟨request, member, same, fire⟩, by simp⟩
  | reportReply =>
    obtain ⟨⟨request, member, same, serves⟩, replies⟩ := held
    exact ⟨{ attested with }, request, member, same, serves.deliversReply ▸ replies, nofun⟩
  | post => exact ⟨attested.post held, by simp⟩

theorem Moves.attested {state after : State} {thread moved : Thread}
    (moves : Moves state thread after moved) (attested : state.Attested)
    (held : thread.Attested state.issued) : after.Attested ∧ moved.Attested after.issued := by
  cases moves with
  | complete completes => exact completes.attested attested held
  | pick next =>
    exact ⟨{ attested with requests := fun request member => attested.requests _ (next ▸ .tail _ member) },
      attested.requests _ (next ▸ .head _)⟩
  | skip => exact ⟨attested.reject, trivial⟩
  | refuse => exact ⟨attested.reject, trivial⟩
  | @cutCapture request _ asks =>
    exact ⟨{ attested with cutOff := forall_concat attested.cutOff ⟨request, held.1, rfl, asks⟩ }, held⟩
  | consume =>
    refine ⟨{ attested with objects := fun id here => attested.objects id ?_ }, held⟩
    exact here.imp_left fun here => (mem_erase.mp here).2
  | @insertAdapter request =>
    refine ⟨{ attested with objects := fun id here => ?_ }, trivial⟩
    rcases here with here | here
    · rcases mem_insert.mp here with same | here
      · exact ⟨request, held.1, Nat.compare_eq_eq.mp same, held.2⟩
      · exact attested.objects id (.inl here)
    · exact attested.objects id (.inr here)
  | @insertDevice request =>
    refine ⟨{ attested with objects := fun id here => ?_ }, trivial⟩
    rcases here with here | here
    · exact attested.objects id (.inl here)
    · rcases mem_insert.mp here with same | here
      · exact ⟨request, held.1, Nat.compare_eq_eq.mp same, held.2⟩
      · exact attested.objects id (.inr here)
  | rest | read | raise | run | cutCommand =>
    exact ⟨{ attested with }, by first | exact held | trivial⟩
  | _ => exact ⟨attested, by first | exact held | trivial⟩

namespace Bridge

structure Attested (bridge : Bridge) : Prop where
  state : bridge.state.Attested
  threads : ∀ thread ∈ bridge.threads, thread.Attested bridge.state.issued

end Bridge

theorem Thread.Attested.mono {issued more : List Request} {thread : Thread}
    (attested : thread.Attested issued) : thread.Attested (issued ++ more) := by
  cases thread with
  | picked | executing | commanding | finishing | spawned | opening | waiting =>
    exact ⟨mem_append_left _ attested.1, attested.2⟩
  | completing completion next =>
    cases completion with
    | start => trivial
    | reporting => exact ⟨attested.1.mono, attested.2⟩
    | _ => exact Vouched.mono attested
  | _ => trivial

section
variable {state : State} (attested : state.Attested) {request : Request}
include attested

theorem State.Attested.issue (placed : request.place = state.issued.length) : (state.issue request).Attested where
  incoming _ member := mem_append_left _ (attested.incoming _ member)
  requests _ member :=
    ⟨mem_append_left _ (attested.requests _ member).1, (attested.requests _ member).2⟩
  flights _ _ found := (attested.flights _ _ found).mono
  replies _ member := (attested.replies _ member).mono
  closed _ member := (attested.closed _ member).mono
  objects id here := (attested.objects id here).mono
  cutOff place member :=
    let ⟨request, made, rest⟩ := attested.cutOff place member
    ⟨request, mem_append_left _ made, rest⟩
  places := by
    intro place other found
    rcases Nat.lt_or_ge place state.issued.length with old | new
    · exact attested.places place other ((getElem?_append_left old).symm.trans found)
    · change (state.issued ++ [request])[place]? = some other at found
      rw [getElem?_append_right new, getElem?_singleton] at found
      split at found
      · next first =>
        cases found
        omega
      · contradiction

theorem State.Attested.fly {flight : Flight} (made : request ∈ state.issued) (serves : flight.Serves request) :
    { state with inFlight := state.inFlight.insert request.id flight }.Attested where
  __ := attested
  flights := by
    intro id found flying
    rw [ExtTreeMap.getElem?_insert] at flying
    split at flying
    · next same =>
      cases flying
      exact ⟨request, made, Nat.compare_eq_eq.mp same, serves⟩
    · exact attested.flights _ _ flying

theorem State.Attested.queue (made : request ∈ state.issued) (other : ¬ request.startup) :
    { state with requests := state.requests ++ [request] }.Attested where
  __ := attested
  requests := forall_concat attested.requests ⟨made, other⟩

end

theorem Enters.attested {before after : Bridge} {request : Request}
    (enters : Enters before request after) (attested : before.Attested)
    (made : request ∈ before.state.issued) : after.Attested := by
  cases enters with
  | busy startup =>
    refine ⟨attested.state.post ⟨request, made, rfl, ?_, nofun⟩, attested.threads⟩
    unfold Request.startup at startup
    unfold Request.deliversReply
    split at startup <;> simp_all
  | refused replies =>
    refine ⟨attested.state.reject.post ⟨request, ?_, rfl, replies, nofun⟩, ?_⟩
    · simpa using made
    · simpa [State.post] using attested.threads
  | uncaptured silent =>
    refine ⟨attested.state.reject.close ⟨request, ?_, rfl, silent⟩, ?_⟩
    · simpa using made
    · simpa [State.close] using attested.threads
  | spawn startup _ _ serves =>
    exact ⟨attested.state.fly made serves, forall_concat attested.threads ⟨made, startup⟩⟩
  | queue other _ _ serves =>
    exact ⟨(attested.state.fly made serves).queue made other, attested.threads⟩
  | awaken other _ _ serves =>
    have queued := (attested.state.fly made serves).queue made other
    exact ⟨{ queued with }, forall_concat attested.threads trivial⟩

theorem Turns.attested {before after : Bridge} (turns : Turns before after)
    (attested : before.Attested) : after.Attested := by
  obtain ⟨state, threads⟩ := attested
  have mono : ∀ more, ∀ thread ∈ before.threads, thread.Attested (before.state.issued ++ more) :=
    fun _ thread member => (threads thread member).mono
  cases turns with
  | idle => exact ⟨state, threads⟩
  | refuse page placed =>
    refine ⟨(state.issue placed).post ⟨_, mem_append_right _ (.head _), rfl, ?_, nofun⟩, mono _⟩
    unfold Request.direct at page
    unfold Request.deliversReply
    split at page <;> simp_all
  | arrive page placed =>
    exact ⟨{ state.issue placed with
      incoming := forall_concat (state.issue placed).incoming (mem_append_right _ (.head _)) },
      mono _⟩
  | prepare waiting enters =>
    refine enters.attested ⟨{ state with incoming := fun request member => ?_ }, threads⟩ ?_
    · exact state.incoming _ (waiting ▸ .tail _ member)
    · exact state.incoming _ (waiting ▸ .head _)
  | submit direct placed enters =>
    exact enters.attested ⟨state.issue placed, mono _⟩ (mem_append_right _ (.head _))
  | elapse | take | lose => exact ⟨{ state with }, threads⟩
  | expire =>
    exact ⟨state, forall_concat threads trivial⟩
  | drain => exact ⟨{ state with replies := by simpa using state.replies }, threads⟩
  | move at_k moves =>
    have ⟨after, moved⟩ := moves.attested state (threads _ (mem_of_getElem? at_k))
    refine ⟨after, forall_set (fun thread member => ?_) moved⟩
    rw [(moves.tokens 0).2]
    exact threads thread member

end Chuzz.Gpu
