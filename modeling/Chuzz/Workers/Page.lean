import Chuzz.Workers.Endpoint

/-! The page's side of its workers: the table, the calls of `postMessage` and `terminate`,
and the poll hook. Only one of these runs at a time, between steps of the workers' threads;
a message is encoded, and a delivery decoded, with page scripts running. -/
namespace Chuzz.Workers
open Library.Transition List
variable {W : Type}

def deliveriesPerPoll : Nat := 64

/-- Native code of the page's thread that runs no script. -/
inductive Native (W : Type) where
  | idle
  /-- `post` has seen that the worker still takes messages. -/
  | posting (id : Nat) (wire : W)
  /-- `terminate` has taken the worker out of the table. -/
  | removed (id : Nat)
  | canceled (id : Nat)
deriving DecidableEq, Repr

structure Page (W : Type) where
  nextId : Nat := 1
  endpoints : Nat → Endpoint W := fun _ => {}
  workers : List Nat := []
  /-- The script's own table, `workers` of `page.ts`. -/
  shim : List Nat := []
  ready : List (Nat × Output W) := []
  native : Native W := .idle
  /-- Calls of `post` that have found their worker and encode their message. -/
  encoding : List (Nat × W) := []
  /-- What a poll has taken, and the output of it that is being decoded. -/
  batch : List (Nat × Output W) := []
  decoding : Option (Nat × Output W) := none
  /-- The removals from the table so far. -/
  removals : List Nat := []

inductive Step (W : Type) where
  | create
  | act (id : Nat) (act : Act W)
  /-- The answer of a worker's fetch comes in. -/
  | fetched (id : Nat)
  | post (id : Nat) (wire : W)
  | encoded (call : Nat × W)
  /-- The native code of the page's thread goes on. -/
  | resume
  | terminate (id : Nat)
  | poll
  | next
  | decoded
deriving DecidableEq, Repr

namespace Page

/-- The numbers of the workers that were created. -/
def Known (page : Page W) (id : Nat) : Prop := 0 < id ∧ id < page.nextId

instance (page : Page W) (id : Nat) : Decidable (page.Known id) :=
  inferInstanceAs (Decidable (_ ∧ _))

def modify (page : Page W) (id : Nat) (change : Endpoint W → Endpoint W) : Page W :=
  { page with endpoints := Function.update page.endpoints id (change (page.endpoints id)) }

/-- Takes a worker out of the table. -/
def remove (page : Page W) (id : Nat) : Page W :=
  { page with
    workers := page.workers.filter (· ≠ id)
    removals := if id ∈ page.workers then page.removals ++ [id] else page.removals }

def create (page : Page W) : Page W :=
  { page with
    nextId := page.nextId + 1, workers := page.nextId :: page.workers
    shim := page.nextId :: page.shim
    endpoints := Function.update page.endpoints page.nextId {} }

/-- A step of a worker's thread, which may push an output. -/
def act (page : Page W) (id : Nat) (act : Act W) : Page W :=
  let endpoint := page.endpoints id
  { page.modify id (·.act act) with
    ready := page.ready ++ (endpoint.pushed act).map fun output => (id, output) }

/-- `postMessage`, up to the encoding of the message. -/
def post (page : Page W) (id : Nat) (wire : W) : Page W :=
  if id ∈ page.workers then { page with encoding := page.encoding ++ [(id, wire)] } else page

/-- The checks of `post` once the message is encoded. -/
def encoded [DecidableEq W] (page : Page W) (call : Nat × W) : Page W :=
  if call ∈ page.encoding then
    let endpoint := page.endpoints call.1
    { page with
      encoding := page.encoding.erase call
      native := if endpoint.stopped || endpoint.closing then .idle else .posting call.1 call.2 }
  else page

/-- `terminate` of the script's worker, whose table is changed last. -/
def returned (page : Page W) (id : Nat) : Page W :=
  { page.modify id ({ · with terminated := true }) with
    shim := page.shim.filter (· ≠ id), native := .idle }

def takeOut (page : Page W) (id : Nat) : Page W := { page.remove id with native := .removed id }

def cancel (page : Page W) (id : Nat) : Page W :=
  { page.modify id ({ · with canceled := true }) with native := .canceled id }

def terminate (page : Page W) (id : Nat) : Page W :=
  if id ∈ page.workers then page.takeOut id else page.returned id

/-- The message of a call of `post` is pushed. -/
def push (page : Page W) (id : Nat) (wire : W) : Page W :=
  { page.modify id fun endpoint => { endpoint with
      inbox := endpoint.inbox ++ [.message wire], sent := endpoint.sent ++ [wire] } with
    native := .idle }

def clear (page : Page W) (id : Nat) : Page W := page.modify id ({ · with inbox := [] })

def resume (page : Page W) : Page W :=
  match page.native with
  | .idle => page
  | .posting id wire => page.push id wire
  | .removed id => page.cancel id
  | .canceled id => (page.clear id).returned id

/-- The queue is drained into the batch of one poll. -/
def poll (page : Page W) : Page W :=
  if page.batch = [] ∧ page.decoding = none then
    { page with
      batch := page.ready.take deliveriesPerPoll, ready := page.ready.drop deliveriesPerPoll }
  else page

def deliver (page : Page W) (id : Nat) (output : Output W) : Page W :=
  page.modify id fun endpoint => { endpoint with delivered := endpoint.delivered ++ [output] }

/-- The delivery of a worker's last output, which ends its entries in the tables. -/
def close (page : Page W) (id : Nat) : Page W :=
  { (page.remove id).deliver id .closed with shim := page.shim.filter (· ≠ id) }

/-- The next delivery of the batch, up to its decoding. -/
def next (page : Page W) : Page W :=
  match page.decoding, page.batch with
  | none, (id, output) :: batch =>
    if (page.endpoints id).canceled then { page with batch }
    else
      match output with
      | .closed => { page with batch }.close id
      | output => { page with batch, decoding := some (id, output) }
  | _, _ => page

/-- `__chuzzWorkerDeliver` -/
def decoded (page : Page W) : Page W :=
  match page.decoding with
  | some (id, output) =>
    let page := { page with decoding := none }
    if id ∈ page.shim then page.deliver id output else page
  | none => page

variable [DecidableEq W]

def perform (page : Page W) : Step W → Page W
  | .act id act => if page.Known id then page.act id act else page
  | .fetched id => page.modify id fun endpoint => { endpoint with
      inbox := endpoint.inbox ++ [.fetch] }
  | .resume => page.resume
  | step =>
    if page.native = .idle then
      match step with
      | .create => page.create
      | .post id wire => page.post id wire
      | .encoded call => page.encoded call
      | .terminate id => if page.Known id then page.terminate id else page
      | .poll => page.poll
      | .next => page.next
      | _ => page.decoded
    else page

def Reached : Page W → Prop :=
  Reachable (· = {}) fun before step after => before.perform step = after

omit [DecidableEq W]

/-- The outputs that the poll hook has still to look at, oldest first. -/
def inFlight (page : Page W) : List (Nat × Output W) :=
  page.decoding.toList ++ (page.batch ++ page.ready)

def queue (page : Page W) (id : Nat) : List (Output W) :=
  (page.inFlight.filter (·.1 = id)).map (·.2)

/-- How a worker's history, the table and the queue hang together. -/
structure Linked (page : Page W) (id : Nat) : Prop where
  orderly : (page.endpoints id).Orderly
  flow : ((page.endpoints id).delivered ++ page.queue id).Sublist (page.endpoints id).posted
  whole : (page.endpoints id).canceled = false →
    (page.endpoints id).delivered ++ page.queue id = (page.endpoints id).posted
  /-- Only a call of `terminate` or the worker's end takes it out of the table. -/
  gone : page.Known id → id ∉ page.workers → (page.endpoints id).canceled = true ∨
    .closed ∈ (page.endpoints id).delivered ∨ page.native = .removed id
  forgotten : page.Known id → id ∉ page.shim → (page.endpoints id).canceled = true ∨
    .closed ∈ (page.endpoints id).delivered
  terminated : (page.endpoints id).terminated = true → id ∉ page.shim
  canceled : page.native = .canceled id → (page.endpoints id).canceled = true
  closed : .closed ∈ (page.endpoints id).delivered → (page.endpoints id).canceled = false ∧
    id ∉ page.workers ∧ page.native ≠ .removed id
  counted : page.Known id → page.removals.count id + page.workers.count id = 1
  fresh : ¬ page.Known id → page.queue id = [] ∧ page.workers.count id = 0 ∧
    page.removals.count id = 0 ∧ id ∉ page.shim

/-- What `Linked` reads of the page beside the endpoint and the queue. -/
structure Beside (before after : Page W) (id : Nat) : Prop where
  nextId : after.nextId = before.nextId
  workers : after.workers.count id = before.workers.count id
  removals : after.removals.count id = before.removals.count id
  shim : id ∈ after.shim ↔ id ∈ before.shim
  removed : after.native = .removed id ↔ before.native = .removed id
  canceled : after.native = .canceled id ↔ before.native = .canceled id

variable {page after : Page W} {id : Nat}

theorem Beside.known (beside : Beside page after id) : after.Known id ↔ page.Known id := by
  rw [Known, Known, beside.nextId]

theorem Beside.table (beside : Beside page after id) : id ∈ after.workers ↔ id ∈ page.workers := by
  rw [← count_pos_iff, ← count_pos_iff, beside.workers]

theorem Linked.change (linked : page.Linked id) (beside : Beside page after id)
    {endpoint : Endpoint W} (changed : after.endpoints id = endpoint) (orderly : endpoint.Orderly)
    (canceled : endpoint.canceled = (page.endpoints id).canceled)
    (terminated : endpoint.terminated = (page.endpoints id).terminated)
    (flow : (endpoint.delivered ++ after.queue id).Sublist endpoint.posted)
    (whole : endpoint.canceled = false → endpoint.delivered ++ after.queue id = endpoint.posted)
    (closed : .closed ∈ endpoint.delivered ↔ .closed ∈ (page.endpoints id).delivered)
    (fresh : ¬ page.Known id → after.queue id = []) : after.Linked id := by
  subst changed
  constructor
  · exact orderly
  · exact flow
  · exact whole
  · intro below outside
    rw [canceled, closed, beside.removed]
    exact linked.gone (beside.known.mp below) (beside.table.not.mp outside)
  · intro below outside
    rw [canceled, closed]
    exact linked.forgotten (beside.known.mp below) (beside.shim.not.mp outside)
  · exact fun ended => beside.shim.not.mpr (linked.terminated (terminated ▸ ended))
  · exact fun native => canceled ▸ linked.canceled (beside.canceled.mp native)
  · intro ended
    rw [canceled, beside.table, Ne, beside.removed]
    exact linked.closed (closed.mp ended)
  · intro below
    rw [beside.workers, beside.removals]
    exact linked.counted (beside.known.mp below)
  · intro above
    rw [beside.workers, beside.removals, beside.shim]
    have above := beside.known.not.mp above
    exact ⟨fresh above, (linked.fresh above).2⟩

theorem Linked.frame (linked : page.Linked id) (beside : Beside page after id)
    (same : after.endpoints id = page.endpoints id) (queue : after.queue id = page.queue id) :
    after.Linked id := by
  apply linked.change beside same linked.orderly rfl rfl
  · rw [queue]
    exact linked.flow
  · rw [queue]
    exact linked.whole
  · rfl
  · exact fun above => queue.trans (linked.fresh above).1

theorem modify_self (page : Page W) (id : Nat) (change : Endpoint W → Endpoint W) :
    (page.modify id change).endpoints id = change (page.endpoints id) :=
  Function.update_self ..

variable {other : Nat}

theorem modify_other (apart : other ≠ id) (change : Endpoint W → Endpoint W) :
    (page.modify id change).endpoints other = page.endpoints other :=
  Function.update_of_ne apart ..

theorem Linked.modify (linked : page.Linked other) (change : Endpoint W → Endpoint W)
    (ends : after.endpoints = (page.modify id change).endpoints)
    (flight : after.inFlight = page.inFlight)
    (orderly : (page.endpoints id).Orderly → (change (page.endpoints id)).Orderly)
    (history : (change (page.endpoints id)).history = (page.endpoints id).history)
    (beside : Beside page after other) : after.Linked other := by
  have queue : after.queue other = page.queue other := by rw [Page.queue, Page.queue, flight]
  by_cases same : other = id
  · subst same
    simp only [Endpoint.history, Prod.mk.injEq] at history
    obtain ⟨canceled, posted, delivered, terminated⟩ := history
    apply linked.change beside ((congrFun ends other).trans (modify_self page other change))
      (orderly linked.orderly) canceled terminated
    · rw [delivered, posted, queue]
      exact linked.flow
    · rw [canceled, delivered, posted, queue]
      exact linked.whole
    · rw [delivered]
    · exact fun above => queue.trans (linked.fresh above).1
  · exact linked.frame beside ((congrFun ends other).trans (modify_other same change)) queue

theorem Linked.act (linked : page.Linked other) (known : page.Known id) (act : Act W) :
    (page.act id act).Linked other := by
  have beside : Beside page (page.act id act) other := ⟨rfl, rfl, rfl, .rfl, .rfl, .rfl⟩
  have queue : (page.act id act).queue other = page.queue other ++
      if other = id then (page.endpoints id).pushed act else [] := by
    simp only [Page.queue, inFlight, Page.act, Page.modify, ← append_assoc, filter_append,
      map_append]
    congr 1
    split
    · rename_i same
      simp [same, filter_map, Function.comp_def]
    · rename_i apart
      simp [filter_map, Function.comp_def, Ne.symm apart]
  by_cases same : other = id
  · subst same
    rw [if_pos rfl] at queue
    have history := Endpoint.act_history (page.endpoints other) act
    simp only [Endpoint.history, Prod.mk.injEq] at history
    obtain ⟨canceled, posted, delivered, terminated⟩ := history
    apply linked.change beside (modify_self page other (·.act act)) (linked.orderly.act act)
      canceled terminated
    · rw [delivered, posted, queue, ← append_assoc]
      exact linked.flow.append (List.Sublist.refl _)
    · rw [delivered, posted, queue, canceled, ← append_assoc]
      exact fun running => by rw [linked.whole running]
    · rw [delivered]
    · exact fun above => absurd known above
  · rw [if_neg same, append_nil] at queue
    exact linked.frame beside (modify_other same (·.act act)) queue

theorem start_linked (id : Nat) : ({} : Page W).Linked id := by
  have nothing : ¬ ({} : Page W).Known id := by
    rintro ⟨above, below⟩
    have below : id < 1 := below
    omega
  constructor
  · exact Endpoint.start_orderly
  · exact List.Sublist.refl _
  · exact fun _ => rfl
  · exact fun known => absurd known nothing
  · exact fun known => absurd known nothing
  · exact fun ended => by cases ended
  · exact fun native => by cases native
  · exact fun ended => by cases ended
  · exact fun known => absurd known nothing
  · exact fun _ => ⟨rfl, rfl, rfl, not_mem_nil⟩

theorem Linked.create (linked : page.Linked other) (idle : page.native = .idle)
    (above : 0 < page.nextId) : page.create.Linked other := by
  have queue : page.create.queue other = page.queue other := rfl
  by_cases same : other = page.nextId
  · have nothing : ¬ page.Known other := fun known => by
      have below := known.2
      omega
    obtain ⟨nothing, unlisted, unremoved, unknown⟩ := linked.fresh nothing
    have endpoint : page.create.endpoints other = {} := by
      rw [same]
      exact Function.update_self ..
    constructor
    · exact endpoint ▸ Endpoint.start_orderly
    · rw [endpoint, queue, nothing]
      exact List.Sublist.refl _
    · rw [endpoint, queue, nothing]
      exact fun _ => rfl
    · exact fun _ outside => absurd (same ▸ mem_cons_self) outside
    · exact fun _ outside => absurd (same ▸ mem_cons_self) outside
    · rw [endpoint]
      exact fun ended => by cases ended
    · exact fun native => by simp [Page.create, idle] at native
    · rw [endpoint]
      exact fun ended => by cases ended
    · intro _
      rw [Page.create, same, count_cons_self, ← same, unlisted, unremoved]
    · intro fresh
      exact absurd ⟨same ▸ above, by rw [same]; exact Nat.lt_succ_self _⟩ fresh
  · have known : page.create.Known other ↔ page.Known other := by
      simp only [Known, Page.create]
      omega
    have endpoint : page.create.endpoints other = page.endpoints other :=
      Function.update_of_ne same ..
    have listed : ∀ rest : List Nat, other ∈ page.nextId :: rest ↔ other ∈ rest := by
      simp [same]
    have counted : page.create.workers.count other = page.workers.count other :=
      count_cons_of_ne (Ne.symm same)
    constructor
    · exact endpoint ▸ linked.orderly
    · rw [endpoint, queue]
      exact linked.flow
    · rw [endpoint, queue]
      exact linked.whole
    · rw [endpoint, known]
      exact fun inside outside => linked.gone inside ((listed _).not.mp outside)
    · rw [endpoint, known]
      exact fun inside outside => linked.forgotten inside ((listed _).not.mp outside)
    · rw [endpoint]
      exact fun ended => (listed _).not.mpr (linked.terminated ended)
    · rw [endpoint]
      exact linked.canceled
    · rw [endpoint]
      exact fun ended => ⟨(linked.closed ended).1, (listed _).not.mpr (linked.closed ended).2.1,
        (linked.closed ended).2.2⟩
    · rw [known, counted]
      exact linked.counted
    · rw [known, counted, queue]
      intro fresh
      obtain ⟨nothing, unlisted, unremoved, unknown⟩ := linked.fresh fresh
      exact ⟨nothing, unlisted, unremoved, (listed _).not.mpr unknown⟩

theorem mem_without {items : List Nat} (apart : other ≠ id) :
    other ∈ items.filter (· ≠ id) ↔ other ∈ items := by
  simp [apart]

theorem count_without {items : List Nat} (apart : other ≠ id) :
    (items.filter (· ≠ id)).count other = items.count other :=
  count_filter (by simpa using apart)

theorem count_self (items : List Nat) (id : Nat) : (items.filter (· ≠ id)).count id = 0 := by
  rw [count_eq_zero, mem_filter]
  simp

theorem count_removals (apart : other ≠ id) :
    (page.remove id).removals.count other = page.removals.count other := by
  rw [remove]
  split
  · rw [count_append, count_singleton]
    simp [Ne.symm apart]
  · rfl

theorem Linked.removed (linked : page.Linked id) (known : page.Known id) :
    (page.remove id).removals.count id = 1 := by
  have counted := linked.counted known
  rw [remove]
  dsimp only
  split
  · rename_i listed
    have positive := count_pos_iff.mpr listed
    rw [count_append, count_singleton_self]
    omega
  · rename_i unlisted
    have none := count_eq_zero.mpr unlisted
    omega

theorem Linked.known (linked : page.Linked id) (listed : id ∈ page.workers) : page.Known id := by
  by_contra unknown
  have none := (linked.fresh unknown).2.1
  exact count_eq_zero.mp none listed

section
variable (linked : page.Linked other)
include linked

/-- `terminate` takes the worker out of the table. -/
theorem Linked.takeOut (idle : page.native = .idle)
    (listed : id ∈ page.workers) : (page.takeOut id).Linked other := by
  by_cases same : other = id
  · subst same
    have known := linked.known listed
    have unclosed : .closed ∉ (page.endpoints other).delivered := fun closed =>
      (linked.closed closed).2.1 listed
    constructor
    · exact linked.orderly
    · exact linked.flow
    · exact linked.whole
    · exact fun _ _ => .inr (.inr rfl)
    · exact linked.forgotten
    · exact linked.terminated
    · exact fun native => by cases native
    · exact fun closed => absurd closed unclosed
    · exact fun _ => by
        rw [show (page.takeOut other).removals = (page.remove other).removals from rfl,
          linked.removed known]
        exact congrArg (1 + ·) (count_self _ _)
    · exact fun unknown => absurd known unknown
  · have beside : Beside page (page.takeOut id) other := by
      refine ⟨rfl, count_without same, count_removals same, .rfl, ?_, ?_⟩
      · simp [Page.takeOut, idle, Ne.symm same]
      · simp [Page.takeOut, idle]
    exact linked.frame beside rfl rfl

theorem Linked.cancel (native : page.native = .removed id) : (page.cancel id).Linked other := by
  by_cases same : other = id
  · subst same
    have endpoint : (page.cancel other).endpoints other =
        { page.endpoints other with canceled := true } :=
      modify_self page other ({ · with canceled := true })
    constructor
    · exact endpoint ▸ { linked.orderly with }
    · rw [endpoint]
      exact linked.flow
    · rw [endpoint]
      exact fun running => by cases running
    · rw [endpoint]
      exact fun _ _ => .inl rfl
    · rw [endpoint]
      exact fun _ _ => .inl rfl
    · rw [endpoint]
      exact linked.terminated
    · rw [endpoint]
      exact fun _ => rfl
    · rw [endpoint]
      exact fun closed => absurd native (linked.closed closed).2.2
    · exact linked.counted
    · exact linked.fresh
  · have beside : Beside page (page.cancel id) other := by
      refine ⟨rfl, rfl, rfl, .rfl, ?_, ?_⟩
      · simp [Page.cancel, native, Ne.symm same]
      · simp [Page.cancel, native, Ne.symm same]
    exact linked.frame beside (modify_other same ({ · with canceled := true })) rfl

/-- A call of `terminate` returns. -/
theorem Linked.returned (native : page.native = .idle ∨ page.native = .canceled id)
    (ends : other = id → (page.endpoints id).canceled = true ∨
      .closed ∈ (page.endpoints id).delivered) : (page.returned id).Linked other := by
  have unremoved : ∀ id, page.native ≠ .removed id := by
    rcases native with native | native <;> simp [native]
  by_cases same : other = id
  · subst same
    have endpoint : (page.returned other).endpoints other =
        { page.endpoints other with terminated := true } :=
      modify_self page other ({ · with terminated := true })
    constructor
    · exact endpoint ▸ { linked.orderly with }
    · rw [endpoint]
      exact linked.flow
    · rw [endpoint]
      exact linked.whole
    · rw [endpoint]
      intro known outside
      rcases linked.gone known outside with canceled | closed | removed
      · exact .inl canceled
      · exact .inr (.inl closed)
      · exact absurd removed (unremoved other)
    · rw [endpoint]
      exact fun _ _ => ends rfl
    · exact fun _ member => by simp [Page.returned] at member
    · exact fun busy => by cases busy
    · rw [endpoint]
      intro closed
      exact ⟨(linked.closed closed).1, (linked.closed closed).2.1, by simp [Page.returned]⟩
    · exact linked.counted
    · intro unknown
      obtain ⟨nothing, unlisted, unremoved, _⟩ := linked.fresh unknown
      exact ⟨nothing, unlisted, unremoved, by simp [Page.returned]⟩
  · have beside : Beside page (page.returned id) other := by
      refine ⟨rfl, rfl, rfl, mem_without same, ?_, ?_⟩
      · simp [Page.returned, unremoved]
      · rcases native with native | native
        · simp [Page.returned, native]
        · simp [Page.returned, native, Ne.symm same]
    exact linked.frame beside (modify_other same ({ · with terminated := true })) rfl

theorem Linked.clear (id : Nat) : (page.clear id).Linked other :=
  linked.modify ({ · with inbox := [] }) rfl rfl (fun orderly => orderly.clear) rfl
    ⟨rfl, rfl, rfl, .rfl, .rfl, .rfl⟩

theorem Linked.push {wire : W}
    (native : page.native = .posting id wire) : (page.push id wire).Linked other := by
  have beside : Beside page (page.push id wire) other := by
    refine ⟨rfl, rfl, rfl, .rfl, ?_, ?_⟩
    · simp [Page.push, native]
    · simp [Page.push, native]
  exact linked.modify (fun endpoint => { endpoint with
      inbox := endpoint.inbox ++ [.message wire], sent := endpoint.sent ++ [wire] })
    rfl rfl (fun orderly => orderly.receive (.message wire)) rfl beside

end

theorem Linked.resume (all : ∀ id, page.Linked id) : page.resume.Linked other := by
  have linked := all other
  unfold Page.resume
  split
  · exact linked
  · exact linked.push ‹_›
  · exact linked.cancel ‹_›
  · rename_i id native
    apply (linked.clear id).returned (.inr native)
    rintro rfl
    have canceled := linked.canceled native
    have endpoint : (page.clear other).endpoints other = { page.endpoints other with inbox := [] } :=
      modify_self page other ({ · with inbox := [] })
    rw [endpoint]
    exact .inl canceled

theorem Linked.drained (linked : page.Linked id)
    (closed : .closed ∈ (page.endpoints id).delivered) : page.queue id = [] := by
  have whole := linked.whole (linked.closed closed).1
  have posted : .closed ∈ (page.endpoints id).posted := whole ▸ mem_append_left _ closed
  obtain ⟨_, _, others, last, fresh⟩ := linked.orderly.ended posted
  rcases eq_nil_or_concat (page.queue id) with nothing | ⟨earlier, final, more⟩
  · exact nothing
  · rw [last, more, concat_eq_append, ← append_assoc] at whole
    have same := (append_inj' whole rfl).1
    exact absurd (same ▸ mem_append_left _ closed) fresh

theorem Linked.poll (linked : page.Linked id) : page.poll.Linked id := by
  by_cases empty : page.batch = [] ∧ page.decoding = none
  · have beside : Beside page page.poll id := by
      rw [Page.poll, if_pos empty]
      exact ⟨rfl, rfl, rfl, .rfl, .rfl, .rfl⟩
    apply linked.frame beside
    · rw [Page.poll, if_pos empty]
    · rw [Page.poll, if_pos empty]
      simp [Page.queue, inFlight, empty]
  · rw [Page.poll, if_neg empty]
    exact linked

section
variable (linked : page.Linked other)
include linked

theorem Linked.drop (beside : Beside page after other)
    (same : after.endpoints = page.endpoints) {output : Output W}
    (head : page.inFlight = (id, output) :: after.inFlight)
    (canceled : other = id → (page.endpoints id).canceled = true) : after.Linked other := by
  have endpoint := congrFun same other
  by_cases here : other = id
  · subst here
    have queue : page.queue other = output :: after.queue other := by
      simp [Page.queue, head]
    apply linked.change beside endpoint linked.orderly rfl rfl
    · refine List.Sublist.trans ?_ linked.flow
      rw [queue]
      exact (sublist_cons_self _ _).append_left _
    · rw [canceled rfl]
      exact fun running => by cases running
    · rfl
    · intro unknown
      have nothing := (linked.fresh unknown).1
      rw [queue] at nothing
      cases nothing
  · have queue : after.queue other = page.queue other := by
      simp [Page.queue, head, Ne.symm here]
    exact linked.frame beside endpoint queue

theorem Linked.deliver (beside : Beside page after other)
    {output : Output W} (ends : after.endpoints = (page.deliver id output).endpoints)
    (head : page.inFlight = (id, output) :: after.inFlight) (open_ : output ≠ .closed) :
    after.Linked other := by
  have endpoint := congrFun ends other
  by_cases here : other = id
  · subst here
    have queue : page.queue other = output :: after.queue other := by
      simp [Page.queue, head]
    have same : after.endpoints other = { page.endpoints other with
        delivered := (page.endpoints other).delivered ++ [output] } :=
      endpoint.trans (modify_self page other _)
    apply linked.change beside same { linked.orderly with } rfl rfl
    · have flow := linked.flow
      rw [queue] at flow
      simpa using flow
    · have whole := linked.whole
      rw [queue] at whole
      simpa using whole
    · simp [Ne.symm open_]
    · intro unknown
      have nothing := (linked.fresh unknown).1
      rw [queue] at nothing
      cases nothing
  · have queue : after.queue other = page.queue other := by
      simp [Page.queue, head, Ne.symm here]
    exact linked.frame beside (endpoint.trans (modify_other here _)) queue

theorem Linked.close (idle : page.native = .idle)
    {batch : List (Nat × Output W)} (decoding : page.decoding = none)
    (head : page.batch = (id, .closed) :: batch) (running : (page.endpoints id).canceled = false) :
    ({ page with batch }.close id : Page W).Linked other := by
  have flight : page.inFlight =
      (id, .closed) :: ({ page with batch }.close id : Page W).inFlight := by
    simp [inFlight, Page.close, Page.deliver, Page.remove, Page.modify, decoding, head]
  by_cases here : other = id
  · subst here
    have queue : page.queue other =
        .closed :: ({ page with batch }.close other : Page W).queue other := by
      simp [Page.queue, flight]
    have same : ({ page with batch }.close other : Page W).endpoints other =
        { page.endpoints other with
          delivered := (page.endpoints other).delivered ++ [.closed] } :=
      modify_self page other fun endpoint => { endpoint with
        delivered := endpoint.delivered ++ [.closed] }
    have known : page.Known other := by
      by_contra unknown
      have nothing := (linked.fresh unknown).1
      rw [queue] at nothing
      cases nothing
    constructor
    · exact same ▸ { linked.orderly with }
    · rw [same]
      have flow := linked.flow
      rw [queue] at flow
      simpa using flow
    · rw [same]
      have whole := linked.whole
      rw [queue] at whole
      simpa using whole
    · rw [same]
      exact fun _ _ => .inr (.inl (by simp))
    · rw [same]
      exact fun _ _ => .inr (by simp)
    · exact fun _ member => by simp [Page.close] at member
    · exact fun native => by simp [Page.close, Page.deliver, Page.remove, Page.modify, idle] at native
    · rw [same]
      refine fun _ => ⟨running, ?_, ?_⟩
      · simp [Page.close, Page.deliver, Page.remove, Page.modify]
      · simp [Page.close, Page.deliver, Page.remove, Page.modify, idle]
    · intro _
      have once := linked.removed known
      exact (congrArg (· + _) once).trans (congrArg (1 + ·) (count_self _ _))
    · exact fun unknown => absurd known unknown
  · have beside : Beside page ({ page with batch }.close id) other :=
      ⟨rfl, count_without here, count_removals here, mem_without here, .rfl, .rfl⟩
    have queue : ({ page with batch }.close id : Page W).queue other = page.queue other := by
      simp [Page.queue, flight, Ne.symm here]
    have same : ({ page with batch }.close id : Page W).endpoints other = page.endpoints other :=
      modify_other here fun endpoint => { endpoint with
        delivered := endpoint.delivered ++ [.closed] }
    exact linked.frame beside same queue

theorem Linked.next (idle : page.native = .idle) : page.next.Linked other := by
  unfold Page.next
  split
  · rename_i id output batch decoding head
    have flight : page.inFlight = (id, output) :: ({ page with batch } : Page W).inFlight := by
      simp [inFlight, decoding, head]
    split
    · rename_i canceled
      exact linked.drop ⟨rfl, rfl, rfl, .rfl, .rfl, .rfl⟩ rfl flight fun _ => canceled
    · rename_i running
      split
      · exact linked.close idle decoding head (by simpa using running)
      · have beside : Beside page { page with batch, decoding := some (id, output) } other :=
          ⟨rfl, rfl, rfl, .rfl, .rfl, .rfl⟩
        exact linked.frame beside rfl (by simp [Page.queue, inFlight, decoding, head])
  · exact linked

end

theorem Linked.decoded (all : ∀ id, page.Linked id)
    (plain : ∀ id output, page.decoding = some (id, output) → output ≠ .closed) :
    page.decoded.Linked other := by
  have linked := all other
  unfold Page.decoded
  split
  · rename_i id output decoding
    have flight : page.inFlight =
        (id, output) :: ({ page with decoding := none } : Page W).inFlight := by
      simp [inFlight, decoding]
    dsimp only
    split
    · exact linked.deliver ⟨rfl, rfl, rfl, .rfl, .rfl, .rfl⟩ rfl flight (plain id output decoding)
    · rename_i forgotten
      refine linked.drop ⟨rfl, rfl, rfl, .rfl, .rfl, .rfl⟩ rfl flight fun _ => ?_
      have queue : output ∈ page.queue id := by simp [Page.queue, flight]
      have known : page.Known id := by
        by_contra unknown
        rw [((all id).fresh unknown).1] at queue
        contradiction
      rcases (all id).forgotten known forgotten with canceled | closed
      · exact canceled
      · rw [(all id).drained closed] at queue
        contradiction
  · exact linked

end Page
end Chuzz.Workers
