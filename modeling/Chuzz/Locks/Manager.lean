import Chuzz.Locks.Process

/-! `navigator.locks.request` in the realms of the process. Each call of it polls for its
lease, runs its callback in a microtask and gives the lease back when the callback's
promise settles, or when its signal is aborted before. A realm's requests end with it. -/
namespace Chuzz.Locks
open Library Library.Transition List

/-- What the page gives with a name; `signal` says whether a given signal is aborted. -/
structure Options where
  callable : Bool := true
  mode : Option String := none
  steal : Bool := false
  ifAvailable : Bool := false
  signal : Option Bool := none
deriving DecidableEq, Repr

inductive Rejection where
  | exception (name message : String)
  /-- The signal's own reason. -/
  | reason
  /-- What the callback threw, or its promise was rejected with. -/
  | callback
deriving DecidableEq, Repr

/-- Whether the lock is a shared one, once the options have been checked. -/
def Options.read (options : Options) (name : String) : Except Rejection Bool := do
  if !options.callable then throw (.exception "TypeError" "A lock callback is required")
  if name.toList.head? = some '-' then throw (.exception "NotSupportedError" "Reserved lock name")
  let mode := options.mode.getD "exclusive"
  if mode ≠ "exclusive" ∧ mode ≠ "shared" then
    throw (.exception "TypeError" "Invalid lock mode")
  if options.steal then throw (.exception "NotSupportedError" "Lock stealing is unavailable")
  if options.signal.isSome && options.ifAvailable then
    throw (.exception "NotSupportedError" "Invalid lock options")
  if options.signal = some true then throw .reason
  return mode = "shared"

inductive Phase where
  /-- The callback is to be called with null. -/
  | refused
  /-- The next poll is set. -/
  | waiting
  /-- The callback is to be called with the lease. -/
  | started
  | calling
  | finished (result : Except Rejection Unit)
deriving DecidableEq, Repr

/-- One call of `request` whose options were accepted. -/
structure Request where
  number : Nat
  realm : Realm
  lease : Option Nat
  signal : Bool
  aborted : Bool := false
  phase : Phase
deriving DecidableEq, Repr

/-- A call of a callback, and whether its lease was held then. -/
structure Call where
  number : Nat
  lease : Option Nat
  held : Bool
deriving DecidableEq, Repr

structure World where
  process : Process := {}
  realms : List Realm := []
  requests : List Request := []
  calls : List Call := []
  nextRequest : Nat := 0
deriving DecidableEq, Repr

namespace World

def modify (world : World) (number : Nat) (change : Request → Request) : World :=
  { world with requests := world.requests.map fun request =>
    if request.number = number then change request else request }

def setPhase (world : World) (request : Request) (phase : Phase) : World :=
  world.modify request.number ({ · with phase })

/-- `release`, which also clears the timer and the listener. -/
def release (world : World) (request : Request) : World :=
  { world with process := request.lease.elim world.process (world.process.release request.realm) }

/-- The listener of a request's signal, which is gone once the callback is due. -/
def abort (world : World) (request : Request) : World :=
  if request.phase = .waiting then
    (world.release request).setPhase request (.finished (.error .reason))
  else world

def check (world : World) (request : Request) : World :=
  if request.signal && request.aborted then world.abort request
  else if request.lease.any (world.process.status request.realm) then
    world.setPhase request .started
  else world

/-- `request`, up to the first poll. -/
def request (world : World) (realm : Realm) (name : String) (options : Options) : World :=
  match options.read name with
  | .error _ => world
  | .ok shared =>
    let (process, lease) := world.process.request realm name shared options.ifAvailable
    let request : Request :=
      { number := world.nextRequest, realm, lease, signal := options.signal.isSome,
        phase := if lease.isSome then .waiting else .refused }
    let world := { world with
      process, requests := world.requests ++ [request], nextRequest := world.nextRequest + 1 }
    if lease.isSome then world.check request else world

/-- The callback is called, with null or with its lease. -/
def call (world : World) (request : Request) : World :=
  { world.setPhase request .calling with
    calls := world.calls ++ [{ number := request.number, lease := request.lease
                               held := request.lease.any (world.process.status request.realm) }] }

/-- The callback's promise is fulfilled or rejected. -/
def settle (world : World) (request : Request) (result : Except Rejection Unit) : World :=
  (world.release request).setPhase request (.finished result)

def openRealm (world : World) (origin : Option String) : World :=
  let id := world.process.nextId
  { world with
    process := world.process.draw
    realms := { id, origin := origin.getD ("opaque:" ++ toString id) } :: world.realms }

/-- `Realm::drop`: the realm's context, with its timers and promises, is gone. -/
def dropRealm (world : World) (realm : Realm) : World :=
  { world with
    process := world.process.drop realm
    realms := world.realms.erase realm
    requests := world.requests.filter (·.realm.id ≠ realm.id) }

/-- Applies to the request of the number if its phase is one of those given. -/
def during (world : World) (number : Nat) (phases : List Phase) (change : Request → World) :
    World :=
  match world.requests.find? (·.number = number) with
  | some request => if request.phase ∈ phases then change request else world
  | none => world

end World

inductive Event where
  | openRealm (origin : Option String)
  | dropRealm (realm : Realm)
  /-- Another use of the counter. -/
  | draw
  | request (realm : Realm) (name : String) (options : Options)
  /-- The request's signal is aborted; its listeners run one after the other. -/
  | abortSignal (number : Nat)
  | abortListener (number : Nat)
  | timer (number : Nat)
  | microtask (number : Nat)
  | settle (number : Nat) (result : Except Rejection Unit)

namespace World

def perform (world : World) : Event → World
  | .openRealm origin => world.openRealm origin
  | .dropRealm realm => if realm ∈ world.realms then world.dropRealm realm else world
  | .draw => { world with process := world.process.draw }
  | .request realm name options =>
    if realm ∈ world.realms then world.request realm name options else world
  | .abortSignal number => world.modify number fun request => { request with aborted := request.signal }
  | .abortListener number => world.during number [.waiting] fun request =>
    if request.signal then world.abort request else world
  | .timer number => world.during number [.waiting] world.check
  | .microtask number => world.during number [.refused, .started] world.call
  | .settle number result => world.during number [.calling] fun request =>
    world.settle request result

def Reached : World → Prop :=
  Reachable (· = {}) fun before event after => before.perform event = after

end World

/-- How a request and the leases of the process fit together. -/
structure Request.Fits (request : Request) (process : Process) : Prop where
  below : ∀ id, request.lease = some id → id < process.nextId
  own : ∀ lease ∈ process.leases, request.lease = some lease.id → lease.owner = request.realm.id
  holds : request.phase = .started ∨ request.phase = .calling →
    ∀ id, request.lease = some id → process.status request.realm id = true
  gone : ∀ result, request.phase = .finished result →
    ∀ id, request.lease = some id → ∀ lease ∈ process.leases, lease.id ≠ id
  refused : request.phase = .refused → request.lease = none

section
variable {process : Process} {request : Request}

section
variable (fits : request.Fits process)
include fits

theorem Request.Fits.perform (input : Realm × Operation)
    (kept : ∀ other id, request.lease = some id →
      input = (other, .release id) ∨ input = (other, .drop) → other.id ≠ request.realm.id) :
    request.Fits (process.perform input) := by
  constructor
  · intro id leased
    exact Nat.lt_of_lt_of_le (fits.below id leased) (process.perform_nextId input)
  · intro lease member leased
    rcases Process.perform_lease member with ⟨old, there, becomes⟩ | new
    · rw [← becomes.owner]
      exact fits.own old there (becomes.id ▸ leased)
    · have below := fits.below _ leased
      omega
  · intro running id leased
    exact Process.status_perform (fits.holds running id leased) fun other => kept other id leased
  · intro result ended id leased lease member same
    rcases Process.perform_lease member with ⟨old, there, becomes⟩ | new
    · exact fits.gone result ended id leased old there (becomes.id.trans same)
    · have below := fits.below id leased
      omega
  · exact fits.refused

theorem Request.Fits.release {id : Nat}
    (leased : request.lease = some id) (result : Except Rejection Unit) :
    ({ request with phase := .finished result } : Request).Fits
      (process.release request.realm id) := by
  have gone : ∀ lease ∈ (process.release request.realm id).leases, lease.id ≠ id := by
    intro lease member same
    have member : lease ∈ (Process.grant { process with
        leases := process.leases.filter fun lease =>
          lease.id ≠ id || lease.owner ≠ request.realm.id }).leases := member
    rw [Process.grant_leases] at member
    have origin : ∃ old ∈ process.leases.filter (fun lease =>
        lease.id ≠ id || lease.owner ≠ request.realm.id), old.id = lease.id := by
      rcases FairQueue.Rules.mem_sweep member with there | ⟨old, there, _, rfl⟩
      · exact ⟨lease, there, rfl⟩
      · exact ⟨old, there, rfl⟩
    obtain ⟨old, there, same'⟩ := origin
    obtain ⟨known, stays⟩ := mem_filter.mp there
    have owner := fits.own old known (by rw [leased, same', same])
    simp [same', same, owner] at stays
  constructor
  · exact fits.below
  · intro lease member leased'
    exact absurd (Option.some.inj (leased'.symm.trans leased)) (gone lease member)
  · simp
  · intro _ _ other leased' lease member
    rw [← Option.some.inj (leased.symm.trans leased')]
    exact gone lease member
  · simp

theorem Request.Fits.released {realm : Realm} {freed : Nat}
    (other : request.lease ≠ some freed) : request.Fits (process.release realm freed) := by
  refine fits.perform (realm, .release freed) fun _ id leased input => ?_
  rcases input with input | input
  · cases input
    exact absurd leased other
  · cases input

theorem Request.Fits.rephase {phase : Phase} (holds : phase = .started ∨ phase = .calling →
      ∀ id, request.lease = some id → process.status request.realm id = true)
    (gone : ∀ result, phase = .finished result → request.lease = none)
    (refused : phase ≠ .refused) : ({ request with phase } : Request).Fits process where
  below := fits.below
  own := fits.own
  holds := holds
  gone result ended id leased := by
    rw [gone result ended] at leased
    contradiction
  refused same := absurd same refused

end

end

/-- The invariant of the page side. -/
structure World.Sound (world : World) : Prop where
  process : world.process.Reached
  numbers : (world.requests.map (·.number)).Nodup
  apart : ∀ a ∈ world.requests, ∀ b ∈ world.requests, ∀ id,
    a.lease = some id → b.lease = some id → a.number = b.number
  fits : ∀ request ∈ world.requests, request.Fits world.process
  recent : ∀ request ∈ world.requests, request.number < world.nextRequest
  once : (world.calls.map (·.number)).Nodup
  called : ∀ call ∈ world.calls, call.number < world.nextRequest ∧
    ∀ request ∈ world.requests, request.number = call.number →
      request.phase = .calling ∨ ∃ result, request.phase = .finished result
  held : ∀ call ∈ world.calls, call.lease.isSome → call.held = true

namespace World
variable {world : World} {request : Request}

theorem mem_modify {number : Nat} {change : Request → Request} {later : Request} :
    later ∈ (world.modify number change).requests ↔
      ∃ old ∈ world.requests, later = if old.number = number then change old else old := by
  simp [modify, eq_comm]

section
variable (sound : world.Sound)
include sound

theorem Sound.modify (member : request ∈ world.requests) {process : Process}
    (reached : process.Reached) (change : Request → Request)
    (same : ∀ old, (change old).number = old.number ∧ (change old).lease = old.lease)
    (others : ∀ other ∈ world.requests, other.number ≠ request.number → other.Fits process)
    (changed : (change request).Fits process)
    (forward : request.phase = .calling ∨ (∃ result, request.phase = .finished result) →
      (change request).phase = .calling ∨ ∃ result, (change request).phase = .finished result) :
    ({ world.modify request.number change with process } : World).Sound := by
  have unique : ∀ old ∈ world.requests, old.number = request.number → old = request :=
    fun old there number => inj_on_of_nodup_map sound.numbers there member number
  have origin : ∀ later ∈ (world.modify request.number change).requests, ∃ old ∈ world.requests,
      later.number = old.number ∧ later.lease = old.lease := by
    intro later found
    obtain ⟨old, there, rfl⟩ := mem_modify.mp found
    refine ⟨old, there, ?_⟩
    split
    · exact same old
    · exact ⟨rfl, rfl⟩
  have numbers : (world.modify request.number change).requests.map (·.number) =
      world.requests.map (·.number) := by
    rw [World.modify, map_map]
    apply map_congr_left
    intro old _
    simp only [Function.comp]
    split
    · exact (same old).1
    · rfl
  constructor
  · exact reached
  · rw [show ({ world.modify request.number change with process } : World).requests =
      (world.modify request.number change).requests from rfl, numbers]
    exact sound.numbers
  · intro a there b there' id leased leased'
    obtain ⟨old, known, number, lease⟩ := origin a there
    obtain ⟨old', known', number', lease'⟩ := origin b there'
    rw [number, number']
    exact sound.apart old known old' known' id (lease.symm.trans leased) (lease'.symm.trans leased')
  · intro later found
    obtain ⟨old, there, rfl⟩ := mem_modify.mp found
    split
    · rw [unique old there ‹_›]
      exact changed
    · exact others old there ‹_›
  · intro later found
    obtain ⟨old, there, number, _⟩ := origin later found
    rw [number]
    exact sound.recent old there
  · exact sound.once
  · intro call found
    obtain ⟨below, running⟩ := sound.called call found
    refine ⟨below, fun later found number => ?_⟩
    obtain ⟨old, there, rfl⟩ := mem_modify.mp found
    split at number
    · rename_i selected
      rw [if_pos selected]
      obtain rfl := unique old there selected
      exact forward (running old there ((same old).1.symm.trans number))
    · rename_i other
      rw [if_neg other]
      exact running old there number
  · exact sound.held

theorem Sound.native (input : Realm × Operation) {requests : List Request}
    (fewer : requests.Sublist world.requests)
    (kept : ∀ request ∈ requests, ∀ other id, request.lease = some id →
      input = (other, .release id) ∨ input = (other, .drop) → other.id ≠ request.realm.id) :
    ({ world with process := world.process.perform input, requests } : World).Sound where
  process := .next sound.process rfl
  numbers := sound.numbers.sublist (fewer.map _)
  apart a there b there' := sound.apart a (fewer.mem there) b (fewer.mem there')
  fits request there := (sound.fits request (fewer.mem there)).perform input (kept request there)
  recent request there := sound.recent request (fewer.mem there)
  once := sound.once
  called call found := ⟨(sound.called call found).1, fun request there =>
    (sound.called call found).2 request (fewer.mem there)⟩
  held := sound.held

theorem Sound.finish (member : request ∈ world.requests) (result : Except Rejection Unit) :
    ((world.release request).setPhase request (.finished result)).Sound := by
  have fits := sound.fits request member
  cases leased : request.lease with
  | none =>
    have same : world.release request = world := by
      rw [World.release, leased]
      rfl
    rw [same, setPhase]
    apply sound.modify member sound.process ({ · with phase := .finished result })
      (fun _ => ⟨rfl, rfl⟩)
    · exact fun other there _ => sound.fits other there
    · exact fits.rephase (by simp) (fun _ _ => leased) (by simp)
    · exact fun _ => .inr ⟨result, rfl⟩
  | some id =>
    have freed : (world.release request).setPhase request (.finished result) =
        { world.modify request.number ({ · with phase := .finished result }) with
          process := world.process.release request.realm id } := by
      rw [World.release, leased]
      rfl
    rw [freed]
    apply sound.modify member (.next sound.process (l := (request.realm, .release id)) rfl)
      ({ · with phase := .finished result }) (fun _ => ⟨rfl, rfl⟩)
    · intro other there different
      exact (sound.fits other there).released fun same =>
        different (sound.apart other there request member id same leased)
    · exact fits.release leased result
    · exact fun _ => .inr ⟨result, rfl⟩

theorem Sound.abort (member : request ∈ world.requests) : (world.abort request).Sound := by
  rw [World.abort]
  split
  · exact sound.finish member _
  · exact sound

theorem Sound.setPhase (member : request ∈ world.requests) {phase : Phase}
    (holds : phase = .started ∨ phase = .calling →
      ∀ id, request.lease = some id → world.process.status request.realm id = true)
    (gone : ∀ result, phase ≠ .finished result) (refused : phase ≠ .refused)
    (forward : request.phase = .calling ∨ (∃ result, request.phase = .finished result) →
      phase = .calling) : (world.setPhase request phase).Sound := by
  have fits := sound.fits request member
  apply sound.modify member sound.process ({ · with phase }) (fun _ => ⟨rfl, rfl⟩)
  · exact fun other there _ => sound.fits other there
  · exact fits.rephase holds (fun result ended => absurd ended (gone result)) refused
  · exact fun before => .inl (forward before)

theorem Sound.check (member : request ∈ world.requests)
    (waits : request.phase = .waiting) : (world.check request).Sound := by
  rw [World.check]
  split
  · exact sound.abort member
  · split
    · rename_i held
      apply sound.setPhase member
      · intro _ id leased
        simpa [leased] using held
      · simp
      · simp
      · simp [waits]
    · exact sound

theorem Sound.call (member : request ∈ world.requests)
    (due : request.phase = .refused ∨ request.phase = .started) : (world.call request).Sound := by
  have fits := sound.fits request member
  have holds : ∀ id, request.lease = some id → world.process.status request.realm id = true := by
    intro id leased
    rcases due with refused | started
    · rw [fits.refused refused] at leased
      contradiction
    · exact fits.holds (.inl started) id leased
  have calling : (world.setPhase request .calling).Sound := by
    apply sound.setPhase member (fun _ => holds)
    · simp
    · simp
    · exact fun _ => rfl
  have fresh : ∀ call ∈ world.calls, call.number ≠ request.number := by
    intro call found same
    rcases (sound.called call found).2 request member same.symm with running | ⟨result, ended⟩
    · rw [running] at due
      simp at due
    · rw [ended] at due
      simp at due
  constructor
  · exact calling.process
  · exact calling.numbers
  · exact calling.apart
  · exact calling.fits
  · exact calling.recent
  · rw [World.call, map_append]
    apply List.Nodup.append sound.once (nodup_singleton _)
    rw [disjoint_singleton, mem_map]
    rintro ⟨call, found, same⟩
    exact fresh call found same
  · intro call found
    rcases mem_append.mp found with before | new
    · exact calling.called call before
    · rw [mem_singleton.mp new]
      refine ⟨sound.recent request member, fun later there number => .inl ?_⟩
      obtain ⟨old, known, rfl⟩ := mem_modify.mp there
      split at number
      · rw [if_pos ‹_›]
      · exact absurd number ‹_›
  · intro call found leased
    rcases mem_append.mp found with before | new
    · exact calling.held call before leased
    · rw [mem_singleton.mp new] at leased ⊢
      obtain ⟨id, leased⟩ := Option.isSome_iff_exists.mp leased
      have leased : request.lease = some id := leased
      simp [leased, holds id leased]

theorem Sound.join (realm : Realm) (name : String) (shared available signal : Bool)
    (phase : Phase) (lease : Option Nat)
    (answered : (world.process.request realm name shared available).2 = lease)
    (phased : phase = if lease.isSome then .waiting else .refused) :
    ({ world with
        process := (world.process.request realm name shared available).1
        requests := world.requests ++ [{ number := world.nextRequest, realm, lease, signal, phase }]
        nextRequest := world.nextRequest + 1 } : World).Sound := by
  have process := Process.reached_sound sound.process
  have native := sound.native (realm, .request name shared available) (List.Sublist.refl _)
    (by simp)
  have older : ∀ request ∈ world.requests, ∀ id, request.lease = some id → lease ≠ some id := by
    intro request there id leased new
    have below := (sound.fits request there).below id leased
    have fresh := (process.request_lease (answered.trans new)).1
    omega
  have fits : ({ number := world.nextRequest, realm, lease, signal, phase } : Request).Fits
      (world.process.request realm name shared available).1 := by
    constructor
    · intro id leased
      exact (process.request_lease (answered.trans leased)).2.1
    · intro other member leased
      exact (process.request_lease (answered.trans leased)).2.2 other member rfl
    · cases lease <;> simp [phased]
    · cases lease <;> simp [phased]
    · cases lease <;> simp [phased]
  constructor
  · exact native.process
  · rw [map_append]
    apply List.Nodup.append sound.numbers (nodup_singleton _)
    rw [disjoint_singleton, mem_map]
    rintro ⟨request, there, same⟩
    exact absurd same (Nat.ne_of_lt (sound.recent request there))
  · intro a there b there' id leased leased'
    rcases mem_append.mp there with known | new <;>
      rcases mem_append.mp there' with known' | new'
    · exact sound.apart a known b known' id leased leased'
    · rw [mem_singleton.mp new'] at leased'
      exact absurd leased' (older a known id leased)
    · rw [mem_singleton.mp new] at leased
      exact absurd leased (older b known' id leased')
    · rw [mem_singleton.mp new, mem_singleton.mp new']
  · intro request there
    rcases mem_append.mp there with known | new
    · exact native.fits request known
    · rw [mem_singleton.mp new]
      exact fits
  · intro request there
    rcases mem_append.mp there with known | new
    · exact Nat.lt_succ_of_lt (sound.recent request known)
    · rw [mem_singleton.mp new]
      exact Nat.lt_succ_self _
  · exact sound.once
  · intro call found
    obtain ⟨below, running⟩ := sound.called call found
    refine ⟨Nat.lt_succ_of_lt below, fun request there number => ?_⟩
    rcases mem_append.mp there with known | new
    · exact running request known number
    · rw [mem_singleton.mp new] at number
      exact absurd number.symm (Nat.ne_of_lt below)
  · exact sound.held

theorem Sound.begin (realm : Realm) (name : String) (options : Options) :
    (world.request realm name options).Sound := by
  rw [World.request]
  split
  · exact sound
  · rename_i shared _
    have joined := sound.join realm name shared options.ifAvailable options.signal.isSome _ _ rfl rfl
    dsimp only
    split
    · rename_i leased
      rw [if_pos leased] at joined
      apply joined.check
      · exact mem_append_right _ mem_cons_self
      · rfl
    · rename_i unleased
      rw [if_neg unleased] at joined
      exact joined

theorem Sound.during (number : Nat) (phases : List Phase) {change : Request → World}
    (keeps : ∀ request ∈ world.requests, request.phase ∈ phases → (change request).Sound) :
    (world.during number phases change).Sound := by
  rw [World.during]
  split
  · rename_i found
    split
    · exact keeps _ (mem_of_find?_eq_some found) ‹_›
    · exact sound
  · exact sound

theorem Sound.perform (event : Event) : (world.perform event).Sound := by
  have realm : Realm := ⟨0, ""⟩
  have drawn : ({ world with process := world.process.draw } : World).Sound :=
    sound.native (realm, .draw) (List.Sublist.refl _) (by simp)
  cases event with
  | openRealm origin => exact { drawn with }
  | draw => exact drawn
  | dropRealm realm =>
    rw [World.perform]
    split
    · refine { sound.native (realm, .drop) filter_sublist ?_ with }
      intro request there other id _ input
      rcases input with input | input
      · cases input
      · cases input
        have stays := (mem_filter.mp there).2
        intro same
        simp [same] at stays
    · exact sound
  | request realm name options =>
    rw [World.perform]
    split
    · exact sound.begin realm name options
    · exact sound
  | abortSignal number =>
    rw [World.perform]
    by_cases known : ∃ request ∈ world.requests, request.number = number
    · obtain ⟨request, member, rfl⟩ := known
      have fits := sound.fits request member
      apply sound.modify member sound.process (fun request => { request with aborted := request.signal })
        (fun _ => ⟨rfl, rfl⟩)
      · exact fun other there _ => sound.fits other there
      · exact { fits with }
      · exact id
    · have same : (world.modify number fun request => { request with aborted := request.signal }) =
          world := by
        have none : ∀ request ∈ world.requests, request.number ≠ number :=
          fun request there same => known ⟨request, there, same⟩
        rw [World.modify, map_congr_left fun request there => if_neg (none request there),
          map_id']
      rw [same]
      exact sound
  | abortListener number =>
    apply sound.during
    intro request there _
    split
    · exact sound.abort there
    · exact sound
  | timer number =>
    apply sound.during
    intro request there waits
    exact sound.check there (mem_singleton.mp waits)
  | microtask number =>
    apply sound.during
    intro request there due
    exact sound.call there (by simpa using due)
  | settle number result =>
    apply sound.during
    intro request there _
    exact sound.finish there result

end

theorem start_page : ({} : World).Sound where
  process := .start rfl
  numbers := nodup_nil
  apart := by simp
  fits := by simp
  recent := by simp
  once := nodup_nil
  called := by simp
  held := by simp

theorem reached_page (run : world.Reached) : world.Sound := by
  apply Reachable.invariant _ _ run
  · rintro _ rfl
    exact start_page
  · rintro before event _ _ sound rfl
    exact sound.perform event

end World

open Lease in
/-- After any operations of any realms an exclusive lease is the only one held of its
lock, leases of one lock have been granted in the order of their requests, nothing pending
could be granted, and a request for an available lock is answered null exactly when its
lease would have to wait. Whatever the pages do, each callback is called at most once and
with its lease held, its lease stays held while it runs, and a request that has ended
holds none. -/
theorem reached_locks {process : Process} {granted : List Lease} {world : World}
    (native : process.Granting granted) (page : world.Reached) :
    (process.leases.Pairwise fun a b => a.held → b.held → sameLock a b → a.shared ∧ b.shared) ∧
    (granted.Pairwise fun a b => sameLock a b → a.id < b.id) ∧
    (∀ before lease after, process.leases = before ++ lease :: after → lease.held = false →
      Process.blocked process.leases before.length lease = true) ∧
    (∀ realm name shared, (process.request realm name shared true).2 = none ↔
      (process.request realm name shared false).1.status realm process.nextId = false) ∧
    world.process.Reached ∧
    (world.calls.map (·.number)).Nodup ∧
    (∀ call ∈ world.calls, call.lease.isSome → call.held = true) ∧
    (∀ request ∈ world.requests, ∀ id, request.lease = some id →
      (request.phase = .calling → world.process.status request.realm id = true) ∧
      ∀ result, request.phase = .finished result → ∀ lease ∈ world.process.leases, lease.id ≠ id) := by
  have logged := Process.granting_logged native
  have sound := World.reached_page page
  refine ⟨?_, logged.inOrder, ?_, logged.sound.available, sound.process, sound.once, sound.held, ?_⟩
  · apply logged.sound.exclusive.imp
    intro a b apart held held' same
    have apart := apart held held'
    simp only [rules, same, Bool.true_and, Bool.or_eq_false_iff, Bool.not_eq_false'] at apart
    exact apart
  · intro before lease after divided waits
    rw [divided, Process.blocked_eq]
    exact logged.sound.settled before lease after divided waits
  · intro request member id leased
    have fits := sound.fits request member
    exact ⟨fun calling => fits.holds (.inr calling) id leased,
      fun result ended => fits.gone result ended id leased⟩

/-- Two realms of one origin. -/
def sampleRealms : Realm × Realm := (⟨1, "https://example.test"⟩, ⟨2, "https://example.test"⟩)

/-- The first realm's request is granted and the second's waits, until the first callback
is through and the second poll finds the lease held. -/
def sampleEvents : List Event :=
  [.openRealm (some "https://example.test"), .openRealm (some "https://example.test"),
    .request sampleRealms.1 "store" {}, .request sampleRealms.2 "store" {}, .microtask 0, .timer 1,
    .settle 0 (.error .callback), .timer 1, .microtask 1]

def sampleWorld : World := sampleEvents.foldl World.perform {}

theorem reached_locks_handed :
    sampleWorld.calls = [⟨0, some 3, true⟩, ⟨1, some 4, true⟩] ∧
      (sampleWorld.calls.map (·.number)).Nodup ∧
      ∀ request ∈ sampleWorld.requests, ∀ id, request.lease = some id →
        request.phase = .calling → sampleWorld.process.status request.realm id = true := by
  have native := (Process.Granting.start.perform (sampleRealms.1, .draw)).perform
    (sampleRealms.1, .request "store" false false)
  have page : sampleWorld.Reached := Reachable.run sampleEvents (.start rfl)
  obtain ⟨_, _, _, _, _, once, _, ends⟩ := reached_locks native page
  exact ⟨by decide, once, fun request there id leased => (ends request there id leased).1⟩

end Chuzz.Locks
