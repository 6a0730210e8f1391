import Chuzz.Library.Transition

/-! The tunnels of the egress filter. Each polls two relays, and all of them draw on one
counter of bytes; between two calls into a socket or two accesses of the counter the other
tunnels' tasks may do anything. -/
namespace Chuzz.Egress
open Library.Transition List

def maxProxyBytes : Nat := 32 * 1024 * 1024

def bufferSize : Nat := 8192

/-- Where a relay's `step` stands, with the iterations that its loop has left. -/
inductive Point where
  | write (left : Nat)
  | read (left : Nat)
  /-- `reserve_proxy_bytes` loads the counter, for a number of bytes just read. -/
  | load (count left : Nat)
  | exchange (count current left : Nat)
deriving DecidableEq, Repr

/-- What `step` answers its poll. -/
inductive Answer where
  | pending
  | ok
  | failed
deriving DecidableEq, Repr

inductive Progress where
  | paused (point : Point)
  | done (answer : Answer)
deriving DecidableEq, Repr

/-- What a socket answers. -/
inductive Readiness where
  | pending
  | failed
  | ready (count : Nat)
deriving DecidableEq, Repr

inductive Event where
  | write (result : Readiness)
  | read (result : Readiness)
  | load
  /-- The weak exchange may fail without cause. -/
  | exchange (spurious : Bool)
deriving DecidableEq, Repr

/-- The last three fields are history: what the reader has produced, what it is still to
produce before its end, and what the writer has received. -/
structure Relay where
  buffer : List UInt8 := List.replicate bufferSize 0
  length : Nat := 0
  written : Nat := 0
  ended : Bool := false
  exhausted : Bool := false
  produced : List UInt8 := []
  unread : List UInt8 := []
  forwarded : List UInt8 := []
deriving DecidableEq, Repr

namespace Relay

def pending (relay : Relay) : List UInt8 := (relay.buffer.take relay.length).drop relay.written

/-- Behind the write of an iteration. -/
def drained (relay : Relay) (left : Nat) : Progress :=
  if relay.exhausted then .done .failed else .paused (.read left)

def iterate (relay : Relay) : Nat → Progress
  | 0 => .done .pending
  | left + 1 => if relay.written < relay.length then .paused (.write left) else relay.drained left

/-- The start of `step`. -/
def begin (relay : Relay) : Progress := if relay.ended then .done .ok else relay.iterate 64

def wrote (relay : Relay) (count left : Nat) : Relay × Progress :=
  let relay := { relay with
    written := relay.written + count
    forwarded := relay.forwarded ++ relay.pending.take count }
  (relay, if relay.written < relay.length then relay.iterate left else relay.drained left)

def fetched (relay : Relay) (count : Nat) : Relay :=
  { relay with
    buffer := relay.unread.take count ++ relay.buffer.drop count
    produced := relay.produced ++ relay.unread.take count
    unread := relay.unread.drop count }

/-- `reserve_proxy_bytes` has returned. -/
def allow (relay : Relay) (count allowed left : Nat) : Relay × Progress :=
  let relay := { relay with length := allowed, written := 0, exhausted := allowed < count }
  (relay, relay.iterate left)

/-- `step` goes on from a point, with the counter as it finds it. What a socket cannot
answer changes nothing: it takes no more than it is given, fills no more than the buffer,
and reports the end of its stream only there. -/
def act (transferred : Nat) (relay : Relay) (point : Point) (event : Event) :
    Nat × Relay × Progress :=
  match point, event with
  | .write _, .write .pending => (transferred, relay, .done .pending)
  | .write _, .write .failed => (transferred, relay, .done .failed)
  | .write left, .write (.ready count) =>
    if count = 0 then (transferred, relay, .done .failed)
    else if count ≤ relay.length - relay.written then (transferred, relay.wrote count left)
    else (transferred, relay, .paused point)
  | .read _, .read .pending => (transferred, relay, .done .pending)
  | .read _, .read .failed => (transferred, relay, .done .failed)
  | .read left, .read (.ready count) =>
    if count = 0 ∧ relay.unread = [] then (transferred, { relay with ended := true }, .done .ok)
    else if 0 < count ∧ count ≤ relay.unread.length ∧ count ≤ bufferSize then
      (transferred, relay.fetched count, .paused (.load count left))
    else (transferred, relay, .paused point)
  | .load count left, .load =>
    if maxProxyBytes ≤ transferred then (transferred, relay.allow count 0 left)
    else (transferred, relay, .paused (.exchange count transferred left))
  | .exchange count current left, .exchange spurious =>
    let allowed := min count (maxProxyBytes - current)
    if spurious = false ∧ transferred = current then
      (current + allowed, relay.allow count allowed left)
    else (transferred, relay, .paused (.load count left))
  | _, _ => (transferred, relay, .paused point)

end Relay

/-- Where the task of a tunnel stands. -/
inductive Phase where
  | parked
  | sending (point : Point)
  | receiving (sent : Answer) (point : Point)
  | finished
deriving DecidableEq, Repr

structure Tunnel where
  sending : Relay
  receiving : Relay
  phase : Phase := .parked
deriving DecidableEq, Repr

/-- The bytes that were read and not yet reserved. -/
def Progress.count : Progress → Nat
  | .paused (.load count _) | .paused (.exchange count _ _) => count
  | _ => 0

/-- What holds of a relay wherever `step` stands. -/
def Progress.Fits (relay : Relay) : Progress → Prop
  | .done _ => True
  | .paused (.write _) => relay.ended = false
  | .paused (.read _) => relay.ended = false ∧ relay.written = relay.length ∧ relay.exhausted = false
  | .paused (.load count _) => relay.ended = false ∧ relay.written = relay.length ∧
      relay.exhausted = false ∧ count ≤ bufferSize
  | .paused (.exchange count current _) => relay.ended = false ∧ relay.written = relay.length ∧
      relay.exhausted = false ∧ count ≤ bufferSize ∧ current < maxProxyBytes

namespace Relay

/-- What the counter has allowed this relay. -/
def reserved (relay : Relay) : Nat := relay.forwarded.length + (relay.length - relay.written)

/-- Everything the reader has produced is forwarded, in the buffer or, once the counter is
exhausted, dropped behind it. -/
structure Orderly (relay : Relay) (progress : Progress) : Prop where
  size : relay.buffer.length = bufferSize
  written : relay.written ≤ relay.length
  length : relay.length ≤ bufferSize
  flow : ∃ dropped, relay.produced = relay.forwarded ++
      (relay.pending ++ (relay.buffer.take progress.count ++ dropped)) ∧
    (relay.exhausted = false → dropped = [])
  fits : progress.Fits relay
  ended : relay.ended = true → relay.written = relay.length ∧ relay.exhausted = false ∧
    relay.unread = []

variable {relay : Relay} {progress : Progress}

theorem pending_nil (written : relay.written = relay.length) : relay.pending = [] := by
  rw [pending, drop_eq_nil_iff, written]
  exact length_take_le _ _

/-- Nothing is in hand where `step` goes on from here. -/
theorem Orderly.move (orderly : relay.Orderly progress) {next : Progress}
    (before : progress.count = 0) (after : next.count = 0) (fits : next.Fits relay) :
    relay.Orderly next := by
  have flow := orderly.flow
  rw [before] at flow
  exact { orderly with flow := by rwa [after], fits }

theorem Orderly.drained (orderly : relay.Orderly progress) (before : progress.count = 0)
    (open_ : relay.ended = false) (all : relay.length ≤ relay.written) (left : Nat) :
    relay.Orderly (relay.drained left) := by
  rw [Relay.drained]
  split
  · exact orderly.move before rfl trivial
  · rename_i more
    exact orderly.move before rfl
      ⟨open_, Nat.le_antisymm orderly.written all, by simpa using more⟩

theorem Orderly.iterate (orderly : relay.Orderly progress) (before : progress.count = 0)
    (open_ : relay.ended = false) (left : Nat) : relay.Orderly (relay.iterate left) := by
  cases left with
  | zero => exact orderly.move before rfl trivial
  | succ left =>
    rw [Relay.iterate]
    split
    · exact orderly.move before rfl open_
    · rename_i all
      exact orderly.drained before open_ (Nat.le_of_not_lt all) left

theorem Orderly.begin (orderly : relay.Orderly (.done answer)) : relay.Orderly relay.begin := by
  rw [Relay.begin]
  split
  · exact orderly.move rfl rfl trivial
  · rename_i open_
    exact orderly.iterate rfl (by simpa using open_) 64

theorem pending_length (orderly : relay.Orderly progress) :
    relay.pending.length = relay.length - relay.written := by
  rw [pending, length_drop, length_take, orderly.size,
    Nat.min_eq_left orderly.length]

theorem Orderly.wrote (orderly : relay.Orderly (.paused (.write left))) {count : Nat}
    (some : count ≤ relay.length - relay.written) :
    (relay.wrote count left).1.Orderly (relay.wrote count left).2 ∧
      (relay.wrote count left).1.reserved = relay.reserved := by
  have open_ : relay.ended = false := orderly.fits
  have written := orderly.written
  have size := pending_length orderly
  have after : (relay.wrote count left).1.Orderly (.done .ok) := by
    constructor
    · exact orderly.size
    · change relay.written + count ≤ relay.length
      omega
    · exact orderly.length
    · obtain ⟨dropped, flow, none⟩ := orderly.flow
      refine ⟨dropped, flow.trans ?_, none⟩
      have rest : (relay.wrote count left).1.pending = relay.pending.drop count :=
        drop_drop.symm
      rw [rest]
      calc relay.forwarded ++ (relay.pending ++ dropped)
          = relay.forwarded ++ (relay.pending.take count ++ relay.pending.drop count ++ dropped) := by
            rw [take_append_drop]
        _ = (relay.forwarded ++ relay.pending.take count) ++
              (relay.pending.drop count ++ ([] ++ dropped)) := by
            simp only [append_assoc, nil_append]
    · trivial
    · exact fun ended => absurd (open_.symm.trans ended) Bool.false_ne_true
  constructor
  · rw [show (relay.wrote count left).2 = if (relay.wrote count left).1.written <
      (relay.wrote count left).1.length then (relay.wrote count left).1.iterate left
      else (relay.wrote count left).1.drained left from rfl]
    split
    · exact after.iterate rfl open_ left
    · rename_i all
      exact after.drained rfl open_ (Nat.le_of_not_lt all) left
  · simp only [reserved, Relay.wrote, length_append, length_take, size]
    omega

theorem Orderly.fetched (orderly : relay.Orderly (.paused (.read left))) {count : Nat}
    (some : count ≤ relay.unread.length) (fits : count ≤ bufferSize) :
    (relay.fetched count).Orderly (.paused (.load count left)) := by
  obtain ⟨open_, written, more⟩ := orderly.fits
  have filled : (relay.unread.take count).length = count := by
    rw [length_take, Nat.min_eq_left some]
  constructor
  · rw [Relay.fetched, length_append, filled, length_drop, orderly.size]
    omega
  · exact orderly.written
  · exact orderly.length
  · obtain ⟨dropped, flow, none⟩ := orderly.flow
    obtain rfl := none more
    refine ⟨[], ?_, fun _ => rfl⟩
    have front : (relay.fetched count).buffer.take count = relay.unread.take count := by
      rw [Relay.fetched, take_append_of_le_length (Nat.le_of_eq filled.symm),
        take_of_length_le (Nat.le_of_eq filled)]
    rw [pending_nil written] at flow
    have empty : (relay.fetched count).pending = [] := pending_nil written
    simp only [Progress.count, front, empty]
    simpa [Relay.fetched, Progress.count] using flow
  · exact ⟨open_, written, more, fits⟩
  · exact fun ended => absurd (open_.symm.trans ended) Bool.false_ne_true

/-- The counter allows some of what was read, and the rest will not be forwarded. -/
theorem Orderly.allow (orderly : relay.Orderly progress) {allowed : Nat}
    (open_ : relay.ended = false) (written : relay.written = relay.length)
    (more : relay.exhausted = false) (fits : progress.count ≤ bufferSize)
    (some : allowed ≤ progress.count) (left : Nat) :
    (relay.allow progress.count allowed left).1.Orderly
        (relay.allow progress.count allowed left).2 ∧
      (relay.allow progress.count allowed left).1.reserved = relay.reserved + allowed := by
  have after : (relay.allow progress.count allowed left).1.Orderly (.done .ok) := by
    constructor
    · exact orderly.size
    · exact Nat.zero_le _
    · exact some.trans fits
    · obtain ⟨dropped, flow, none⟩ := orderly.flow
      obtain rfl := none more
      have front : (relay.allow progress.count allowed left).1.pending =
          relay.buffer.take allowed := rfl
      refine ⟨(relay.buffer.take progress.count).drop allowed, ?_, ?_⟩
      · have divided := take_append_drop allowed (relay.buffer.take progress.count)
        rw [take_take, Nat.min_eq_left some] at divided
        rw [pending_nil written, nil_append, append_nil, ← divided] at flow
        exact flow
      · intro all
        have all : progress.count ≤ allowed := by simpa [Relay.allow] using all
        rw [drop_eq_nil_iff]
        exact (length_take_le _ _).trans all
    · trivial
    · exact fun ended => absurd (open_.symm.trans ended) Bool.false_ne_true
  refine ⟨after.iterate rfl open_ left, ?_⟩
  simp only [reserved, Relay.allow]
  omega

/-- A relay keeps what it has, and what it takes of the counter it was allowed. -/
theorem Orderly.act {point : Point} (orderly : relay.Orderly (.paused point)) {transferred : Nat}
    (bounded : transferred ≤ maxProxyBytes) (event : Event)
    {after : Nat × Relay × Progress} (acted : relay.act transferred point event = after) :
    after.2.1.Orderly after.2.2 ∧
      after.1 + relay.reserved = transferred + after.2.1.reserved ∧ after.1 ≤ maxProxyBytes := by
  subst acted
  have stay : ∀ {next : Progress}, relay.Orderly next →
      relay.Orderly next ∧ transferred + relay.reserved = transferred + relay.reserved ∧
        transferred ≤ maxProxyBytes := fun kept => ⟨kept, rfl, bounded⟩
  unfold Relay.act
  split
  · exact stay (orderly.move rfl rfl trivial)
  · exact stay (orderly.move rfl rfl trivial)
  · split
    · exact stay (orderly.move rfl rfl trivial)
    · split
      · rename_i some
        obtain ⟨kept, same⟩ := orderly.wrote some
        exact ⟨kept, congrArg (transferred + ·) same.symm, bounded⟩
      · exact stay orderly
  · exact stay (orderly.move rfl rfl trivial)
  · exact stay (orderly.move rfl rfl trivial)
  · obtain ⟨_, written, more⟩ := orderly.fits
    split
    · rename_i past
      have kept : ({ relay with ended := true } : Relay).Orderly (.done .ok) :=
        { orderly with fits := trivial, ended := fun _ => ⟨written, more, past.2⟩ }
      exact ⟨kept, rfl, bounded⟩
    · split
      · rename_i some
        exact ⟨orderly.fetched some.2.1 some.2.2, rfl, bounded⟩
      · exact stay orderly
  · rename_i count left
    obtain ⟨open_, written, more, fits⟩ := orderly.fits
    split
    · obtain ⟨kept, same⟩ := orderly.allow open_ written more fits (Nat.zero_le _) left
      exact ⟨kept, congrArg (transferred + ·) same.symm, bounded⟩
    · rename_i below
      exact stay { orderly with
        fits := ⟨open_, written, more, fits, Nat.lt_of_not_le below⟩ }
  · rename_i count current left spurious
    obtain ⟨open_, written, more, fits, below⟩ := orderly.fits
    split
    · rename_i same
      obtain ⟨kept, reserved⟩ := orderly.allow open_ written more fits
        (Nat.min_le_left count (maxProxyBytes - current)) left
      refine ⟨kept, ?_, ?_⟩
      · calc current + min count (maxProxyBytes - current) + relay.reserved
            = transferred + (relay.reserved + min count (maxProxyBytes - current)) := by
              omega
          _ = _ := congrArg (transferred + ·) reserved.symm
      · dsimp only
        omega
    · exact stay { orderly with fits := ⟨open_, written, more, fits⟩ }
  · exact stay orderly

theorem start_orderly (unread : List UInt8) : ({ unread } : Relay).Orderly (.done .ok) where
  size := length_replicate
  written := Nat.le_refl _
  length := Nat.zero_le _
  flow := ⟨[], rfl, fun _ => rfl⟩
  fits := trivial
  ended := by simp

theorem Orderly.initial (orderly : relay.Orderly progress) :
    relay.forwarded <+: relay.produced := by
  obtain ⟨dropped, flow, _⟩ := orderly.flow
  exact ⟨_, flow.symm⟩

/-- A relay that has ended stands nowhere within `step`, and has forwarded the stream. -/
theorem Orderly.whole (orderly : relay.Orderly progress) (ended : relay.ended = true) :
    relay.unread = [] ∧ relay.forwarded = relay.produced := by
  obtain ⟨written, more, past⟩ := orderly.ended ended
  obtain ⟨dropped, flow, none⟩ := orderly.flow
  have inHand : progress.count = 0 := by
    have fits := orderly.fits
    unfold Progress.Fits at fits
    split at fits
    · rfl
    · rfl
    · rfl
    · simp [ended] at fits
    · simp [ended] at fits
  rw [none more, inHand, pending_nil written] at flow
  exact ⟨past, by simpa using flow.symm⟩

end Relay

namespace Tunnel

def received (tunnel : Tunnel) (sent : Answer) : Progress → Tunnel
  | .paused point => { tunnel with phase := .receiving sent point }
  | .done answer =>
    { tunnel with
      phase :=
        if sent = .failed ∨ answer = .failed ∨ (tunnel.sending.ended ∧ tunnel.receiving.ended)
        then .finished else .parked }

def sent (tunnel : Tunnel) : Progress → Tunnel
  | .paused point => { tunnel with phase := .sending point }
  | .done answer => tunnel.received answer tunnel.receiving.begin

/-- The task is woken and polls. -/
def poll (tunnel : Tunnel) : Tunnel :=
  match tunnel.phase with
  | .parked => tunnel.sent tunnel.sending.begin
  | _ => tunnel

def act (transferred : Nat) (tunnel : Tunnel) (event : Event) : Nat × Tunnel :=
  match tunnel.phase with
  | .sending point =>
    let (transferred, relay, progress) := tunnel.sending.act transferred point event
    (transferred, { tunnel with sending := relay }.sent progress)
  | .receiving sent point =>
    let (transferred, relay, progress) := tunnel.receiving.act transferred point event
    (transferred, { tunnel with receiving := relay }.received sent progress)
  | _ => (transferred, tunnel)

/-- The task is dropped between two polls. -/
def cancel (tunnel : Tunnel) : Tunnel :=
  match tunnel.phase with
  | .parked => { tunnel with phase := .finished }
  | _ => tunnel

def reserved (tunnel : Tunnel) : Nat := tunnel.sending.reserved + tunnel.receiving.reserved

/-- One relay at most stands within its `step`. -/
def Orderly (tunnel : Tunnel) : Prop :=
  match tunnel.phase with
  | .sending point => tunnel.sending.Orderly (.paused point) ∧ tunnel.receiving.Orderly (.done .ok)
  | .receiving _ point => tunnel.sending.Orderly (.done .ok) ∧ tunnel.receiving.Orderly (.paused point)
  | _ => tunnel.sending.Orderly (.done .ok) ∧ tunnel.receiving.Orderly (.done .ok)

variable {tunnel : Tunnel}

example (ends : tunnel.phase = .finished) (orderly : tunnel.Orderly) :
    tunnel.sending.Orderly (.done .ok) := by
  rw [Orderly, ends] at orderly
  exact orderly.1

theorem received_orderly {progress : Progress} (sending : tunnel.sending.Orderly (.done .ok))
    (receiving : tunnel.receiving.Orderly progress) (sent : Answer) :
    (tunnel.received sent progress).Orderly := by
  cases progress with
  | paused point => exact ⟨sending, receiving⟩
  | done answer =>
    have rest : tunnel.receiving.Orderly (.done .ok) := receiving.move rfl rfl trivial
    unfold Tunnel.received
    dsimp only
    split
    · exact ⟨sending, rest⟩
    · exact ⟨sending, rest⟩

theorem sent_orderly {progress : Progress} (sending : tunnel.sending.Orderly progress)
    (receiving : tunnel.receiving.Orderly (.done .ok)) : (tunnel.sent progress).Orderly := by
  cases progress with
  | paused point => exact ⟨sending, receiving⟩
  | done answer =>
    exact received_orderly (sending.move rfl rfl trivial) receiving.begin answer

theorem received_relays (tunnel : Tunnel) (sent : Answer) (progress : Progress) :
    (tunnel.received sent progress).reserved = tunnel.reserved := by
  cases progress <;> rfl

theorem sent_relays (tunnel : Tunnel) (progress : Progress) :
    (tunnel.sent progress).reserved = tunnel.reserved := by
  cases progress with
  | paused point => rfl
  | done answer => exact received_relays tunnel answer _

example : tunnel.poll.receiving = tunnel.receiving ∨ tunnel.phase = .parked := by
  rw [Tunnel.poll]
  split
  · exact .inr ‹_›
  · exact .inl rfl

theorem poll_orderly (orderly : tunnel.Orderly) : tunnel.poll.Orderly := by
  rw [Tunnel.poll]
  split
  · rename_i parked
    rw [Orderly, parked] at orderly
    exact sent_orderly orderly.1.begin orderly.2
  · exact orderly

theorem poll_reserved (tunnel : Tunnel) : tunnel.poll.reserved = tunnel.reserved := by
  rw [Tunnel.poll]
  split
  · exact sent_relays tunnel _
  · rfl

theorem cancel_orderly (orderly : tunnel.Orderly) : tunnel.cancel.Orderly := by
  rw [cancel]
  split
  · rename_i parked
    rw [Orderly, parked] at orderly
    exact orderly
  · exact orderly

theorem cancel_reserved (tunnel : Tunnel) : tunnel.cancel.reserved = tunnel.reserved := by
  rw [cancel]
  split <;> rfl

theorem act_orderly (orderly : tunnel.Orderly) {transferred : Nat}
    (bounded : transferred ≤ maxProxyBytes) (event : Event) :
    (tunnel.act transferred event).2.Orderly ∧
      (tunnel.act transferred event).1 + tunnel.reserved =
        transferred + (tunnel.act transferred event).2.reserved ∧
      (tunnel.act transferred event).1 ≤ maxProxyBytes := by
  rw [Tunnel.act]
  split
  · rename_i point phase
    rw [Orderly, phase] at orderly
    generalize acted : tunnel.sending.act transferred point event = after
    obtain ⟨kept, reserved, fits⟩ := orderly.1.act bounded event acted
    obtain ⟨counter, relay, progress⟩ := after
    refine ⟨sent_orderly kept orderly.2, ?_, fits⟩
    dsimp only at reserved ⊢
    rw [sent_relays]
    simp only [Tunnel.reserved]
    omega
  · rename_i sent point phase
    rw [Orderly, phase] at orderly
    generalize acted : tunnel.receiving.act transferred point event = after
    obtain ⟨kept, reserved, fits⟩ := orderly.2.act bounded event acted
    obtain ⟨counter, relay, progress⟩ := after
    have after : (({ tunnel with receiving := relay } : Tunnel).received sent progress).Orderly :=
      @received_orderly { tunnel with receiving := relay } _ orderly.1 kept sent
    refine ⟨after, ?_, fits⟩
    dsimp only at reserved ⊢
    rw [received_relays]
    simp only [Tunnel.reserved]
    omega
  · exact ⟨orderly, rfl, bounded⟩

theorem Orderly.relays (orderly : tunnel.Orderly) :
    (∃ progress, tunnel.sending.Orderly progress) ∧
      ∃ progress, tunnel.receiving.Orderly progress := by
  unfold Orderly at orderly
  split at orderly
  all_goals exact ⟨⟨_, orderly.1⟩, ⟨_, orderly.2⟩⟩

end Tunnel

structure Proxy where
  transferred : Nat := 0
  tunnels : List Tunnel := []
deriving DecidableEq, Repr

inductive Step where
  /-- A tunnel starts between two peers, of which each is to send so much. -/
  | tunnel (client upstream : List UInt8)
  | poll (index : Nat)
  | act (index : Nat) (event : Event)
  | cancel (index : Nat)
deriving DecidableEq, Repr

namespace Proxy

def perform (proxy : Proxy) : Step → Proxy
  | .tunnel client upstream =>
    { proxy with
      tunnels := proxy.tunnels ++
        [{ sending := { unread := client }, receiving := { unread := upstream } }] }
  | .poll index => { proxy with tunnels := proxy.tunnels.modify index (·.poll) }
  | .act index event =>
    match proxy.tunnels[index]? with
    | none => proxy
    | some tunnel =>
      let (transferred, tunnel) := tunnel.act proxy.transferred event
      { transferred, tunnels := proxy.tunnels.set index tunnel }
  | .cancel index => { proxy with tunnels := proxy.tunnels.modify index (·.cancel) }

def Reached : Proxy → Prop :=
  Reachable (· = {}) fun before step after => before.perform step = after

def relays (proxy : Proxy) : List Relay :=
  proxy.tunnels.flatMap fun tunnel => [tunnel.sending, tunnel.receiving]

structure Sound (proxy : Proxy) : Prop where
  orderly : ∀ tunnel ∈ proxy.tunnels, tunnel.Orderly
  counted : proxy.transferred = (proxy.tunnels.map (·.reserved)).sum
  bounded : proxy.transferred ≤ maxProxyBytes

variable {proxy : Proxy}

theorem Sound.change (sound : proxy.Sound) {index transferred : Nat} {tunnel changed : Tunnel}
    (here : proxy.tunnels[index]? = some tunnel) (orderly : changed.Orderly)
    (reserved : transferred + tunnel.reserved = proxy.transferred + changed.reserved)
    (bounded : transferred ≤ maxProxyBytes) :
    ({ transferred, tunnels := proxy.tunnels.set index changed } : Proxy).Sound := by
  obtain ⟨inside, same⟩ := List.getElem?_eq_some_iff.mp here
  have divided : proxy.tunnels =
      proxy.tunnels.take index ++ tunnel :: proxy.tunnels.drop (index + 1) := by
    rw [← same, ← drop_eq_getElem_cons inside, take_append_drop]
  constructor
  · intro other member
    rcases mem_or_eq_of_mem_set member with old | rfl
    · exact sound.orderly other old
    · exact orderly
  · have counted := sound.counted
    rw [divided, map_append, map_cons, sum_append, sum_cons] at counted
    dsimp only
    rw [set_eq_take_append_cons_drop, if_pos inside, map_append, map_cons,
      sum_append, sum_cons]
    omega
  · exact bounded

theorem Sound.modify (sound : proxy.Sound) (index : Nat) {change : Tunnel → Tunnel}
    (orderly : ∀ tunnel : Tunnel, tunnel.Orderly → (change tunnel).Orderly)
    (reserved : ∀ tunnel, (change tunnel).reserved = tunnel.reserved) :
    ({ proxy with tunnels := proxy.tunnels.modify index change } : Proxy).Sound := by
  rw [modify_eq_set_getElem?]
  cases here : proxy.tunnels[index]? with
  | none => exact sound
  | some tunnel =>
    apply sound.change here (orderly tunnel (sound.orderly tunnel (mem_of_getElem? here)))
    · rw [reserved]
    · exact sound.bounded

theorem Sound.perform (sound : proxy.Sound) (step : Step) : (proxy.perform step).Sound := by
  cases step with
  | tunnel client upstream =>
    constructor
    · intro tunnel member
      rcases mem_append.mp member with old | new
      · exact sound.orderly tunnel old
      · rw [mem_singleton.mp new]
        exact ⟨Relay.start_orderly client, Relay.start_orderly upstream⟩
    · rw [Proxy.perform, map_append, sum_append, ← sound.counted]
      rfl
    · exact sound.bounded
  | poll index => exact sound.modify index (fun _ => Tunnel.poll_orderly) Tunnel.poll_reserved
  | act index event =>
    rw [Proxy.perform]
    split
    · exact sound
    · rename_i tunnel here
      obtain ⟨orderly, reserved, bounded⟩ := Tunnel.act_orderly
        (sound.orderly tunnel (mem_of_getElem? here)) sound.bounded event
      exact sound.change here orderly reserved bounded
  | cancel index => exact sound.modify index (fun _ => Tunnel.cancel_orderly) Tunnel.cancel_reserved

theorem reached_sound (run : proxy.Reached) : proxy.Sound := by
  apply Reachable.invariant _ _ run
  · rintro _ rfl
    exact ⟨by simp, rfl, Nat.zero_le _⟩
  · rintro before step _ _ sound rfl
    exact sound.perform step

theorem Sound.relays (sound : proxy.Sound) {relay : Relay} (member : relay ∈ proxy.relays) :
    ∃ progress, relay.Orderly progress := by
  obtain ⟨tunnel, there, side⟩ := mem_flatMap.mp member
  obtain ⟨sending, receiving⟩ := (sound.orderly tunnel there).relays
  rcases mem_pair.mp side with rfl | rfl
  · exact sending
  · exact receiving

theorem Sound.forwarded (sound : proxy.Sound) :
    (proxy.relays.map (·.forwarded.length)).sum ≤ proxy.transferred := by
  rw [sound.counted, Proxy.relays]
  generalize proxy.tunnels = tunnels
  induction tunnels with
  | nil => exact Nat.le_refl _
  | cons tunnel rest ih =>
    rw [flatMap_cons, map_append, sum_append, map_cons, sum_cons]
    apply Nat.add_le_add _ ih
    simp only [map_cons, map_nil, sum_cons, sum_nil, Tunnel.reserved,
      Relay.reserved]
    omega

end Proxy

/-- However the tunnels' polls interleave, the writer of each relay has received the first
bytes of those its reader produced, all of them once the relay has ended, which it does at
the end of the stream; and together they never forward more than `maxProxyBytes`. -/
theorem reached_relays {proxy : Proxy} (reached : proxy.Reached) :
    (∀ relay ∈ proxy.relays, relay.forwarded <+: relay.produced ∧
      (relay.ended = true → relay.unread = [] ∧ relay.forwarded = relay.produced)) ∧
    (proxy.relays.map (·.forwarded.length)).sum ≤ maxProxyBytes := by
  have sound := Proxy.reached_sound reached
  refine ⟨?_, sound.forwarded.trans sound.bounded⟩
  intro relay member
  obtain ⟨progress, orderly⟩ := sound.relays member
  exact ⟨orderly.initial, orderly.whole⟩

/-- A stream of three bytes, written in two parts, that ends while the other peer waits. -/
def sampleSteps : List Step :=
  [.tunnel [1, 2, 3] [], .poll 0, .act 0 (.read (.ready 3)), .act 0 .load,
    .act 0 (.exchange true), .act 0 .load, .act 0 (.exchange false), .act 0 (.write (.ready 2)),
    .act 0 (.write .pending), .act 0 (.read .pending), .poll 0, .act 0 (.write (.ready 1)),
    .act 0 (.read (.ready 0))]

def sampleProxy : Proxy := sampleSteps.foldl Proxy.perform {}

theorem reached_relays_ended : ∃ relay, sampleProxy.relays.head? = some relay ∧
    relay.ended = true ∧ relay.forwarded = relay.produced ∧ relay.produced = [1, 2, 3] := by
  have reached : sampleProxy.Reached := Reachable.run sampleSteps (.start rfl)
  obtain ⟨relays, _⟩ := reached_relays reached
  have ends : ∀ relay ∈ sampleProxy.relays.head?, relay.ended = true ∧
    relay.produced = [1, 2, 3] := by decide
  obtain ⟨relay, first⟩ : ∃ relay, sampleProxy.relays.head? = some relay :=
    Option.isSome_iff_exists.mp (by decide)
  obtain ⟨ended, produced⟩ := ends relay first
  exact ⟨relay, first, ended, ((relays relay (mem_of_mem_head? first)).2 ended).2, produced⟩

end Chuzz.Egress
