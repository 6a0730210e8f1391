import Chuzz.Library.Transition
import Chuzz.PageServer.TlsIo

/-! What the TLS stream moves is moved in order, each byte once. -/
namespace Chuzz.PageServer.TlsIo
open Library Library.Throwing Library.Transition List

namespace Event

def produces : Event → Bytes
  | .produced bytes => bytes
  | _ => []

def sends : Event → Bytes
  | .sent bytes => bytes
  | _ => []

def receives : Event → Bytes
  | .received bytes => bytes
  | _ => []

def feeds : Event → Bytes
  | .fed bytes => bytes
  | _ => []

end Event

/-- So far, the socket has been sent the first bytes that were produced for it, and the connection
has been fed the first that were received. -/
def InOrder (log : List Event) : Prop :=
  log.flatMap Event.sends <+: log.flatMap Event.produces ∧
    log.flatMap Event.feeds <+: log.flatMap Event.receives

/-- It was so all the time. -/
def AlwaysInOrder (log : List Event) : Prop := ∀ earlier, earlier <+: log → InOrder earlier

theorem AlwaysInOrder.concat {log : List Event} {event : Event} (always : AlwaysInOrder log)
    (now : InOrder (log ++ [event])) : AlwaysInOrder (log ++ [event]) := by
  intro earlier initial
  rcases prefix_concat_iff.mp initial with rfl | initial
  · exact now
  · exact always earlier initial

variable {S T : Type}

/-- What the buffers hold behind their cursors is all that has still to be moved. -/
structure Accounted (this : TlsIo S T) : Prop where
  out : this.log.flatMap Event.sends ++ this.out.drop this.outSent =
    this.log.flatMap Event.produces
  outSent_le : this.outSent ≤ this.out.length
  cipher : this.log.flatMap Event.feeds ++ this.cipher.drop this.cipherTaken =
    this.log.flatMap Event.receives
  cipherTaken_le : this.cipherTaken ≤ this.cipher.length
  always : AlwaysInOrder this.log

theorem accounted_fresh (tcp : S) (tls : T) : Accounted { tcp, tls : TlsIo S T } where
  out := rfl
  outSent_le := Nat.le_refl 0
  cipher := rfl
  cipherTaken_le := Nat.le_refl 0
  always := by
    intro earlier initial
    obtain rfl := prefix_nil.mp initial
    exact ⟨List.nil_prefix, List.nil_prefix⟩

theorem Accounted.next {this that : TlsIo S T} (accounted : Accounted this) {event : Event}
    (log : that.log = this.log ++ [event])
    (out : this.log.flatMap Event.sends ++ (event.sends ++ that.out.drop that.outSent) =
      this.log.flatMap Event.produces ++ event.produces)
    (outSent_le : that.outSent ≤ that.out.length)
    (cipher : this.log.flatMap Event.feeds ++ (event.feeds ++ that.cipher.drop that.cipherTaken) =
      this.log.flatMap Event.receives ++ event.receives)
    (cipherTaken_le : that.cipherTaken ≤ that.cipher.length) : Accounted that := by
  have out' : that.log.flatMap Event.sends ++ that.out.drop that.outSent =
      that.log.flatMap Event.produces := by
    rw [log, flatMap_append, flatMap_append, flatMap_singleton,
      flatMap_singleton, append_assoc, out]
  have cipher' : that.log.flatMap Event.feeds ++ that.cipher.drop that.cipherTaken =
      that.log.flatMap Event.receives := by
    rw [log, flatMap_append, flatMap_append, flatMap_singleton,
      flatMap_singleton, append_assoc, cipher]
  refine ⟨out', outSent_le, cipher', cipherTaken_le, ?_⟩
  have now : InOrder that.log := ⟨⟨_, out'⟩, ⟨_, cipher'⟩⟩
  rw [log] at now ⊢
  exact accounted.always.concat now

theorem Accounted.unmoved {this : TlsIo S T} (accounted : Accounted this) (tcp : S) (tls : T)
    (closeSent : Bool) : Accounted { this with tcp, tls, closeSent } :=
  { accounted with }

/-! The operations. -/
section Operations
variable {socket : Socket S} {rustls : Rustls T}

theorem onTls_keeps {operation : T → α × T} : Keeps Accounted (onTls (S := S) operation) := by
  intro this accounted
  exact accounted.unmoved _ _ _

theorem send_keeps : Keeps Accounted (send (T := T) socket) := by
  intro this accounted
  unfold send
  dsimp only
  cases answered : socket.pollWrite this.tcp (this.out.drop this.outSent) with
  | mk result tcp =>
    match result with
    | some (.ok sent) =>
      have within : sent ≤ (this.out.drop this.outSent).length :=
        socket.write_le (congrArg Prod.fst answered)
      rw [length_drop] at within
      refine accounted.next rfl ?_ ?_ ?_ accounted.cipherTaken_le
      · change _ ++ ((this.out.drop this.outSent).take sent ++ this.out.drop (this.outSent + sent)) =
          _ ++ []
        rw [← drop_drop, take_append_drop, accounted.out, append_nil]
      · have before := accounted.outSent_le
        change this.outSent + sent ≤ this.out.length
        omega
      · change _ ++ ([] ++ _) = _ ++ []
        rw [nil_append, accounted.cipher, append_nil]
    | some (.error error) =>
      exact accounted.unmoved _ _ _
    | none =>
      exact accounted.unmoved _ _ _

/-- All that was taken from the connection has been sent. -/
def Drained (this : TlsIo S T) : Prop := ¬ this.outSent < this.out.length

theorem produce_accounts : Triple (fun this : TlsIo S T => Accounted this ∧ Drained this)
    (produce rustls) (fun _ => Accounted) Accounted := by
  rintro this ⟨accounted, drained⟩
  refine accounted.next rfl ?_ (Nat.zero_le _) ?_ accounted.cipherTaken_le
  · have out := accounted.out
    rw [drop_of_length_le (Nat.not_lt.mp drained), append_nil] at out
    exact congrArg (· ++ _) out
  · change _ ++ ([] ++ _) = _ ++ []
    rw [nil_append, accounted.cipher, append_nil]

theorem receive_accounts :
    Triple (fun this : TlsIo S T => Accounted this ∧ this.cipherTaken = this.cipher.length)
      (receive socket) (fun _ => Accounted) Accounted := by
  rintro this ⟨accounted, taken⟩
  have cipher := accounted.cipher
  rw [taken, drop_length, append_nil] at cipher
  unfold receive
  generalize (this.cipher ++ List.replicate tlsReadChunk 0).take tlsReadChunk = buffer
  cases answered : socket.pollRead this.tcp tlsReadChunk with
  | mk result tcp =>
    match result with
    | some (.ok bytes) =>
      have kept : (bytes ++ buffer.drop bytes.length).take bytes.length = bytes := take_left' rfl
      refine accounted.next rfl ?_ accounted.outSent_le ?_ (Nat.zero_le _)
      · change _ ++ ([] ++ _) = _ ++ []
        rw [nil_append, accounted.out, append_nil]
      · change _ ++ (bytes ++ buffer.drop bytes.length).take bytes.length = _ ++ bytes
        rw [kept, cipher]
    | some (.error error) =>
      exact ⟨accounted.out, accounted.outSent_le, (append_nil _).trans cipher, Nat.le_refl 0,
        accounted.always⟩
    | none =>
      exact ⟨accounted.out, accounted.outSent_le, (append_nil _).trans cipher, Nat.le_refl 0,
        accounted.always⟩

theorem feed_keeps : Keeps Accounted (feed (S := S) rustls) := by
  intro this accounted
  unfold feed
  dsimp only
  cases answered : rustls.readTls this.tls (this.cipher.drop this.cipherTaken) with
  | mk result tls =>
    cases result with
    | ok read =>
      have within : read ≤ (this.cipher.drop this.cipherTaken).length :=
        rustls.read_le (congrArg Prod.fst answered)
      rw [length_drop] at within
      refine accounted.next rfl ?_ accounted.outSent_le ?_ ?_
      · change _ ++ ([] ++ _) = _ ++ []
        rw [nil_append, accounted.out, append_nil]
      · change _ ++ ((this.cipher.drop this.cipherTaken).take read ++
          this.cipher.drop (this.cipherTaken + read)) = _ ++ []
        rw [← drop_drop, take_append_drop, accounted.cipher, append_nil]
      · have before := accounted.cipherTaken_le
        change this.cipherTaken + read ≤ this.cipher.length
        omega
    | error error =>
      exact accounted.unmoved _ _ _

end Operations

/-! The polls. -/
section Polls
variable (socket : Socket S) (rustls : Rustls T)

/-- When `poll_drain` returns. -/
structure AfterDrain (poll : Poll (Except Error Unit)) (this : TlsIo S T) : Prop where
  accounted : Accounted this
  drained : poll = .ready (.ok ()) → Drained this
  waits : ∀ on, poll = .pending on → on = .writable

theorem drainRound_drains : Triple Accounted (drainRound socket rustls)
    (fun value this => value.elim (Accounted this) (AfterDrain · this)) Accounted := by
  refine Triple.looked fun this accounted => ?_
  split
  · refine Triple.next (send_keeps.started accounted) fun result => ?_
    match result with
    | none => exact Triple.returned fun that kept => ⟨kept, nofun, fun on same => by cases same; rfl⟩
    | some (.ok 0) => exact Triple.returned fun that kept => ⟨kept, nofun, nofun⟩
    | some (.ok (_ + 1)) => exact Triple.returned fun that kept => kept
    | some (.error error) => exact Triple.returned fun that kept => ⟨kept, nofun, nofun⟩
  · rename_i drained
    split
    · refine Triple.next (produce_accounts.started ⟨accounted, drained⟩) fun result => ?_
      cases result with
      | ok value => exact Triple.returned fun that kept => kept
      | error error => exact Triple.returned fun that kept => ⟨kept, nofun, nofun⟩
    · refine Triple.returned ?_
      rintro that rfl
      exact ⟨accounted, fun _ => drained, nofun⟩

theorem pollDrain_drains (left : Nat) :
    Triple Accounted (pollDrain socket rustls left) AfterDrain Accounted :=
  (drainRound_drains socket rustls).repeats (fun _ => id) left

theorem pollDrain_keeps (left : Nat) : Keeps Accounted (pollDrain socket rustls left) :=
  (pollDrain_drains socket rustls left).weaken (fun _ => id) (fun _ _ after => after.accounted)
    fun _ => id

theorem andThen_keeps {poll : Poll (Except Error α)}
    {next : α → Act S T (Option (Poll (Except Error β)))} (keeps : ∀ value, Keeps Accounted (next value)) :
    Keeps Accounted (poll.andThen next) := by
  match poll with
  | .pending on => exact Keeps.returned
  | .ready (.error error) => exact Keeps.returned
  | .ready (.ok value) => exact keeps value

theorem fill_keeps : Keeps Accounted (fill (T := T) socket) := by
  refine Triple.looked fun this accounted => ?_
  split
  · rename_i taken
    refine Triple.next (receive_accounts.started ⟨accounted, taken⟩) fun result => ?_
    match result with
    | none => exact Triple.returned fun _ => id
    | some (.ok read) => exact Triple.returned fun _ => id
    | some (.error error) => exact Triple.returned fun _ => id
  · refine Triple.returned ?_
    rintro that rfl
    exact accounted

theorem handshakeRound_keeps (left : Nat) :
    Keeps Accounted (handshakeRound socket rustls left) := by
  refine Keeps.next ?_ fun drained => andThen_keeps fun () => ?_
  · unfold drainWanted
    refine Triple.looked fun this accounted => Triple.strengthen ?_ fun _ same => same ▸ accounted
    split
    · exact pollDrain_keeps socket rustls left
    · exact Keeps.returned
  refine Triple.looked fun this accounted => Triple.strengthen ?_ fun _ same => same ▸ accounted
  split
  · exact Keeps.returned
  refine Keeps.next (fill_keeps socket) fun filled => andThen_keeps fun ended => ?_
  split
  · exact Keeps.returned
  refine Keeps.next feed_keeps fun result => ?_
  match result with
  | .error error => exact Keeps.returned
  | .ok 0 => exact Keeps.returned
  | .ok (_ + 1) =>
    refine Keeps.next onTls_keeps fun result => ?_
    cases result with
    | ok value => exact Keeps.returned
    | error error => exact Keeps.next (pollDrain_keeps socket rustls left) fun _ => Keeps.returned

theorem readRound_keeps (room left : Nat) :
    Keeps Accounted (readRound socket rustls room left) := by
  refine Keeps.next onTls_keeps fun result => ?_
  cases result with
  | ok bytes => exact Keeps.returned
  | error error =>
    dsimp only
    split
    · exact Keeps.returned
    refine Keeps.next (pollDrain_keeps socket rustls left) fun drained => ?_
    split
    · exact Keeps.returned
    refine Keeps.next (fill_keeps socket) fun filled => andThen_keeps fun ended => ?_
    split
    · exact Keeps.returned
    refine Keeps.next feed_keeps fun result => ?_
    cases result with
    | error error => exact Keeps.returned
    | ok read =>
      refine Keeps.next onTls_keeps fun result => ?_
      cases result with
      | ok value => exact Keeps.returned
      | error error => exact Keeps.next (pollDrain_keeps socket rustls left) fun _ => Keeps.returned

theorem writeRound_keeps (data : Bytes) (left : Nat) :
    Keeps Accounted (writeRound socket rustls data left) := by
  refine Keeps.next onTls_keeps fun result => ?_
  cases result with
  | error error => exact Keeps.returned
  | ok written =>
    dsimp only
    split
    · refine Keeps.next (pollDrain_keeps socket rustls left) fun drained => ?_
      split
      · exact Keeps.returned
      · exact Keeps.returned
    · exact Keeps.next (pollDrain_keeps socket rustls left) fun drained =>
        andThen_keeps fun () => Keeps.returned

theorem pollFlush_keeps (left : Nat) : Keeps Accounted (pollFlush socket rustls left) := by
  refine Keeps.next onTls_keeps fun result => ?_
  cases result with
  | error error => exact Keeps.returned
  | ok value => exact pollDrain_keeps socket rustls left

theorem pollShutdown_keeps (left : Nat) : Keeps Accounted (pollShutdown socket rustls left) := by
  refine Triple.looked fun this accounted => Triple.strengthen ?_ fun _ same => same ▸ accounted
  split
  · refine Keeps.next onTls_keeps fun () => Keeps.next ?_ fun () => pollDrain_keeps socket rustls left
    exact Triple.modified fun this accounted => accounted.unmoved _ _ _
  · exact pollDrain_keeps socket rustls left

/-! The handshake waits for ciphertext only when all of its own is sent. -/

theorem onTls_drained {operation : T → α × T} : Keeps Drained (onTls (S := S) operation) :=
  fun _ => id

theorem feed_drained : Keeps Drained (feed (S := S) rustls) := by
  intro this drained
  unfold feed
  dsimp only
  cases rustls.readTls this.tls (this.cipher.drop this.cipherTaken) with
  | mk result tls => cases result <;> exact drained

theorem receive_drained : Keeps Drained (receive (T := T) socket) := by
  intro this drained
  unfold receive
  generalize (this.cipher ++ List.replicate tlsReadChunk 0).take tlsReadChunk = buffer
  cases socket.pollRead this.tcp tlsReadChunk with
  | mk result tcp =>
    match result with
    | some (.ok bytes) => exact drained
    | some (.error error) => exact drained
    | none => exact drained

theorem fill_drained : Keeps Drained (fill (T := T) socket) := by
  refine Triple.looked fun this drained => Triple.strengthen ?_ fun _ same => same ▸ drained
  split
  · refine Keeps.next (receive_drained socket) fun result => ?_
    match result with
    | none => exact Keeps.returned
    | some (.ok read) => exact Keeps.returned
    | some (.error error) => exact Keeps.returned
  · exact Keeps.returned

/-- Ciphertext that is unsent when the handshake is polled is sent first. -/
def Drains (this : TlsIo S T) : Prop :=
  this.outSent < this.out.length →
    rustls.wantsWrite this.tls = true ∨ rustls.isHandshaking this.tls = false

instance (this : TlsIo S T) : Decidable (Drains rustls this) :=
  inferInstanceAs (Decidable (_ → _))

/-- What the handshake has reached behind its drain. -/
def Sends (this : TlsIo S T) : Prop :=
  Accounted this ∧ (Drained this ∨ rustls.isHandshaking this.tls = false)

theorem drainWanted_sends (left : Nat) :
    Triple (fun this => Accounted this ∧ Drains rustls this) (drainWanted socket rustls left)
      (fun poll this => (poll = .ready (.ok ()) → Sends rustls this) ∧
        ∀ on, poll = .pending on → on = .writable) (fun _ => True) := by
  refine Triple.looked fun this before => ?_
  obtain ⟨accounted, drains⟩ := before
  split
  · refine ((pollDrain_drains socket rustls left).started accounted).weaken (fun _ => id) ?_
      fun _ _ => trivial
    exact fun poll that after => ⟨fun done => ⟨after.accounted, .inl (after.drained done)⟩, after.waits⟩
  · rename_i content
    refine Triple.returned ?_
    rintro that rfl
    refine ⟨fun _ => ⟨accounted, ?_⟩, nofun⟩
    by_cases drained : Drained that
    · exact .inl drained
    · exact .inr ((drains (not_not.mp drained)).resolve_left content)

theorem handshakeRound_sends (left : Nat) :
    Triple (fun this => Accounted this ∧ Drains rustls this) (handshakeRound socket rustls left)
      (fun value this => value.elim (Accounted this ∧ Drains rustls this)
        (· = .pending .readable → Drained this)) (fun _ => True) := by
  refine Triple.next (drainWanted_sends socket rustls left) fun poll => ?_
  match poll with
  | .pending on =>
    refine Triple.returned fun this after waits => ?_
    cases waits
    cases after.2 _ rfl
  | .ready (.error error) => exact Triple.returned fun this after => nofun
  | .ready (.ok ()) =>
    refine Triple.strengthen (?_ : Triple (Sends rustls) _ _ _) fun this after => after.1 rfl
    refine Triple.looked fun this sends => ?_
    obtain ⟨accounted, drained⟩ := sends
    split
    · exact Triple.returned fun that _ => nofun
    rename_i handshaking
    have both : Accounted this ∧ Drained this :=
      ⟨accounted, drained.resolve_right fun done => handshaking (by rw [done]; rfl)⟩
    have kept {α} {program : Act S T α} (keeps : Keeps Accounted program)
        (drained : Keeps Drained program) :
        Triple (fun this => Accounted this ∧ Drained this) program
          (fun _ this => Accounted this ∧ Drained this) (fun _ => True) :=
      (keeps.both drained).weaken (fun _ => id) (fun _ _ => id) fun _ _ => trivial
    refine Triple.next ((kept (fill_keeps socket) (fill_drained socket)).started both) fun poll => ?_
    match poll with
    | .pending on => exact Triple.returned fun that after _ => after.2
    | .ready (.error error) => exact Triple.returned fun that _ => nofun
    | .ready (.ok ended) =>
      change Triple _ (if ended then _ else _) _ _
      split
      · exact Triple.returned fun that _ => nofun
      refine Triple.next (kept feed_keeps (feed_drained rustls)) fun result => ?_
      match result with
      | .error error => exact Triple.returned fun that _ => nofun
      | .ok 0 => exact Triple.returned fun that _ => nofun
      | .ok (_ + 1) =>
        refine Triple.next (kept onTls_keeps onTls_drained) fun result => ?_
        cases result with
        | ok value =>
          exact Triple.returned fun that after => ⟨after.1, fun unsent => absurd unsent after.2⟩
        | error error =>
          refine Triple.next (R := fun _ _ => True) (fun that _ => ?_) fun _ =>
            Triple.returned fun that _ => nofun
          split <;> trivial

theorem pollHandshake_sends (left : Nat) :
    Triple (fun this => Accounted this ∧ Drains rustls this) (pollHandshake socket rustls left)
      (fun poll this => poll = .pending .readable → Drained this) (fun _ => True) :=
  (handshakeRound_sends socket rustls left).repeats (fun _ _ => trivial) left

end Polls

/-! Runs. -/

inductive Call
  | handshake
  | read (room : Nat)
  | write (data : Bytes)
  | flush
  | shutdown

section Runs
variable (socket : Socket S) (rustls : Rustls T)

def poll (left : Nat) : Call → Act S T Unit
  | .handshake => do let _ ← pollHandshake socket rustls left
  | .read room => do let _ ← pollRead socket rustls room left
  | .write data => do let _ ← pollWrite socket rustls data left
  | .flush => do let _ ← pollFlush socket rustls left
  | .shutdown => do let _ ← pollShutdown socket rustls left

/-- A poll that has returned. -/
def step (this : TlsIo S T) (call : Call) (that : TlsIo S T) : Prop :=
  ∃ left, poll socket rustls left call this = .ok () that

def Fresh (this : TlsIo S T) : Prop := ∃ tcp tls, this = { tcp, tls }

theorem poll_keeps (left : Nat) (call : Call) : Keeps Accounted (poll socket rustls left call) := by
  cases call with
  | handshake =>
    exact Keeps.next ((handshakeRound_keeps socket rustls left).repeats left) fun _ => Keeps.returned
  | read room =>
    exact Keeps.next ((readRound_keeps socket rustls room left).repeats left) fun _ => Keeps.returned
  | write data =>
    exact Keeps.next ((writeRound_keeps socket rustls data left).repeats left) fun _ => Keeps.returned
  | flush => exact Keeps.next (pollFlush_keeps socket rustls left) fun _ => Keeps.returned
  | shutdown => exact Keeps.next (pollShutdown_keeps socket rustls left) fun _ => Keeps.returned

theorem run_accounted {this : TlsIo S T} (run : Reachable Fresh (step socket rustls) this) :
    Accounted this := by
  refine run.invariant ?_ ?_
  · rintro _ ⟨tcp, tls, rfl⟩
    exact accounted_fresh tcp tls
  · rintro this call that _ accounted ⟨left, polled⟩
    have after := poll_keeps socket rustls left call this accounted
    rwa [polled] at after

end Runs

/-! A server whose answer to the first message of a handshake does not fit into the socket. -/

inductive Stage
  | hello
  | answering
  | answered

def answering : Rustls Stage where
  wantsWrite
    | .answering => true
    | _ => false
  isHandshaking _ := true
  writeTls _ := ([1, 2], .ok (), .answered)
  readTls _ input := (.ok input.length, .answering)
  processNewPackets stage := (.ok (), stage)
  read stage _ := (.error ⟨.wouldBlock, none⟩, stage)
  write stage data := (.ok data.length, stage)
  flush stage := (.ok (), stage)
  sendCloseNotify := id
  read_le := by
    intro stage input read answer
    exact Nat.le_of_eq (Except.ok.inj answer).symm

/-- It has one message, and takes one byte. -/
def narrow : Socket Nat where
  pollRead
    | 0, room => (some (.ok (List.take room [0])), 1)
    | others, _ => (none, others)
  pollWrite
    | 1, data => (some (.ok (min 1 data.length)), 2)
    | others, _ => (none, others)
  read_le := by
    intro s room bytes answer
    split at answer
    · obtain rfl := Except.ok.inj (Option.some.inj answer)
      exact List.length_take_le _ _
    · cases answer
  write_le := by
    intro s data sent answer
    split at answer
    · obtain rfl := Except.ok.inj (Option.some.inj answer)
      exact Nat.min_le_right _ _
    · cases answer

end Chuzz.PageServer.TlsIo
