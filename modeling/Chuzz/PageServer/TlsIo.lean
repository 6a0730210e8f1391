import Chuzz.Library.Throwing

/-! The page server's TLS stream. It moves ciphertext between a socket and a TLS connection, each of
which is only known by what it answers. -/
namespace Chuzz.PageServer
open Library.Throwing
namespace TlsIo

abbrev Bytes := List UInt8

inductive ErrorKind
  | wouldBlock
  | writeZero
  | unexpectedEof
  | invalidData
  | other
  | another (code : Nat)
deriving DecidableEq

structure Error where
  kind : ErrorKind
  message : Option String := none
deriving DecidableEq

/-- What a task waits for. -/
inductive Interest
  | readable
  | writable
deriving DecidableEq

inductive Poll (α : Type)
  | pending (on : Interest)
  | ready (value : α)
deriving DecidableEq

/-- An answer that is an error or a count is one of no more than was asked for. -/
structure Socket (S : Type) where
  pollRead : S → (room : Nat) → Option (Except String Bytes) × S
  pollWrite : S → Bytes → Option (Except String Nat) × S
  read_le : ∀ {s room bytes}, (pollRead s room).1 = some (.ok bytes) → bytes.length ≤ room
  write_le : ∀ {s data sent}, (pollWrite s data).1 = some (.ok sent) → sent ≤ data.length

/-- `ServerConnection` -/
structure Rustls (T : Type) where
  wantsWrite : T → Bool
  isHandshaking : T → Bool
  /-- The ciphertext that it puts out. -/
  writeTls : T → Bytes × Except Error Unit × T
  readTls : T → (input : Bytes) → Except Error Nat × T
  processNewPackets : T → Except String Unit × T
  /-- The plaintext that it puts into so much room. -/
  read : T → (room : Nat) → Except Error Bytes × T
  write : T → (data : Bytes) → Except Error Nat × T
  flush : T → Except Error Unit × T
  sendCloseNotify : T → T
  read_le : ∀ {t input read}, (readTls t input).1 = .ok read → read ≤ input.length

/-- What has passed between the stream and the two. -/
inductive Event
  /-- `write_tls` -/
  | produced (bytes : Bytes)
  | sent (bytes : Bytes)
  | received (bytes : Bytes)
  /-- `read_tls` -/
  | fed (bytes : Bytes)
deriving DecidableEq

end TlsIo

open TlsIo in
/-- The last field is history. -/
structure TlsIo (S T : Type) where
  tcp : S
  tls : T
  out : TlsIo.Bytes := []
  outSent : Nat := 0
  closeSent : Bool := false
  cipher : TlsIo.Bytes := []
  cipherTaken : Nat := 0
  log : List Event := []

namespace TlsIo

def tlsReadChunk : Nat := 16 * 1024

variable {S T : Type} (socket : Socket S) (rustls : Rustls T)

/-- Throws only when a loop has not ended after the rounds it is given. -/
abbrev Act (S T α : Type) := EStateM Unit (TlsIo S T) α

/-- `io_error` -/
def ioError (error : String) : Error := ⟨.other, some error⟩

/-- `ready!` and `?` in a loop that goes on with `next`. -/
def Poll.andThen (poll : Poll (Except Error α)) (next : α → Act S T (Option (Poll (Except Error β)))) :
    Act S T (Option (Poll (Except Error β))) :=
  match poll with
  | .pending on => return some (.pending on)
  | .ready (.error error) => return some (.ready (.error error))
  | .ready (.ok value) => next value

/-- An operation of the connection that moves no ciphertext. -/
def onTls (operation : T → α × T) : Act S T α := fun this =>
  let (value, tls) := operation this.tls
  .ok value { this with tls }

/-- `tcp.poll_write`, and the cursor behind what it took. -/
def send : Act S T (Option (Except String Nat)) := fun this =>
  let unsent := this.out.drop this.outSent
  match socket.pollWrite this.tcp unsent with
  | (some (.ok sent), tcp) => .ok (some (.ok sent))
      { this with
        tcp, outSent := this.outSent + sent, log := this.log ++ [.sent (unsent.take sent)] }
  | (result, tcp) => .ok result { this with tcp }

/-- `write_tls` into the cleared buffer. -/
def produce : Act S T (Except Error Unit) := fun this =>
  let (bytes, result, tls) := rustls.writeTls this.tls
  .ok result { this with tls, out := bytes, outSent := 0, log := this.log ++ [.produced bytes] }

/-- `tcp.poll_read` into a buffer of full size, of which what was read is kept. -/
def receive : Act S T (Option (Except String Nat)) := fun this =>
  let cipher := (this.cipher ++ List.replicate tlsReadChunk 0).take tlsReadChunk
  match socket.pollRead this.tcp tlsReadChunk with
  | (some (.ok bytes), tcp) =>
    let cipher := (bytes ++ cipher.drop bytes.length).take bytes.length
    .ok (some (.ok bytes.length))
      { this with tcp, cipher, cipherTaken := 0, log := this.log ++ [.received bytes] }
  | (some (.error error), tcp) => .ok (some (.error error)) { this with tcp, cipher := [], cipherTaken := 0 }
  | (none, tcp) => .ok none { this with tcp, cipher := [], cipherTaken := 0 }

/-- `read_tls`, and the cursor behind what it took. -/
def feed : Act S T (Except Error Nat) := fun this =>
  let input := this.cipher.drop this.cipherTaken
  match rustls.readTls this.tls input with
  | (.ok read, tls) => .ok (.ok read)
      { this with
        tls, cipherTaken := this.cipherTaken + read, log := this.log ++ [.fed (input.take read)] }
  | (.error error, tls) => .ok (.error error) { this with tls }

/-- A round of `poll_drain`. -/
def drainRound : Act S T (Option (Poll (Except Error Unit))) := do
  let this ← get
  if this.outSent < this.out.length then
    match ← send socket with
    | none => return some (.pending .writable)
    | some (.ok 0) => return some (.ready (.error ⟨.writeZero, none⟩))
    | some (.ok _) => return none
    | some (.error error) => return some (.ready (.error (ioError error)))
  else if rustls.wantsWrite this.tls then
    match ← produce rustls with
    | .ok () => return none
    | .error error => return some (.ready (.error error))
  else return some (.ready (.ok ()))

def pollDrain (left : Nat) : Act S T (Poll (Except Error Unit)) :=
  rounds () (drainRound socket rustls) left

/-- Reads from the socket if no ciphertext is left, and says whether there is no more. -/
def fill : Act S T (Poll (Except Error Bool)) := do
  let this ← get
  if this.cipherTaken = this.cipher.length then
    match ← receive socket with
    | some (.ok read) => return .ready (.ok (read = 0))
    | some (.error error) => return .ready (.error (ioError error))
    | none => return .pending .readable
  else return .ready (.ok false)

/-- The drain of a handshake, only if the connection has something to put out. -/
def drainWanted (left : Nat) : Act S T (Poll (Except Error Unit)) := do
  if rustls.wantsWrite (← get).tls then pollDrain socket rustls left
  else return .ready (.ok ())

def handshakeRound (left : Nat) : Act S T (Option (Poll (Except Error Unit))) := do
  (← drainWanted socket rustls left).andThen fun () => do
    if !rustls.isHandshaking (← get).tls then return some (.ready (.ok ()))
    else
      (← fill socket).andThen fun ended => do
        if ended then return some (.ready (.error ⟨.unexpectedEof, none⟩))
        else
          match ← feed rustls with
          | .error error => return some (.ready (.error error))
          | .ok 0 => return some (.ready (.error ⟨.invalidData, some "rustls consumed no TLS input"⟩))
          | .ok _ =>
            match ← onTls rustls.processNewPackets with
            | .ok () => return none
            | .error error =>
              let _ ← pollDrain socket rustls left
              return some (.ready (.error ⟨.invalidData, some error⟩))

def pollHandshake (left : Nat) : Act S T (Poll (Except Error Unit)) :=
  rounds () (handshakeRound socket rustls left) left

/-- What `poll_read` returns is what it has put into the room of its buffer. -/
def readRound (room left : Nat) : Act S T (Option (Poll (Except Error Bytes))) := do
  match ← onTls (rustls.read · room) with
  | .ok bytes => return some (.ready (.ok bytes))
  | .error error =>
    if error.kind ≠ .wouldBlock then return some (.ready (.error error))
    else
      match ← pollDrain socket rustls left with
      | .ready (.error error) => return some (.ready (.error error))
      | _ =>
        (← fill socket).andThen fun ended => do
          if ended then return some (.ready (.ok []))
          else
            match ← feed rustls with
            | .error error => return some (.ready (.error error))
            | .ok _ =>
              match ← onTls rustls.processNewPackets with
              | .ok () => return none
              | .error error =>
                let _ ← pollDrain socket rustls left
                return some (.ready (.error ⟨.invalidData, some error⟩))

def pollRead (room left : Nat) : Act S T (Poll (Except Error Bytes)) :=
  rounds () (readRound socket rustls room left) left

def writeRound (data : Bytes) (left : Nat) : Act S T (Option (Poll (Except Error Nat))) := do
  match ← onTls (rustls.write · data) with
  | .error error => return some (.ready (.error error))
  | .ok written =>
    if 0 < written || data = [] then
      match ← pollDrain socket rustls left with
      | .ready (.error error) => return some (.ready (.error error))
      | _ => return some (.ready (.ok written))
    else (← pollDrain socket rustls left).andThen fun () => return none

def pollWrite (data : Bytes) (left : Nat) : Act S T (Poll (Except Error Nat)) :=
  rounds () (writeRound socket rustls data left) left

def pollFlush (left : Nat) : Act S T (Poll (Except Error Unit)) := do
  match ← onTls rustls.flush with
  | .error error => return .ready (.error error)
  | .ok () => pollDrain socket rustls left

def pollShutdown (left : Nat) : Act S T (Poll (Except Error Unit)) := do
  if !(← get).closeSent then
    onTls fun tls => ((), rustls.sendCloseNotify tls)
    modify fun this => { this with closeSent := true }
  pollDrain socket rustls left

end TlsIo
end Chuzz.PageServer
