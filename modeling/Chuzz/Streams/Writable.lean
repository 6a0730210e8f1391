import Chuzz.Library.Monitor
import Chuzz.Streams.Readable

/-! A default writable stream: its writers, its controller and the chain of promises through
which the calls into the sink go. Each link of the chain waits for the one before it. Scripts
run between two reactions of the chain, and inside the size function of a write. -/
namespace Chuzz.Streams
open Library Library.Transition

/-- Numbers with what they are worth, if they are finite. Sums and differences are rounded in
a way that is left open. -/
class Measured (N : Type) extends Number N where
  atLeast : N → N → Bool
  value : N → Option ℚ
  value_zero : value zero = some 0
  value_valid : ∀ size, valid size = true → ∃ amount, value size = some amount ∧ 0 ≤ amount

inductive WriteStatus where
  | writable
  | closed
  | errored
deriving DecidableEq, Repr

inductive Settlement where
  | waiting
  | fulfilled
  | rejected
deriving DecidableEq, Repr

/-- The methods that the sink has. -/
structure Methods where
  write : Bool := true
  close : Bool := true
  abort : Bool := true
deriving DecidableEq, Repr

/-- A link of `tail`. Writes are numbered as they are accepted. -/
inductive Link (V N : Type) where
  | start
  | write (id : Nat) (value : V) (size : N)
  | close
deriving DecidableEq, Repr

/-- Where the first link of the chain stands. -/
inductive Stage (E : Type) where
  | waiting
  /-- The sink has been called. -/
  | calling
  /-- The promise of the call is settled, and its reaction is still to come. -/
  | answered (failure : Option E)
  /-- The promise of the write is settled, and the reaction that ends it is still to come. -/
  | fulfilled
  | rejected (error : Option (Failure E))
deriving DecidableEq, Repr

/-- What the sink and the writers see. -/
inductive SinkEvent where
  | started
  | accepted
  | write (id : Nat)
  | wrote
  | finished
  | close
  | closed (fulfilled : Bool)
  | abort
deriving DecidableEq, Repr

structure WritableStream (V E N : Type) where
  methods : Methods
  hwm : N
  total : N
  status : WriteStatus := .writable
  error : Option (Failure E) := none
  closing : Bool := false
  blocked : Bool := false
  ready : Settlement := .waiting
  closed : Settlement := .waiting
  writer : Option Nat := none
  writers : Nat := 0
  chain : List (Link V N) := [.start]
  stage : Stage E := .waiting
  /-- The last link that was settled was rejected. -/
  broken : Bool := false
  /-- An abort waits for the sink to be told, behind this many links. -/
  aborting : Option Nat := none
  /-- The chunks whose size functions are running, the innermost first. -/
  measuring : List V := []
  accepted : Nat := 0
  trace : List SinkEvent := []
deriving DecidableEq, Repr

inductive WriteStep (V E N : Type) where
  | getWriter
  | releaseLock (writer : Nat)
  | write (writer : Nat) (value : V)
  /-- The size function returns or throws. -/
  | measured (size : Except E N)
  /-- Through a writer, or on the stream itself. -/
  | close (writer : Option Nat)
  | abort (writer : Option Nat) (reason : E)
  /-- `controller.error` -/
  | error (error : E)
  /-- The promise of `start` or of the sink's call is settled. -/
  | settle (failure : Option E)
  | react
  | callAbort

namespace WritableStream
variable {V E N : Type} [Measured N]

def pressure (stream : WritableStream V E N) : WritableStream V E N :=
  let blocked := stream.status = .writable && Measured.atLeast stream.total stream.hwm
  { stream with
    blocked
    ready :=
      if blocked then if stream.blocked then stream.ready else .waiting
      else if stream.ready = .waiting then .fulfilled else stream.ready }

def writeError (stream : WritableStream V E N) (error : Option (Failure E)) :
    WritableStream V E N :=
  if stream.status = .closed ∨ stream.status = .errored then stream
  else
    { stream with
      status := .errored, error
      ready := if stream.ready = .waiting then .rejected else stream.ready
      closed := if stream.closed = .waiting then .rejected else stream.closed }

def log (stream : WritableStream V E N) (event : SinkEvent) : WritableStream V E N :=
  { stream with trace := stream.trace ++ [event] }

/-- The call is made by the writer that holds the lock, or on a stream without one. -/
def holds (stream : WritableStream V E N) (writer : Option Nat) : Bool := stream.writer = writer

/-- `abortWrite`, up to the reaction that tells the sink. -/
def abortWrite (stream : WritableStream V E N) (reason : E) : WritableStream V E N :=
  if stream.status = .writable then
    { stream.writeError (some (.given reason)) with aborting := some stream.chain.length }
  else stream

/-- `write` up to its call of the size function. -/
def write (stream : WritableStream V E N) (value : V) : WritableStream V E N :=
  if stream.status ≠ .writable ∨ stream.closing = true then stream
  else { stream with measuring := value :: stream.measuring }

/-- `write` behind its call of the size function. -/
def measured (stream : WritableStream V E N) (size : Except E N) : WritableStream V E N :=
  match stream.measuring with
  | [] => stream
  | value :: measuring =>
    let stream := { stream with measuring }
    match size with
    | .error error => stream.writeError (some (.given error))
    | .ok size =>
      if Number.valid size then
        { ({ stream with total := Number.add stream.total size }.pressure).log .accepted with
          chain := stream.chain ++ [.write stream.accepted value size]
          accepted := stream.accepted + 1 }
      else stream.writeError (some .invalidSize)

def closeWrite (stream : WritableStream V E N) : WritableStream V E N :=
  if stream.status ≠ .writable ∨ stream.closing = true then stream
  else
    { stream with
      closing := true
      ready := if stream.ready = .waiting then .fulfilled else stream.ready
      chain := stream.chain ++ [.close] }

def settle (stream : WritableStream V E N) (failure : Option E) : WritableStream V E N :=
  match stream.chain, stream.stage with
  | .start :: _, .waiting =>
    let settled := { stream with stage := .answered failure }
    if failure.isNone then settled.log .started else settled
  | .write _ _ _ :: _, .calling => { stream with stage := .answered failure }.log .wrote
  | .close :: _, .calling =>
    { stream with stage := .answered failure }.log (.closed failure.isNone)
  | _, _ => stream

/-- The first link is settled, and the next one takes its turn. -/
def advance (stream : WritableStream V E N) (rest : List (Link V N)) (broken : Bool) :
    WritableStream V E N :=
  { stream with
    chain := rest, stage := .waiting, broken
    aborting := stream.aborting.map (· - 1) }

/-- The reaction of a write's promise: its size leaves the total. -/
def finishWrite (stream : WritableStream V E N) (size : N) : WritableStream V E N :=
  { stream with total := Number.sub stream.total size }.log .finished

def reactStart (stream : WritableStream V E N) (rest : List (Link V N)) : WritableStream V E N :=
  match stream.stage with
  | .answered none => stream.advance rest false
  | .answered (some error) => (stream.writeError (some (.given error))).advance rest true
  | _ => stream

def reactWrite (stream : WritableStream V E N) (id : Nat) (size : N) (rest : List (Link V N)) :
    WritableStream V E N :=
  match stream.stage with
  | .waiting =>
    if stream.broken ∨ stream.status = .errored then { stream with stage := .rejected stream.error }
    else if stream.methods.write then { stream with stage := .calling }.log (.write id)
    else { stream with stage := .answered none }
  | .calling => stream
  | .answered none =>
    if stream.status = .errored then { stream with stage := .rejected stream.error }
    else { stream with stage := .fulfilled }
  | .answered (some error) => { stream with stage := .rejected (some (.given error)) }
  | .fulfilled => ((stream.finishWrite size).pressure).advance rest false
  | .rejected error => ((stream.finishWrite size).writeError error).advance rest true

def reactClose (stream : WritableStream V E N) (rest : List (Link V N)) : WritableStream V E N :=
  match stream.stage with
  | .waiting =>
    if stream.broken ∨ stream.status = .errored then
      (stream.writeError stream.error).advance rest true
    else if stream.methods.close then { stream with stage := .calling }.log .close
    else { stream with stage := .answered none }
  | .answered none =>
    if stream.status = .errored then stream.advance rest true
    else
      let ended : WritableStream V E N := { stream with
        status := .closed
        closed := if stream.closed = .waiting then .fulfilled else stream.closed }
      ended.advance rest false
  | .answered (some error) => (stream.writeError (some (.given error))).advance rest true
  | _ => stream

/-- The next reaction of the chain. -/
def react (stream : WritableStream V E N) : WritableStream V E N :=
  match stream.chain with
  | [] => stream
  | .start :: rest => stream.reactStart rest
  | .write id _ size :: rest => stream.reactWrite id size rest
  | .close :: rest => stream.reactClose rest

def callAbort (stream : WritableStream V E N) : WritableStream V E N :=
  if stream.aborting = some 0 then
    let told := { stream with aborting := none }
    if stream.methods.abort then told.log .abort else told
  else stream

/-- A label that cannot happen changes nothing: reactions wait until no script is running. -/
def perform (stream : WritableStream V E N) : WriteStep V E N → WritableStream V E N
  | .getWriter =>
    if stream.writer.isSome then stream
    else { stream with writer := some stream.writers, writers := stream.writers + 1 }
  | .releaseLock writer =>
    if stream.writer = some writer then { stream with writer := none } else stream
  | .write writer value => if stream.holds (some writer) then stream.write value else stream
  | .measured size => stream.measured size
  | .close writer => if stream.holds writer then stream.closeWrite else stream
  | .abort writer reason => if stream.holds writer then stream.abortWrite reason else stream
  | .error error => stream.writeError (some (.given error))
  | .settle failure => stream.settle failure
  | .react => if stream.measuring = [] then stream.react else stream
  | .callAbort => if stream.measuring = [] then stream.callAbort else stream

/-- The stream as its constructor leaves it. -/
def start (methods : Methods) (hwm : N) : WritableStream V E N :=
  pressure { methods, hwm, total := Number.zero }

end WritableStream
end Chuzz.Streams
