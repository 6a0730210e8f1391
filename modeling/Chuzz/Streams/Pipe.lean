import Chuzz.Streams.Deliveries

/-! `pipeTo`: a loop that awaits the destination's readiness, a read and a write in turn, each
in a race with an interruption. Scripts and reactions of the two streams run between two
awaits, and scripts inside of the size function of a write and as listeners to an abort. -/
namespace Chuzz.Streams
open Library Library.Transition

/-- What a pipe is rejected with. -/
inductive Trouble (E : Type) where
  /-- The reason of the signal. -/
  | signal (reason : E)
  /-- The error of one of the streams. -/
  | stream (error : Option (Failure E))
  /-- `TypeError("Destination closed before piping completed")` -/
  | closedEarly
  /-- `TypeError("Stream is not writable")` -/
  | notWritable
  /-- `TypeError("Stream cannot be closed")` -/
  | notClosable
deriving DecidableEq, Repr

/-- Errors are values of the scripts. -/
class Throwable (E : Type) where
  value : Trouble E → E
  truthy : E → Bool

/-- The signal at the call of `pipeTo`. -/
inductive Signal (E : Type) where
  | absent
  | waiting
  | aborted (reason : E)
deriving DecidableEq, Repr

structure PipeOptions (E : Type) where
  preventClose : Bool := false
  preventAbort : Bool := false
  preventCancel : Bool := false
  signal : Signal E := .absent
deriving DecidableEq, Repr

/-- How the promise that the pipe awaits is settled. -/
inductive Verdict (E : Type) where
  | pending
  | fulfilled
  | rejected (trouble : Trouble E)
deriving DecidableEq, Repr

/-- What the pipe awaits, all but the last in a race with the interruption. -/
inductive Awaited where
  | ready
  | read (request : Nat)
  | write (id : Nat)
  | close
deriving DecidableEq, Repr

inductive Point (E : Type) where
  /-- One of the streams was locked at the call. -/
  | refused
  | awaiting (awaited : Awaited) (verdict : Verdict E)
  /-- In the size function of a write. -/
  | measuring
  /-- In the listeners to the abort of the destination. -/
  | aborting (trouble : Trouble E)
  /-- Awaiting the clean-up. -/
  | cleaning (trouble : Trouble E)
  | resolved
  | rejected (trouble : Trouble E)
deriving DecidableEq, Repr

/-- The calls by which a pipe ends its streams. -/
inductive Ending where
  | close
  | abort
  | cancel
deriving DecidableEq, Repr

/-- `effective` tells that the abort has found the destination writable, so that the clean-up
waits for its sink, and `telling` that the source is yet to be told that it is canceled. The
fields behind these are history: the chunks that the source had delivered before the call and
whether it had been canceled, the writes that the destination accepted from the pipe, the
number of those that the pipe has seen fulfilled, and its other calls. -/
structure Pipe (V E N : Type) where
  source : Stream V E N
  destination : WritableStream V E N
  options : PipeOptions E
  reader : Nat
  writer : Nat
  point : Point E
  listening : Bool := false
  watching : Bool := false
  interruption : Option (Trouble E) := none
  sourceDone : Bool := false
  effective : Bool := false
  telling : Bool := false
  skipped : List V
  precanceled : Bool
  sent : List (Nat × V) := []
  fulfilled : Nat := 0
  endings : List Ending := []
deriving DecidableEq, Repr

inductive PipeEvent (V E N : Type) where
  | source (step : Step V E N)
  | destination (step : WriteStep V E N)
  /-- The signal is aborted. -/
  | abort (reason : E)
  /-- The reaction to the end of the destination. -/
  | closed
  /-- The reaction to the promise that the pipe awaits. -/
  | resume
  /-- The listeners to the abort of the destination have returned. -/
  | listened
  | callCancel
  | cleaned

namespace WritableStream
variable {V E N : Type}

/-- A call to a stream that takes nothing more is rejected with its error. -/
def refusal [Throwable E] (stream : WritableStream V E N) (otherwise : Trouble E) : Trouble E :=
  match stream.error with
  | some (.given error) =>
    if Throwable.truthy error then .stream (some (.given error)) else otherwise
  | some failure => .stream (some failure)
  | none => otherwise

end WritableStream

namespace Pipe
variable {V E N : Type}

/-- How the promise stands that the pipe awaits. -/
def outcome (pipe : Pipe V E N) : Awaited → Verdict E
  | .ready =>
    match pipe.destination.ready with
    | .waiting => .pending
    | .fulfilled => .fulfilled
    | .rejected => .rejected (.stream pipe.destination.error)
  | .read request =>
    match pipe.source.answers[request]? with
    | some (.chunk _) | some .done => .fulfilled
    | some (.rejected failure) => .rejected (.stream (some failure))
    | some .waiting | none => .pending
  | .write id =>
    if pipe.destination.writing = some id then
      match pipe.destination.stage with
      | .fulfilled => .fulfilled
      | .rejected error => .rejected (.stream error)
      | _ => .pending
    else .pending
  | .close =>
    if pipe.destination.chain.any fun | .close => true | _ => false then .pending
    else if pipe.destination.status = .closed then .fulfilled
    else .rejected (.stream pipe.destination.error)

/-- The first promise of a race counts before the interruption. -/
def verdict (pipe : Pipe V E N) (awaited : Awaited) : Verdict E :=
  match pipe.outcome awaited, awaited, pipe.interruption with
  | .pending, .close, _ => .pending
  | .pending, _, some trouble => .rejected trouble
  | outcome, _, _ => outcome

def await (pipe : Pipe V E N) (awaited : Awaited) : Pipe V E N :=
  { pipe with point := .awaiting awaited (pipe.verdict awaited) }

/-- A race that is not decided yet may be now. -/
def watch (pipe : Pipe V E N) : Pipe V E N :=
  match pipe.point with
  | .awaiting awaited .pending => pipe.await awaited
  | _ => pipe

def interrupt (pipe : Pipe V E N) (trouble : Trouble E) : Pipe V E N :=
  { pipe with interruption := some (pipe.interruption.getD trouble) }

variable [Measured N]

/-- `finally` -/
def conclude (pipe : Pipe V E N) (point : Point E) : Pipe V E N :=
  { pipe with
    listening := false
    source := pipe.source.releaseLock pipe.reader
    destination := pipe.destination.perform (.releaseLock pipe.writer)
    point }

/-- The second half of the clean-up. -/
def cancelSource (pipe : Pipe V E N) (trouble : Trouble E) : Pipe V E N :=
  if pipe.options.preventCancel || pipe.sourceDone then { pipe with point := .cleaning trouble }
  else
    { pipe with
      source := pipe.source.cancel
      telling := pipe.source.status = .readable
      endings := pipe.endings ++ [.cancel]
      point := .cleaning trouble }

def read (pipe : Pipe V E N) : Pipe V E N :=
  { pipe with source := pipe.source.read pipe.reader }.await (.read pipe.source.answers.length)

/-- The rest of a write, once the size function has returned or thrown. -/
def measured (pipe : Pipe V E N) (size : Except E N) : Pipe V E N :=
  let id := pipe.destination.accepted
  match pipe.destination.measuring with
  | [] => pipe
  | value :: _ =>
    let pipe := { pipe with destination := pipe.destination.measured size }
    match size with
    | .error error =>
      { pipe with point := .awaiting (.write id) (.rejected (.stream (some (.given error)))) }
    | .ok size =>
      if Number.valid size then { pipe with sent := pipe.sent ++ [(id, value)] }.await (.write id)
      else { pipe with point := .awaiting (.write id) (.rejected (.stream (some .invalidSize))) }

variable [Throwable E]

/-- `catch` -/
def fail (pipe : Pipe V E N) (trouble : Trouble E) : Pipe V E N :=
  if pipe.options.preventAbort then pipe.cancelSource trouble
  else
    { pipe with
      destination := pipe.destination.abortWrite (Throwable.value trouble)
      effective := pipe.destination.status = .writable
      endings := pipe.endings ++ [.abort]
      point := .aborting trouble }

/-- A write that is refused is rejected before its race begins. -/
def write (pipe : Pipe V E N) (value : V) : Pipe V E N :=
  if pipe.destination.Refuses then
    { pipe with
      point := .awaiting (.write pipe.destination.accepted)
        (.rejected (pipe.destination.refusal .notWritable)) }
  else { pipe with destination := pipe.destination.write value, point := .measuring }

/-- The source is at its end. -/
def finish (pipe : Pipe V E N) : Pipe V E N :=
  let pipe := { pipe with sourceDone := true }
  if pipe.options.preventClose then pipe.conclude .resolved
  else
    let pipe := { pipe with endings := pipe.endings ++ [Ending.close] }
    if pipe.destination.Refuses then
      { pipe with
        point := .awaiting .close (.rejected (pipe.destination.refusal .notClosable)) }
    else { pipe with destination := pipe.destination.closeWrite }.await .close

def resume (pipe : Pipe V E N) : Pipe V E N :=
  match pipe.point with
  | .awaiting _ (.rejected trouble) => pipe.fail trouble
  | .awaiting .ready .fulfilled => pipe.read
  | .awaiting (.read request) .fulfilled =>
    match pipe.source.answers[request]? with
    | some (.chunk value) => pipe.write value
    | some .done => pipe.finish
    | _ => pipe
  | .awaiting (.write _) .fulfilled =>
    { pipe with fulfilled := pipe.fulfilled + 1 }.await .ready
  | .awaiting .close .fulfilled => pipe.conclude .resolved
  | _ => pipe

def ofDestination (pipe : Pipe V E N) (step : WriteStep V E N) : Pipe V E N :=
  match pipe.point, step with
  | .measuring, .measured size => pipe.measured size
  | _, _ => { pipe with destination := pipe.destination.perform step }.watch

/-- Reactions wait until no script is running. -/
def react (pipe : Pipe V E N) : PipeEvent V E N → Pipe V E N
  | .closed =>
    if pipe.watching && pipe.destination.closed = .fulfilled then
      ({ pipe with watching := false }.interrupt .closedEarly).watch
    else if pipe.watching && pipe.destination.closed = .rejected then
      ({ pipe with watching := false }.interrupt (.stream pipe.destination.error)).watch
    else pipe
  | .resume => pipe.resume
  | .callCancel => { pipe with telling := false }
  | .cleaned =>
    match pipe.point with
    | .cleaning trouble =>
      -- `allSettled` of the promises of the sink's `abort` and of the source's `cancel`
      if (pipe.effective = true → pipe.destination.aborting = none) ∧ pipe.telling = false then
        pipe.conclude (.rejected trouble)
      else pipe
    | _ => pipe
  | _ => pipe

/-- Nobody else has the reader and the writer of the pipe. -/
def perform (pipe : Pipe V E N) : PipeEvent V E N → Pipe V E N
  | .source step =>
    if step.uses pipe.reader then pipe
    else { pipe with source := pipe.source.perform step }.watch
  | .destination step => if step.uses pipe.writer then pipe else pipe.ofDestination step
  | .abort reason =>
    if pipe.listening then
      ({ pipe with listening := false }.interrupt (.signal reason)).watch
    else pipe
  | .listened =>
    match pipe.point with
    | .aborting trouble => pipe.cancelSource trouble
    | _ => pipe
  | event => if pipe.destination.measuring = [] then pipe.react event else pipe

/-- The call, up to its first `await`. -/
def pipeTo (source : Stream V E N) (destination : WritableStream V E N) (options : PipeOptions E) :
    Pipe V E N :=
  let pipe : Pipe V E N :=
    { source, destination, options
      reader := source.readers, writer := destination.writers, point := .refused
      skipped := source.delivered, precanceled := source.canceled }
  if source.reader.isSome then pipe
  else if destination.writer.isSome then
    { pipe with source := source.getReader.releaseLock source.readers }
  else
    let pipe := { pipe with
      source := source.getReader, destination := destination.perform .getWriter
      watching := true }
    match options.signal with
    | .absent => pipe.await .ready
    | .waiting => { pipe with listening := true }.await .ready
    | .aborted reason => (pipe.interrupt (.signal reason)).await .ready

def Start (pipe : Pipe V E N) : Prop :=
  ∃ (source : Stream V E N) (destination : WritableStream V E N) (options : PipeOptions E),
    source.Reached ∧
      Reachable WritableStream.Opened (fun before step after => before.perform step = after)
        destination ∧ pipe = pipeTo source destination options

/-- The chunks that the destination has accepted from the pipe. -/
def written (pipe : Pipe V E N) : List V := pipe.sent.map Prod.snd

/-- The chunks of the pipe that the sink has been called with, in the order of its calls. -/
def received (pipe : Pipe V E N) : List V :=
  pipe.destination.calls.filterMap fun id => pipe.sent.lookup id

end Pipe
end Chuzz.Streams
