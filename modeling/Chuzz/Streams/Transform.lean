import Chuzz.Streams.Writable

/-! A transform stream: the sink of its writable side waits for demand, which the pulls of its
readable side announce, and calls the transformer. The demand is a promise that is replaced
whenever a chunk finds nobody to read it and no room. -/
namespace Chuzz.Streams

/-- The sink's asynchronous call that is under way. -/
inductive Call (V : Type) where
  | none
  /-- A write waits for a demand. -/
  | awaiting (id demand : Nat) (value : V)
  | transforming (id : Nat)
  | flushing
deriving DecidableEq, Repr

/-- During which of the transformer's calls a chunk was enqueued. -/
inductive Origin where
  | elsewhere
  | transform (id : Nat)
  | flush
deriving DecidableEq, Repr

/-- The last two fields are history. Demands are numbered, and the last one is current. -/
structure TransformStream (V E N : Type) where
  /-- The transformer has a `transform`. -/
  transforms : Bool
  input : WritableStream V E N
  output : Stream V E N
  demands : List Settlement := [.waiting]
  call : Call V := .none
  /-- The source has been told that the readable side is canceled. -/
  told : Bool := false
  emitted : List (Origin × V) := []
  flushed : Bool := false
deriving DecidableEq, Repr

inductive TransformStep (V E N : Type) where
  | input (step : WriteStep V E N)
  | output (step : Step V E N)
  /-- `controller.enqueue`, wherever it is called. -/
  | enqueue (value : V) (size : Except E N)
  | error (error : E)
  /-- With the error that it makes. -/
  | terminate (error : E)
  /-- The promise of the transformer's `start` is settled. -/
  | started (failure : Option E)
  /-- The demand of the waiting write is settled; what its chunk weighs and what its `enqueue`
  may throw, if there is no `transform`. -/
  | resume (size : Except E N) (thrown : E)
  | transformed (failure : Option E)
  | flushed (failure : Option E)
  | cancelTold (reason : E)

namespace TransformStream
variable {V E N : Type} [Measured N]

def current (stream : TransformStream V E N) : Nat := stream.demands.length - 1

def pending (stream : TransformStream V E N) (demand : Nat) : Bool :=
  stream.demands[demand]? = some .waiting

/-- The current demand is settled, unless it is already. -/
def settleDemand (stream : TransformStream V E N) (answer : Settlement) : TransformStream V E N :=
  if stream.pending stream.current then
    { stream with demands := stream.demands.set stream.current answer }
  else stream

def origin (stream : TransformStream V E N) : Origin :=
  match stream.call with
  | .transforming id => .transform id
  | .flushing => .flush
  | .none | .awaiting _ _ _ => .elsewhere

/-- Nobody reads, and there is no room. -/
def full (output : Stream V E N) : Bool :=
  output.reads = [] && Number.nonpositive (Number.sub output.hwm output.total)

/-- `controller.enqueue`, and whether it returns. -/
def enqueue (stream : TransformStream V E N) (value : V) (size : Except E N) :
    TransformStream V E N × Bool :=
  let (output, returns) := stream.output.enqueue value size
  if returns then
    ({ stream with
      output
      emitted := stream.emitted ++ [(stream.origin, value)]
      demands := if full output then stream.demands ++ [.waiting] else stream.demands }, true)
  else ({ stream with output }, false)

/-- `controller.error` -/
def fail (stream : TransformStream V E N) (error : E) : TransformStream V E N :=
  { stream with
    output := stream.output.fail (.given error)
    input := stream.input.perform (.error error) }.settleDemand .rejected

/-- `controller.terminate` -/
def terminate (stream : TransformStream V E N) (error : E) : TransformStream V E N :=
  let (output, returns) := stream.output.close
  if returns then
    { stream with
      output
      input := stream.input.perform (.error error) }.settleDemand .rejected
  else stream

/-- The promise of the sink's call is settled. -/
def finishCall (stream : TransformStream V E N) (failure : Option E) : TransformStream V E N :=
  { stream with call := .none, input := stream.input.perform (.settle failure) }

/-- A reaction of the writable side, which may call the sink. -/
def react (stream : TransformStream V E N) : TransformStream V E N :=
  let after := { stream with input := stream.input.perform .react }
  match stream.input.stage, after.input.stage, after.input.chain with
  | .calling, _, _ => after
  | _, .calling, .write id value _ :: _ => { after with call := .awaiting id stream.current value }
  | _, .calling, .close :: _ => { after with call := .flushing, flushed := true }
  | _, _, _ => after

/-- The sink is told with the reason of the abort, which is the error of the writable side. -/
def callAbort (stream : TransformStream V E N) : TransformStream V E N :=
  let after := { stream with input := stream.input.perform .callAbort }
  if stream.input.measuring = [] ∧ stream.input.aborting = some 0 then
    match stream.input.error with
    | some (.given reason) => after.fail reason
    | _ => after
  else after

def resume (stream : TransformStream V E N) (size : Except E N) (thrown : E) :
    TransformStream V E N :=
  match stream.call with
  | .awaiting id demand value =>
    match stream.demands[demand]? with
    | some .fulfilled =>
      let called := { stream with call := .transforming id }
      if stream.transforms then called
      else
        let (after, returns) := called.enqueue value size
        if returns then after.finishCall none
        else (after.fail thrown).finishCall (some thrown)
    | some .rejected => stream.finishCall (some thrown)
    | _ => stream
  | _ => stream

def transformed (stream : TransformStream V E N) (failure : Option E) : TransformStream V E N :=
  match stream.call, failure with
  | .transforming _, none => stream.finishCall none
  | .transforming _, some error => (stream.fail error).finishCall (some error)
  | _, _ => stream

def flush (stream : TransformStream V E N) (failure : Option E) : TransformStream V E N :=
  match stream.call, failure with
  | .flushing, none => { stream with output := stream.output.close.1 }.finishCall none
  | .flushing, some error => (stream.fail error).finishCall (some error)
  | _, _ => stream

def started (stream : TransformStream V E N) (failure : Option E) : TransformStream V E N :=
  match stream.input.chain, stream.input.stage with
  | .start :: _, .waiting =>
    let settled := { stream with input := stream.input.perform (.settle failure) }
    match failure with
    | none => settled
    | some error => settled.fail error
  | _, _ => stream

/-- A label that cannot happen changes nothing. The promises of the sink and the controllers of
the two sides are the transform's own. -/
def perform (stream : TransformStream V E N) : TransformStep V E N → TransformStream V E N
  | .input step =>
    match step with
    | .settle _ | .error _ => stream
    | .react => stream.react
    | .callAbort => stream.callAbort
    | step => { stream with input := stream.input.perform step }
  | .output step =>
    match step with
    | .enqueue _ _ | .close | .error _ | .startFailed _ | .pullFailed _ => stream
    | .pullCall =>
      if stream.output.job = .call then
        { stream with output := stream.output.perform .pullCall }.settleDemand .fulfilled
      else stream
    | step => { stream with output := stream.output.perform step }
  | .enqueue value size => (stream.enqueue value size).1
  | .error error => stream.fail error
  | .terminate error => stream.terminate error
  | .started failure => stream.started failure
  | .resume size thrown => stream.resume size thrown
  | .transformed failure => stream.transformed failure
  | .flushed failure => stream.flush failure
  | .cancelTold reason =>
    if stream.output.canceled && !stream.told then
      { stream with
        told := true
        input := stream.input.perform (.error reason) }.settleDemand .rejected
    else stream

def start (transforms : Bool) (writableHwm readableHwm : N) : TransformStream V E N where
  transforms
  input := WritableStream.start {} writableHwm
  output := Stream.start readableHwm

end TransformStream
end Chuzz.Streams
