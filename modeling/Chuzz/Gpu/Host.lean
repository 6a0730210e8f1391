import Chuzz.Gpu.Device

/-! The bridge between a page and the GPU pool. Requests wait for the document, then for one ordered
worker; those for adapters and devices start on tasks of their own. Between two sections under a lock
any other thread can move. Times are milliseconds. -/
namespace Chuzz.Gpu
local instance lawfulPreference : LawfulBEq (Option String) := inferInstance
open Std Library.Throwing

def deadline : Nat := 10000
def startupDeadline : Nat := 1000
def requestLimit : Nat := 4096
def objectLimit : Nat := 64

/-- The errors of these reject a promise of the page and go to no scope. -/
def DeviceOp.rejects : DeviceOp → Bool
  | .destroy | .pushErrorScope _ | .popErrorScope | .resource .getCompilationInfo
  | .resource (.pipeline (.createRenderPipeline true _))
  | .resource (.pipeline (.createComputePipeline true _)) => true
  | _ => false

/-- These run without waiting for the driver. -/
def DeviceOp.immediate : DeviceOp → Bool
  | .resource _ => false
  | _ => true

/-- What is asked of native code is left out where nothing here depends on it. -/
inductive Body where
  | adapter (powerPreference : Option String)
  | device (adapter : Nat)
  | command (device : Nat) (command : DeviceCommand) (fire : Bool)
  | readback
  | capture
  | bufferCapture

/-- `place` is the request's place in the order of the page. It also names its completion or slot. -/
structure Request where
  place : Nat
  id : Nat
  body : Body

namespace Request

def startup (self : Request) : Bool :=
  match self.body with
  | .adapter _ | .device _ => true
  | _ => false

/-- Only the page's own requests come as text. -/
def direct (self : Request) : Bool :=
  match self.body with
  | .readback | .capture | .bufferCapture => true
  | _ => false

def deliversReply (self : Request) : Bool :=
  match self.body with
  | .capture | .bufferCapture => false
  | _ => true

def fireDevice (self : Request) : Option Nat :=
  match self.body with
  | .command device _ true => some device
  | _ => none

def errorDevice (self : Request) : Option Nat :=
  match self.body with
  | .command device command _ => if command.op.rejects then none else some device
  | _ => none

end Request

/-- `place` is the request's, for the record. -/
structure Flight where
  place : Nat
  deadline : Nat
  device : Option Nat
  fireDevice : Option Nat
  startup : Bool
  deliversReply : Bool
deriving DecidableEq

def Flight.live (self : Flight) (now : Nat) : Bool := now < self.deadline

/-- An object that a page gets is the handle that the page has chosen for it. -/
inductive Payload where
  | value (value : Value)
  | object (handle : Nat)
deriving DecidableEq

inductive Reply where
  | ok (value : Payload)
  | error (error : GpuError) (reported : Bool) (fireDevice : Option Nat)
deriving DecidableEq

def Reply.succeeded : Reply → Bool
  | .ok _ => true
  | .error .. => false

/-- A completion or a slot. Pixels and bytes are of no interest. `finishes` counts the calls of
`finish`. -/
structure Slot where
  result : Option (Except GpuError Unit) := none
  finishes : Nat := 0

namespace Slot

/-- The first result is kept until it is taken. -/
def finish (self : Slot) (result : Except GpuError Unit) : Slot where
  result := self.result.or (some result)
  finishes := self.finishes + 1

def take (self : Slot) : Slot := { self with result := none }

end Slot

/-- What a command has done to the scopes of its device. -/
inductive Touch where
  | push (filter : Filter)
  | pop (error : Option GpuError)
  | report (error : GpuError)
deriving DecidableEq, Repr

/-- A device with the touches of its scopes so far, each with the place of its command. -/
structure Tracked where
  connection : Connection := .new
  touches : List (Nat × Touch) := []

/-- Why no reply was posted for a request. -/
inductive Closing where
  | success | report | capture
deriving DecidableEq

/-- `devices` hold where their connection is in `connections`. What follows `slots` is for the
record: the requests that have been made, the replies that have reached the page, the requests that
were completed without one, the errors that are to be reported, each with the place of its command
and the connection it goes to, and the captures that were cut off. -/
structure State where
  now : Nat := 0
  adapters : ExtTreeMap Nat Unit := ∅
  devices : ExtTreeMap Nat Nat := ∅
  incoming : List Request := []
  requests : List Request := []
  running : Bool := false
  inFlight : ExtTreeMap Nat Flight := ∅
  ready : List (Nat × Reply) := []
  connections : List Tracked := []
  slots : Nat → Slot := fun _ => {}
  issued : List Request := []
  delivered : List (Nat × Reply) := []
  closed : List (Nat × Closing) := []
  failures : List (Nat × Nat × GpuError) := []
  cutOff : List Nat := []

namespace State

def live (self : State) (id : Nat) : Bool := self.inFlight[id]?.any (·.live self.now)

def objects (self : State) : Nat := self.adapters.size + self.devices.size

def post (self : State) (id : Nat) (reply : Reply) : State :=
  { self with ready := self.ready ++ [(id, reply)] }

def close (self : State) (id : Nat) (closing : Closing) : State :=
  { self with closed := self.closed ++ [(id, closing)] }

/-- A new request. -/
def request (self : State) (id : Nat) (body : Body) : Request where
  place := self.issued.length
  id := id
  body := body

def issue (self : State) (request : Request) : State :=
  { self with issued := self.issued ++ [request] }

def finishSlot (self : State) (place : Nat) (result : Except GpuError Unit) : State :=
  { self with slots := Function.update self.slots place ((self.slots place).finish result) }

/-- `reject_readback` -/
def reject (self : State) (request : Request) (error : GpuError) : State :=
  if request.direct then self.finishSlot request.place (.error error) else self

def onConnection (self : State) (address : Nat) (update : Tracked → Tracked) : State :=
  { self with connections := self.connections.modify address update }

end State

namespace Tracked

def report (self : Tracked) (place : Nat) (error : GpuError) : Tracked where
  connection := self.connection.report error
  touches := self.touches ++ [(place, .report error)]

end Tracked

/-- What a command does to the scopes of its device. -/
def touched (native : Native) (command : DeviceCommand) (self : Connection) : List Touch :=
  match command.op with
  | .pushErrorScope filter =>
    match pushErrorScope filter self, filter.bind Filter.parse with
    | .ok .., some filter => [.push filter]
    | _, _ => []
  | .popErrorScope => (self.scopes.head?.map fun scope => .pop scope.error).toList
  | .resource (.createShaderModule args) =>
    if self.lost then []
    else match createShader native command.handle args self.resources with
      | .ok (some error) _ => [.report error]
      | _ => []
  | _ => []

def Tracked.execute (native : Native) (request : Request) (command : DeviceCommand) (self : Tracked) :
    Tracked where
  connection := left (Gpu.execute native command) self.connection
  touches := self.touches ++ (touched native command self.connection).map (request.place, ·)

/-- The result of a task that can throw. -/
def resultOf (task : DeviceTask Value) (self : Connection) : Except GpuError Payload :=
  match task self with
  | .ok value _ => .ok (.value value)
  | .error error _ => .error error

/-- Where `complete_request` stands. -/
inductive Completion where
  | start (id : Nat) (result : Except GpuError Payload)
  | taken (id : Nat) (flight : Flight) (result : Except GpuError Payload)
  /-- A start-up that is too late leaves no object behind. -/
  | cleaning (id : Nat) (flight : Flight)
  | judged (id : Nat) (flight : Flight) (result : Except GpuError Payload)
  | reporting (id : Nat) (flight : Flight) (error : GpuError) (address : Nat)
  | posting (id : Nat) (reply : Reply)

/-- What a thread does after a completion. The worker comes from the request that it has run. -/
inductive Next where
  | polling (request : Request)
  | expiring (ids : List Nat)
  | ended

/-- Where a thread stands: the worker, the task of a start-up, or the document in a pass over the
requests that are too late. -/
inductive Thread where
  | polling
  | picked (request : Request)
  | executing (request : Request)
  | commanding (request : Request) (address : Nat)
  | finishing (request : Request) (result : Except GpuError Payload)
  | spawned (request : Request)
  | opening (request : Request)
  | waiting (request : Request)
  | expiring (ids : List Nat)
  | completing (completion : Completion) (next : Next)
  | ended

def Next.thread : Next → Thread
  | .polling _ => .polling
  | .expiring ids => .expiring ids
  | .ended => .ended

/-- What native code and the timers decide. -/
inductive Choice where
  | proceed
  /-- Native code reports an error while a command runs. -/
  | raise (error : GpuError)
  | run (native : Native)
  /-- What an image command, a readback or a capture gives. -/
  | answer (result : Except GpuError Payload)
  /-- The time is over. A command is left somewhere on its way. -/
  | cut (resources : Resources)
  /-- An adapter or device cannot be had, for the reason given. -/
  | refuse (message : String)
  | nothing
  | insert

def timedOut : GpuError := .internal "WebGPU request timed out in chuzz"

/-- `Request::execute` up to the first wait, for a start-up. -/
def openStartup (state : State) (request : Request) : State × Except GpuError Unit :=
  match request.body with
  | .adapter powerPreference =>
    if powerPreference ∉ [none, some "low-power", some "high-performance"] then
      (state, .error (.validation "invalid GPURequestAdapterOptions.powerPreference"))
    else if state.objects ≥ objectLimit then
      (state, .error (.validation "WebGPU object limit reached in chuzz"))
    else (state, .ok ())
  | .device adapter =>
    if adapter ∈ state.adapters then
      ({ state with adapters := state.adapters.erase adapter }, .ok ())
    else (state, .error (.validation "GPUAdapter is invalid or has already requested a device"))
  | _ => (state, .ok ())

/-- The end of `request_adapter` and of `request_device`. -/
def insertObject (state : State) (request : Request) : State × Except GpuError Payload :=
  match request.body with
  | .adapter _ =>
    if ¬ state.live request.id then
      (state, .error (.validation "GPU adapter request expired in chuzz"))
    else if state.objects ≥ objectLimit then
      (state, .error (.validation "WebGPU object limit reached in chuzz"))
    else ({ state with adapters := state.adapters.insert request.id () }, .ok (.object request.id))
  | .device _ =>
    if ¬ state.live request.id then
      (state, .error (.validation "GPU device request expired in chuzz"))
    else if state.objects ≥ objectLimit then
      (state, .error (.validation "WebGPU object limit reached in chuzz"))
    else
      ({ state with
          devices := state.devices.insert request.id state.connections.length
          connections := state.connections ++ [{}] }, .ok (.object request.id))
  | _ => (state, .ok (.value .null))

/-- One section of `complete_request`. -/
def advanceCompletion (state : State) (next : Next) : Completion → State × Thread
  | .start id result =>
    match state.inFlight[id]? with
    | none => (state, next.thread)
    | some flight =>
      ({ state with inFlight := state.inFlight.erase id },
        .completing (.taken id flight result) next)
  | .taken id flight result =>
    if flight.live state.now then (state, .completing (.judged id flight result) next)
    else if flight.startup then (state, .completing (.cleaning id flight) next)
    else (state, .completing (.judged id flight (.error timedOut)) next)
  | .cleaning id flight =>
    ({ state with adapters := state.adapters.erase id, devices := state.devices.erase id },
      .completing (.judged id flight (.error timedOut)) next)
  | .judged id flight result =>
    if ¬ flight.deliversReply then (state.close id .capture, next.thread)
    else match result with
      | .ok value =>
        if flight.fireDevice.isSome then (state.close id .success, next.thread)
        else (state, .completing (.posting id (.ok value)) next)
      | .error error =>
        match flight.device.bind (state.devices[·]?) with
        | none =>
          (state, .completing (.posting id (.error error false flight.fireDevice)) next)
        | some address =>
          ({ state with failures := state.failures ++ [(flight.place, address, error)] },
            .completing (.reporting id flight error address) next)
  | .reporting id flight error address =>
    let reported := state.onConnection address (·.report flight.place error)
    if flight.fireDevice.isSome then (reported.close id .report, next.thread)
    else (reported, .completing (.posting id (.error error true flight.fireDevice)) next)
  | .posting id reply => (state.post id reply, next.thread)

/-- The worker inside `execute`. -/
def advanceExecution (state : State) (request : Request) : Choice → Option (State × Thread)
  | .proceed =>
    match request.body with
    | .command device _ _ =>
      if device = 0 then none
      else match state.devices[device]? with
        | none => some (state, .finishing request (.error (.validation "invalid GPUDevice")))
        | some address => some (state, .commanding request address)
    | _ => none
  | .answer result =>
    match request.body with
    | .command device _ _ => if device = 0 then some (state, .finishing request result) else none
    | .readback | .capture | .bufferCapture =>
      some (state.finishSlot request.place (result.map fun _ => ()),
        .finishing request (.ok (.value .null)))
    | _ => none
  | .cut _ =>
    match request.body with
    | .command device _ _ =>
      if device = 0 then some (state, .finishing request (.error timedOut)) else none
    | .readback => some (state, .finishing request (.error timedOut))
    | .capture =>
      let cancelled := state.finishSlot request.place
        (.error (.internal "WebGPU capture timed out in chuzz"))
      some ({ cancelled with cutOff := state.cutOff ++ [request.place] },
        .finishing request (.error timedOut))
    | _ => none
  | _ => none

/-- The worker inside the command of a device. -/
def advanceCommand (state : State) (request : Request) (address : Nat) :
    Choice → Option (State × Thread)
  | .raise error =>
    some (state.onConnection address (·.report request.place error), .commanding request address)
  | .run native =>
    match request.body, state.connections[address]? with
    | .command _ command _, some device =>
      some (state.onConnection address (·.execute native request command),
        .finishing request (resultOf (execute native command) device.connection))
    | _, _ => none
  | .cut resources =>
    match request.body with
    | .command _ command _ =>
      if command.op.immediate then none
      else some (state.onConnection address fun device =>
          { device with connection := { device.connection with resources } },
        .finishing request (.error timedOut))
    | _ => none
  | _ => none

/-- The task of a start-up, waiting for native code. -/
def advanceStartup (state : State) (request : Request) : Choice → Option (State × Thread)
  | .refuse message =>
    some (state, .completing (.start request.id (.error (.validation message))) .ended)
  | .nothing =>
    match request.body with
    | .adapter _ => some (state, .completing (.start request.id (.ok (.value .null))) .ended)
    | _ => none
  | .cut _ => some (state, .completing (.start request.id
      (.error (.internal "WebGPU startup timed out in chuzz"))) .ended)
  | .insert =>
    let (after, result) := insertObject state request
    some (after, .completing (.start request.id result) .ended)
  | _ => none

/-- One section of a thread. `none` is for choices that it does not have. -/
def advance (state : State) (choice : Choice) : Thread → Option (State × Thread)
  | .polling =>
    match state.requests with
    | [] => some ({ state with running := false }, .ended)
    | request :: rest => some ({ state with requests := rest }, .picked request)
  | .picked request =>
    if state.live request.id then some (state, .executing request)
    else some (state.reject request timedOut, .polling)
  | .executing request => advanceExecution state request choice
  | .commanding request address => advanceCommand state request address choice
  | .finishing request result =>
    match result with
    | .ok _ => some (state, .completing (.start request.id result) (.polling request))
    | .error error =>
      some (state.reject request error,
        .completing (.start request.id result) (.polling request))
  | .spawned request =>
    if state.live request.id then some (state, .opening request) else some (state, .ended)
  | .opening request =>
    match openStartup state request with
    | (after, .ok ()) => some (after, .waiting request)
    | (after, .error error) => some (after, .completing (.start request.id (.error error)) .ended)
  | .waiting request => advanceStartup state request choice
  | .expiring [] => some (state, .ended)
  | .expiring (id :: ids) =>
    some (state, .completing (.start id (.error timedOut)) (.expiring ids))
  | .completing completion next => some (advanceCompletion state next completion)
  | .ended => none

/-- A document's bridge with every thread that has it. -/
structure Bridge where
  state : State := {}
  threads : List Thread := []

namespace Bridge

def limitReached : GpuError := .internal "WebGPU request limit reached in chuzz"
def startupBusy : GpuError := .internal "WebGPU startup is busy in chuzz"

/-- `busy` is for the eight start-ups that all documents share. -/
def enqueue (self : Bridge) (request : Request) (busy : Bool) : Bridge :=
  let state := self.state
  if request.startup && busy then
    { self with
      state := state.post request.id (.error startupBusy false none) }
  else if state.inFlight.size ≥ requestLimit ∨ request.id ∈ state.inFlight then
    let state := state.reject request limitReached
    { self with state :=
        if request.deliversReply then
          state.post request.id (.error limitReached false request.fireDevice)
        else state.close request.id .capture }
  else
    let flight : Flight := {
      place := request.place
      deadline := state.now + if request.startup then startupDeadline else deadline
      device := request.errorDevice
      fireDevice := request.fireDevice
      startup := request.startup
      deliversReply := request.deliversReply }
    let state := { state with inFlight := state.inFlight.insert request.id flight }
    if request.startup then { state, threads := self.threads ++ [.spawned request] }
    else
      let waiting := { state with requests := state.requests ++ [request] }
      if state.running then { self with state := waiting }
      else { state := { waiting with running := true }, threads := self.threads ++ [.polling] }

/-- The ids of the requests that are too late. -/
def expired (state : State) : List Nat :=
  (state.inFlight.toList.filter fun (_, flight) => ¬ flight.live state.now).map Prod.fst

inductive Label where
  /-- The page sends a request. `claim` is the error of its byte handles, if any. -/
  | handle (id : Nat) (body : Body) (claim : Option GpuError)
  /-- The document prepares the next request and passes it on. -/
  | prepare (busy : Bool)
  /-- A readback or a capture is asked for. -/
  | submit (id : Nat) (body : Body)
  | elapse (duration : Nat)
  /-- A pass over the requests that are too late begins; they come in any order. -/
  | expire (order : List Nat)
  /-- The replies that are ready reach the page. -/
  | drain
  /-- Whoever waits for a slot takes what is there. -/
  | take (place : Nat)
  /-- A device is found to be lost. -/
  | lose (address : Nat)
  | advance (thread : Nat) (choice : Choice)

def handle (self : Bridge) (request : Request) (claim : Option GpuError) : Bridge :=
  let state := self.state.issue request
  { self with state :=
      match claim with
      | some error => state.post request.id (.error error false request.fireDevice)
      | none =>
        if self.state.incoming.length + self.state.inFlight.size ≥ requestLimit then
          state.post request.id (.error limitReached false request.fireDevice)
        else { state with incoming := state.incoming ++ [request] } }

/-- A label that is not possible changes nothing. -/
def perform (self : Bridge) : Label → Bridge
  | .handle id body claim =>
    let request := self.state.request id body
    if request.direct then self else self.handle request claim
  | .prepare busy =>
    match self.state.incoming with
    | [] => self
    | request :: rest =>
      enqueue { self with state := { self.state with incoming := rest } } request busy
  | .submit id body =>
    let request := self.state.request id body
    if request.direct then enqueue { self with state := self.state.issue request } request false
    else self
  | .elapse duration =>
    { self with state := { self.state with now := self.state.now + duration } }
  | .expire order =>
    if order.isPerm (expired self.state) then
      { self with threads := self.threads ++ [.expiring order] }
    else self
  | .drain =>
    { self with state := { self.state with
        delivered := self.state.delivered ++ self.state.ready
        ready := [] } }
  | .take place =>
    { self with state := { self.state with
        slots := Function.update self.state.slots place (self.state.slots place).take } }
  | .lose address =>
    { self with state := self.state.onConnection address fun device =>
        { device with connection := { device.connection with lost := true } } }
  | .advance k choice =>
    match self.threads[k]?.bind (advance self.state choice) with
    | none => self
    | some (state, thread) => { state, threads := self.threads.set k thread }

def new : Bridge := {}

def step (before : Bridge) (label : Label) (after : Bridge) : Prop :=
  before.perform label = after

abbrev Reached : Bridge → Prop := Library.Transition.Reachable (· = new) step

end Bridge
end Chuzz.Gpu
