import Chuzz.Library.Transition
import Chuzz.Library.TreeMapValues
import Chuzz.Video.SourceBuffer

/-! MediaSource presentations and the host's store of them. Every operation
gives the state it leaves behind whether it succeeds or fails, so that an early
return keeps what was written before it. Locks are taken for a whole call and
are never poisoned. A presentation that `close` takes out of the store only has
its `closed` flag set and receives no further request. -/
namespace Chuzz.Video
open Std Library.TreeMapValues

def sourceLimit : Nat := 128 * 1024 * 1024
def documentLimit : Nat := 256 * 1024 * 1024
def uploadLimit : Nat := 16 * 1024 * 1024
def maxId : Nat := 9007199254740991

structure Presentation where
  buffers : ExtTreeMap Nat Buffer := ∅
  duration : Float := nan
  ended : Bool := false
  closed : Bool := false
  epoch : Nat := 0
  live : Option Range := none
  error : Option MediaError := none

inductive DurationKind where
  | unknown | infinite | finite
deriving DecidableEq, Repr

/-- The JSON value of a successful request. -/
inductive Value where
  | empty
  | source (duration : Option Float) (durationKind : DurationKind)
      (buffered : Option (List Range)) (timestampOffset : Option Float)

structure Input where
  track : Track
  packets : List Encoded

structure View where
  video : Option Input
  audio : Option Input
  duration : Float
  ended : Bool
  closed : Bool
  ready : Bool
  epoch : Nat
  buffered : List Range
  seekable : List Range
  error : Option MediaError

/-- Bytes of the blocks that packets hold, each block counted once. -/
def distinctBytes : (seen : List Nat) → List Encoded → Nat
  | _, [] => 0
  | seen, packet :: rest =>
    if packet.bytes.name ∈ seen then distinctBytes seen rest
    else packet.bytes.bytes.length + distinctBytes (packet.bytes.name :: seen) rest

namespace Presentation

def endTime (self : Presentation) : Float :=
  ((values self.buffers).map Buffer.endTime).foldl fmax 0

def ready (self : Presentation) : Bool :=
  values self.buffers ≠ [] ∧ (values self.buffers).all fun buffer => buffer.parser.tracks ≠ []

def packets (self : Presentation) : List Encoded :=
  (values self.buffers).flatMap fun buffer => buffer.video ++ buffer.audio

def memory (self : Presentation) : Nat :=
  total (·.parser.pendingBytes) self.buffers + distinctBytes [] self.packets

def endedAt (self : Presentation) : Option Float :=
  if self.ended then some self.endTime else none

def ranges (self : Presentation) : List Range :=
  match (values self.buffers).map (·.ranges self.endedAt) with
  | [] => []
  | first :: rest => rest.foldl intersection first

/-- The last track of a kind, with the packets of its buffer. -/
def input (self : Presentation) (video : Bool) : Option Input :=
  (values self.buffers).foldl (fun found buffer =>
    buffer.parser.tracks.foldl (fun found track =>
      if track.codec.isVideo = video then
        some { track, packets := if video then buffer.video else buffer.audio }
      else found) found) none

def seekable (self : Presentation) : List Range :=
  match self.live with
  | some live =>
    if self.duration == infinity then
      [⟨self.ranges.head?.elim live.start (fmin live.start ·.start),
        self.ranges.getLast?.elim live.stop (fmax live.stop ·.stop)⟩]
    else self.ranges
  | none => self.ranges

def view (self : Presentation) : View where
  video := self.input true
  audio := self.input false
  duration := self.duration
  ended := self.ended
  closed := self.closed
  ready := self.ready
  epoch := self.epoch
  buffered := self.ranges
  seekable := self.seekable
  error := self.error

def reply (self : Presentation) (buffer : Nat) : Value :=
  .source (if self.duration.isFinite then some self.duration else none)
    (if self.duration.isNaN then .unknown else if self.duration.isInf then .infinite else .finite)
    (self.buffers[buffer]?.map (·.ranges self.endedAt)) (self.buffers[buffer]?.map (·.offset))

abbrev Result := Presentation × Except Error Unit

def fail (self : Presentation) (message : String) : Result := (self, .error (.state message))

/-- `source.buffers.insert(buffer, value)` -/
def setBuffer (self : Presentation) (buffer : Nat) (value : Buffer) : Presentation :=
  { self with buffers := self.buffers.insert buffer value }

/-- `epoch += 1`. -/
def bump (self : Presentation) : Presentation := { self with epoch := wrappingAdd self.epoch 1 }

def add (self : Presentation) (request : Request) : Result :=
  match mime request.mime with
  | none => (self, .error ⟨"NotSupportedError", "MSE supports H.264 and AAC-LC fragmented MP4 only"⟩)
  | some mime =>
    if self.ended ∨ request.buffer = 0 ∨ request.buffer ∈ self.buffers then
      self.fail "invalid SourceBuffer"
    else if (values self.buffers).length ≥ 2 ∨ (values self.buffers).any (fun buffer =>
        buffer.mime.video && mime.video || buffer.mime.audio && mime.audio) then
      (self, .error .quota)
    else ((self.setBuffer request.buffer { mime }).bump, .ok ())

def delete (self : Presentation) (request : Request) : Result :=
  if request.buffer ∈ self.buffers then
    ({ self with buffers := self.buffers.erase request.buffer }.bump, .ok ())
  else self.fail "SourceBuffer was removed"

def reopen (self : Presentation) : Result :=
  (if self.ended then { self with ended := false }.bump else self, .ok ())

/-- The duration after an append: unknown becomes infinite, finite grows. -/
def extendDuration (self : Presentation) : Presentation :=
  if ¬ self.ready then self
  else if self.duration.isNaN then { self with duration := infinity }
  else if self.duration.isFinite then { self with duration := fmax self.duration self.endTime }
  else self

def append (readMp4 : ReadMp4) (self : Presentation) (bytes : Option Block) (request : Request) :
    Result :=
  if self.ended then self.fail "MediaSource has ended"
  else
    match bytes with
    | none => self.fail "invalid or consumed byte handle"
    | some bytes =>
      match self.buffers[request.buffer]? with
      | none => self.fail "SourceBuffer was removed"
      | some old =>
        match old.append readMp4 bytes request with
        | .error error => (self, .error error)
        | .ok (staged, changed) =>
          let source := self.setBuffer request.buffer staged
          if source.memory > sourceLimit then
            (source.setBuffer request.buffer old, .error .quota)
          else ((if changed then source.bump else source).extendDuration, .ok ())

def abort (self : Presentation) (request : Request) : Result :=
  match self.buffers[request.buffer]? with
  | none => self.fail "SourceBuffer was removed"
  | some buffer =>
    (self.setBuffer request.buffer { buffer with parser := buffer.parser.abort }, .ok ())

def remove (self : Presentation) (request : Request) : Result :=
  let stop := request.stop.getD infinity
  if ¬ request.start.isFinite ∨ request.start < 0 ∨ stop ≤ request.start then
    self.fail "invalid removal interval"
  else
    match self.buffers[request.buffer]? with
    | none => self.fail "SourceBuffer was removed"
    | some buffer =>
      let (buffer, removed) := buffer.remove request.start stop
      let source := self.setBuffer request.buffer buffer
      (if removed then source.bump else source, .ok ())

/-- Every buffer loses what lies behind the new duration. -/
def truncate (self : Presentation) (duration : Float) : Presentation :=
  { self with buffers := self.buffers.map fun _ (buffer : Buffer) => (buffer.remove duration infinity).1 }.bump

def setDuration (self : Presentation) (request : Request) : Result :=
  let duration := request.value.getD infinity
  if duration < 0 ∨ duration.isNaN ∨ self.ended then self.fail "invalid MSE duration"
  else
    let source := if duration < self.duration then self.truncate duration else self
    ({ source with duration }, .ok ())

def setLive (self : Presentation) (request : Request) : Result :=
  match request.stop with
  | none => self.fail "missing live range end"
  | some stop =>
    if ¬ request.start.isFinite ∨ ¬ stop.isFinite ∨ request.start < 0 ∨ stop < request.start ∨
        self.ended then
      self.fail "invalid live seekable range"
    else ({ self with live := some ⟨request.start, stop⟩ }, .ok ())

/-- Some buffer waits for the rest of a box or for the `mdat` of a `moof`. -/
def incomplete (self : Presentation) : Bool :=
  (values self.buffers).any fun buffer =>
    buffer.parser.pendingBytes ≠ 0 || buffer.parser.fragmentPending

def endOfStreamError (error : String) : Except Error (Option MediaError) :=
  if error = "" then .ok none
  else if error = "network" then .ok (some (.network "MediaSource ended with a network error"))
  else if error = "decode" then .ok (some (.decode "MediaSource ended with a decode error"))
  else .error (.state "invalid endOfStream error")

def endOfStream (self : Presentation) (request : Request) : Result :=
  if self.ended ∨ ¬ self.ready ∨ self.incomplete then
    self.fail "incomplete or uninitialized MSE stream"
  else
    let source := { self with ended := true, duration := self.endTime }
    match endOfStreamError request.error with
    | .ok error => ({ source with error }, .ok ())
    | .error error => (source, .error error)

/-- The operations on one attached source. -/
def operate (readMp4 : ReadMp4) (self : Presentation) (bytes : Option Block) (request : Request) :
    Result :=
  match request.op with
  | .info => (self, .ok ())
  | .add => self.add request
  | .delete => self.delete request
  | .reopen => self.reopen
  | .append => self.append readMp4 bytes request
  | .abort => self.abort request
  | .remove => self.remove request
  | .duration => self.setDuration request
  | .live => self.setLive request
  | .clearLive => ({ self with live := none }, .ok ())
  | .end => self.endOfStream request
  | .open | .close | .other => self.fail "unknown MSE operation"

end Presentation

structure Store where
  sources : ExtTreeMap Nat Presentation := ∅
  uploads : ExtTreeMap Nat Bytes := ∅
  nextUpload : Nat := 0

/-- What a call of the page returns. -/
inductive Outcome where
  | handle (id : Nat)
  | undefined
  | value (value : Value)
  | error (error : Error)
  | exception (message : String)

namespace Store

def memory (self : Store) : Nat :=
  total List.length self.uploads + total Presentation.memory self.sources

/-- `store.uploads.remove(&handle)` -/
def consume (self : Store) (handle : Option Nat) : Store :=
  match handle with
  | none => self
  | some handle => { self with uploads := self.uploads.erase handle }

/-- The upload that a request names. -/
def staged (self : Store) (handle : Option Nat) : Option Block :=
  handle.bind fun handle => self.uploads[handle]?.map (Block.mk handle)

def openSource (self : Store) (request : Request) : Store × Except Error Value :=
  if request.source = 0 ∨ request.source > maxId ∨ request.source ∈ self.sources then
    (self, .error (.state "invalid or already attached MediaSource"))
  else if (values self.sources).length ≥ 32 then (self, .error .quota)
  else ({ self with sources := self.sources.insert request.source {} }, .ok .empty)

def closeSource (self : Store) (request : Request) : Store × Except Error Value :=
  ({ self with sources := self.sources.erase request.source }, .ok .empty)

def control (readMp4 : ReadMp4) (self : Store) (request : Request) : Store × Except Error Value :=
  let bytes := self.staged request.handle
  let store := self.consume request.handle
  match request.op with
  | .open => store.openSource request
  | .close => store.closeSource request
  | _ =>
    match store.sources[request.source]? with
    | none => (store, .error (.state "MediaSource is closed"))
    | some source =>
      let (source, result) := source.operate readMp4 bytes request
      ({ store with sources := store.sources.insert request.source source },
        result.map fun _ => source.reply request.buffer)

/-- `put` for the bytes `offset..offset + length` of an `ArrayBuffer`. -/
def put (self : Store) (bytes : Bytes) (offset length : Nat) : Store × Except String Nat :=
  let stop := offset + length
  if stop > bytes.length then (self, .error "MSE byte range is out of bounds")
  else if length > uploadLimit ∨ (values self.uploads).length ≥ 128 ∨
      self.memory + length > documentLimit ∨ self.nextUpload ≥ maxId then
    (self, .error "MSE quota exceeded")
  else
    let id := self.nextUpload + 1
    ({ self with nextUpload := id, uploads := self.uploads.insert id (slice bytes offset stop) },
      .ok id)

def release (self : Store) (id : Nat) : Store := { self with uploads := self.uploads.erase id }

end Store

/-- The calls that a page can make. -/
inductive Call where
  | put (bytes : Bytes) (offset length : Nat)
  | release (id : Nat)
  | control (request : Request)

namespace Store

def call (readMp4 : ReadMp4) (self : Store) : Call → Store × Outcome
  | .put bytes offset length =>
    match self.put bytes offset length with
    | (store, .ok id) => (store, .handle id)
    | (store, .error message) => (store, .exception message)
  | .release id => (self.release id, .undefined)
  | .control request =>
    match self.control readMp4 request with
    | (store, .ok value) => (store, .value value)
    | (store, .error error) => (store, .error error)

def step (readMp4 : ReadMp4) (before : Store) (call : Call) (after : Store) : Prop :=
  (before.call readMp4 call).1 = after

def Fresh (store : Store) : Prop := store = {}

/-- What some sequence of calls on a new host leads to. -/
abbrev Reached (readMp4 : ReadMp4) : Store → Prop :=
  Library.Transition.Reachable Fresh (step readMp4)

/-- The state after a sequence of calls. -/
def run (readMp4 : ReadMp4) (self : Store) (calls : List Call) : Store :=
  calls.foldl (fun store call => (store.call readMp4 call).1) self

end Store
end Chuzz.Video
