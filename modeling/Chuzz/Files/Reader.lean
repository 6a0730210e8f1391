import Chuzz.Library.Transition

/-! A `FileReader`. Its timers, promises and dispatches come one at a time; while an event is
dispatched its handlers may call the reader again. -/
namespace Chuzz.Files

abbrev Bytes := List UInt8

structure Blob where
  size : Nat
  type : String
deriving DecidableEq

inductive Kind
  | array
  | text
  | url
deriving DecidableEq

structure Request where
  blob : Blob
  kind : Kind
  label : String := ""
deriving DecidableEq

inductive Value
  | buffer (bytes : Bytes)
  | text (text : String)
deriving DecidableEq

/-- `TextDecoder` and `btoa` -/
structure Conversions where
  decode : (label : String) → Bytes → Except String String
  btoa : Bytes → String

/-- The result that a request makes of the bytes of its blob. -/
def Conversions.convert (conversions : Conversions) (request : Request) (bytes : Bytes) :
    Except String Value :=
  match request.kind with
  | .array => .ok (.buffer bytes)
  | .text =>
    (conversions.decode (if request.label = "" then "utf-8" else request.label) bytes).map .text
  | .url =>
    let type := if request.blob.type = "" then "application/octet-stream" else request.blob.type
    .ok (.text ("data:" ++ type ++ ";base64," ++ conversions.btoa bytes))

inductive ReadyState
  | empty
  | loading
  | done
deriving DecidableEq

inductive EventType
  | loadstart
  | progress
  | load
  | error
  | abort
  | loadend
deriving DecidableEq

def EventType.terminal : EventType → Bool
  | .load | .error | .abort => true
  | _ => false

/-- What the callbacks of a read share. -/
structure Reading where
  request : Request
  generation : Nat
deriving DecidableEq

inductive Stage
  | timer
  | buffer
  /-- The promise of the buffer or its callback has failed. -/
  | caught (error : String)
deriving DecidableEq

structure Task where
  reading : Reading
  stage : Stage
deriving DecidableEq

/-- What goes on when an event has been dispatched. -/
inductive Frame
  /-- behind `loadstart` -/
  | begins (reading : Reading)
  /-- behind `progress` -/
  | loads (reading : Reading)
  /-- behind `load` and `error` -/
  | ends (reading : Reading) (loaded : Nat)
  /-- behind `abort` -/
  | aborts (read : Nat)
  /-- behind `loadend` -/
  | rest
deriving DecidableEq

/-- An event, the read that it belongs to, and the reader then. -/
structure Fired where
  type : EventType
  read : Nat
  loaded : Nat
  total : Option Nat
  readyState : ReadyState
  result : Option Value
  error : Option String
deriving DecidableEq

/-- The innermost dispatch comes first. The last four fields are history: the reads by their
generations, what was made of their bytes, the events, and the last event that has ended a read, if
the reader has not been called since. -/
structure FileReader where
  state : ReadyState := .empty
  result : Option Value := none
  error : Option String := none
  generation : Nat := 0
  tasks : List Task := []
  frames : List Frame := []
  accepted : List Nat := []
  made : List (Nat × Except String Value) := []
  log : List Fired := []
  last : Option Fired := none

inductive Label
  /-- `readAsText` and the others; `none` is no blob. -/
  | read (request : Option Request)
  | abort
  | timer (task : Nat)
  | arrive (task : Nat) (answer : Except String Bytes)
  /-- The callback of `catch` -/
  | fail (task : Nat)
  /-- The handlers of the innermost event have returned. -/
  | returns

namespace FileReader

/-- `_fire` -/
def fire (reader : FileReader) (type : EventType) (read loaded : Nat) (total : Option Nat)
    (next : Frame) : FileReader :=
  let fired : Fired :=
    { type, read, loaded, total
      readyState := reader.state, result := reader.result, error := reader.error }
  { reader with
    frames := next :: reader.frames, log := reader.log ++ [fired]
    last := if type.terminal then some fired else reader.last }

/-- `_read`, which throws if there is no blob or a read is going on. -/
def read (reader : FileReader) : Option Request → FileReader
  | none => reader
  | some request =>
    if reader.state = .loading then reader
    else
      let generation := reader.generation + 1
      { reader with
        state := .loading, result := none, error := none, generation
        tasks := reader.tasks ++ [⟨⟨request, generation⟩, .timer⟩]
        accepted := reader.accepted ++ [generation], last := none }

def abort (reader : FileReader) : FileReader :=
  let aborted := { reader with generation := reader.generation + 1, result := none, last := none }
  if reader.state = .loading then
    { aborted with state := .done, error := none }.fire .abort reader.generation 0 none
      (.aborts reader.generation)
  else aborted

/-- A task runs when no script does. -/
def take (reader : FileReader) (task : Nat) (run : Task → FileReader → FileReader) : FileReader :=
  match reader.frames, reader.tasks[task]? with
  | [], some found => run found { reader with tasks := reader.tasks.eraseIdx task }
  | _, _ => reader

def timer (reader : FileReader) (task : Nat) : FileReader :=
  reader.take task fun found taken =>
    match found.stage with
    | .timer =>
      if found.reading.generation ≠ reader.generation then taken
      else taken.fire .loadstart found.reading.generation 0 found.reading.request.blob.size
        (.begins found.reading)
    | _ => reader

variable (conversions : Conversions)

def arrive (reader : FileReader) (task : Nat) (answer : Except String Bytes) : FileReader :=
  reader.take task fun found taken =>
    let generation := found.reading.generation
    let fail (error : String) : FileReader :=
      { taken with
        tasks := taken.tasks ++ [⟨found.reading, .caught error⟩]
        made := taken.made ++ [(generation, .error error)] }
    match found.stage with
    | .buffer =>
      match answer with
      | .error error => fail error
      | .ok bytes =>
        if generation ≠ reader.generation then taken
        else
          match conversions.convert found.reading.request bytes with
          | .error error => fail error
          | .ok value =>
            let size := found.reading.request.blob.size
            { taken with
              result := some value, made := taken.made ++ [(generation, Except.ok value)] }.fire
                .progress generation size size (.loads found.reading)
    | _ => reader

def catches (reader : FileReader) (task : Nat) : FileReader :=
  reader.take task fun found taken =>
    match found.stage with
    | .caught error =>
      if found.reading.generation ≠ reader.generation then taken
      else
        { taken with state := .done, result := none, error := some error }.fire .error
          found.reading.generation 0 found.reading.request.blob.size (.ends found.reading 0)
    | _ => reader

/-- The innermost dispatch ends, and what called it goes on. -/
def returns (reader : FileReader) : FileReader :=
  match reader.frames with
  | [] => reader
  | frame :: frames =>
    let popped := { reader with frames }
    match frame with
    | .begins reading =>
      if reading.generation ≠ reader.generation then popped
      else { popped with tasks := popped.tasks ++ [⟨reading, .buffer⟩] }
    | .loads reading =>
      if reading.generation ≠ reader.generation then popped
      else
        let size := reading.request.blob.size
        { popped with state := .done }.fire .load reading.generation size size (.ends reading size)
    | .ends reading loaded =>
      if reading.generation ≠ reader.generation then popped
      else popped.fire .loadend reading.generation loaded reading.request.blob.size .rest
    | .aborts read => popped.fire .loadend read 0 none .rest
    | .rest => popped

/-- A label that cannot happen changes nothing. -/
def perform (reader : FileReader) : Label → FileReader
  | .read request => reader.read request
  | .abort => reader.abort
  | .timer task => reader.timer task
  | .arrive task answer => reader.arrive conversions task answer
  | .fail task => reader.catches task
  | .returns => reader.returns

def run (labels : List Label) : FileReader := labels.foldl (perform conversions) {}

end FileReader
end Chuzz.Files
