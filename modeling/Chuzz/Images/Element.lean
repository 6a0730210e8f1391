import Chuzz.Library.Transition

/-! An image element: the sources it is given, a load for each of them, the bitmaps that the
loads make, its events and the promises of `decode`. Scripts run between two steps, also while
an event is dispatched. -/
namespace Chuzz.Images

inductive EventType where
  | load
  | error
deriving DecidableEq, Repr

/-- How the promise of an epoch is settled. -/
inductive Outcome where
  | resolved
  /-- "image could not be loaded or decoded" -/
  | failed
  /-- "image source changed" -/
  | changed
  /-- "image has no source" -/
  | missing
deriving DecidableEq, Repr

def EventType.outcome : EventType → Outcome
  | .load => .resolved
  | .error => .failed

/-- Where the chain of promises of a load stands. -/
inductive Stage where
  /-- Its `start` has not been called. -/
  | reserved
  /-- It waits for the transport. -/
  | ready
  | fetching
  | reading
  | decoding
  /-- The bitmap has been made, and the load has not seen it yet. -/
  | arriving (bitmap : Nat)
  | painting
  | failing
  | finished
deriving DecidableEq, Repr

inductive Dispatch where
  | none
  | queued (type : EventType)
  /-- The listeners have been called, and the promise is yet to be settled. -/
  | running (type : EventType)
  | done
deriving DecidableEq, Repr

/-- What `startImage` shares with the callbacks of one epoch. -/
structure Load where
  epoch : Nat
  source : Option String
  explicit : Bool
  node : Nat
  stage : Stage := .reserved
  dispatch : Dispatch := .none
deriving DecidableEq, Repr

/-- An `ImageBitmap`, the load that it was made for, and how often the host has been told to
close it. -/
structure Bitmap where
  load : Nat
  closed : Bool := false
  closes : Nat := 0
deriving DecidableEq, Repr

/-- An event that was fired, and the element's epoch then. -/
structure Firing where
  load : Nat
  type : EventType
  epoch : Nat
deriving DecidableEq, Repr

/-- A paint that reached the node, and the element's epoch then. -/
structure Painting where
  load : Nat
  epoch : Nat
deriving DecidableEq, Repr

/-- The attributes of the element, its `state`, and what its callbacks hold. Loads are numbered
as they begin. The last three fields are history. -/
structure ImageElement where
  src : Option String := none
  connected : Bool := false
  /-- The element's document is the page's. -/
  adopted : Bool := true
  marker : Option Nat := none
  epoch : Nat := 0
  /-- `undefined` before the first load. -/
  source : Option (Option String) := none
  complete : Bool := true
  bitmap : Option Nat := none
  start : Option Nat := none
  reject : Option Nat := none
  promise : Option Nat := none
  loads : List Load := []
  bitmaps : List Bitmap := []
  handles : Nat := 1
  /-- Paints on their way to a node, by its marker. -/
  paints : List (Nat × Nat) := []
  settled : List (Nat × Outcome) := []
  fired : List Firing := []
  shown : List Painting := []
deriving DecidableEq, Repr

/-- A label that closes a bitmap tells whether the canvas commands that are pending then are
submitted without an exception. -/
inductive ImageStep where
  /-- The attribute is written by one of the methods that start a load. -/
  | assign (source : Option String) (submits : Bool)
  /-- The attribute is written in another way. -/
  | write (source : Option String)
  /-- `imageState`, through a property, a scan or the observer. -/
  | look (submits : Bool)
  | connect (connected : Bool)
  | adopt (adopted : Bool)
  /-- Somebody else takes a handle. -/
  | allocate
  | ready (load : Nat) (fetches : Bool)
  | fetched (load : Nat) (ok : Bool)
  | read (load : Nat) (ok : Bool)
  | decoded (load : Nat) (ok : Bool)
  | arrive (load : Nat) (submits : Bool)
  | painted (load : Nat) (ok : Bool)
  | failed (load : Nat) (submits : Bool)
  /-- The timer of an event. -/
  | fire (load : Nat)
  /-- Its listeners have returned. -/
  | dispatched (load : Nat)
  /-- The host applies one of the paints. -/
  | paint (position : Nat)
deriving DecidableEq, Repr

namespace ImageElement

def current (element : ImageElement) (index : Nat) : Bool :=
  match element.loads[index]? with
  | some load =>
    element.epoch = load.epoch && element.adopted && element.src = load.source &&
      (load.explicit || element.connected)
  | none => false

def change (element : ImageElement) (index : Nat) (edit : Load → Load) : ImageElement :=
  { element with loads := element.loads.modify index edit }

def advance (element : ImageElement) (index : Nat) (stage : Stage) : ImageElement :=
  element.change index fun load => { load with stage }

def settle (element : ImageElement) (index : Nat) (outcome : Outcome) : ImageElement :=
  { element with settled := element.settled ++ [(index, outcome)] }

/-- `bitmap.close`, and whether it returns. -/
def close (element : ImageElement) (bitmap : Nat) (submits : Bool) : ImageElement × Bool :=
  match element.bitmaps[bitmap]? with
  | none => (element, true)
  | some record =>
    if record.closed then (element, true)
    else if submits then
      ({ element with
        bitmaps := element.bitmaps.set bitmap
          { record with closed := true, closes := record.closes + 1 } }, true)
    else (element, false)

/-- `state.bitmap` is closed and forgotten, if there is one. -/
def dropBitmap (element : ImageElement) (submits : Bool) : ImageElement × Bool :=
  match element.bitmap with
  | none => (element, true)
  | some bitmap =>
    let (closed, returns) := element.close bitmap submits
    if returns then ({ closed with bitmap := none }, true) else (closed, false)

def blank (source : Option String) : Bool := source = none || source = some ""

/-- `startImage` behind its close: the source and the epoch are reserved. -/
def reserve (element : ImageElement) (source : Option String) (explicit : Bool) : ImageElement :=
  let index := element.loads.length
  let load : Load := { epoch := element.epoch, source, explicit, node := element.handles }
  let reserved := { element with
    source := some source, complete := blank source, start := none
    promise := some index, reject := some index
    marker := some element.handles, handles := element.handles + 1
    loads := element.loads ++ [load] }
  if source = none then { reserved with reject := none }.settle index .missing
  else { reserved with start := some index }

/-- `state.reject(imageError("image source changed"))` -/
def rejectChanged (element : ImageElement) : ImageElement :=
  match element.reject with
  | some index => element.settle index .changed
  | none => element

/-- What the abort of the fetch leads to, its failure, may come at any time. -/
def startImage (element : ImageElement) (source : Option String) (explicit submits : Bool) :
    ImageElement × Bool :=
  let begun := { element with epoch := element.epoch + 1 }.rejectChanged
  let (dropped, returns) := begun.dropBitmap submits
  if returns then (dropped.reserve source explicit, true) else (dropped, false)

/-- `state.start`, which keeps itself until it finds its load current. -/
def runStart (element : ImageElement) : ImageElement :=
  match element.start with
  | some index =>
    if element.current index then { element with start := none }.advance index .ready else element
  | none => element

def imageState (element : ImageElement) (force submits : Bool) : ImageElement :=
  if element.adopted then
    let (started, returns) :=
      if force || element.source ≠ some element.src then
        element.startImage element.src force submits
      else (element, true)
    if returns then started.runStart else started
  else { element with complete := blank element.src }

/-- A callback of the chain goes on, if the promise before it is fulfilled and the load is still
current. -/
def proceed (element : ImageElement) (index : Nat) (here next : Stage) (ok : Bool) : ImageElement :=
  match element.loads[index]? with
  | some load =>
    if load.stage = here then
      element.advance index (if ok && element.current index then next else .failing)
    else element
  | none => element

def ready (element : ImageElement) (index : Nat) (fetches : Bool) : ImageElement :=
  let named := match element.loads[index]? with
    | some load => !blank load.source
    | none => false
  element.proceed index .ready .fetching (named && fetches)

def decoded (element : ImageElement) (index : Nat) (ok : Bool) : ImageElement :=
  match element.loads[index]? with
  | some load =>
    if load.stage = .decoding then
      if ok then
        let made : Bitmap := { load := index }
        { element with bitmaps := element.bitmaps ++ [made] }.advance index
          (.arriving element.bitmaps.length)
      else element.advance index .failing
    else element
  | none => element

def arrive (element : ImageElement) (index : Nat) (submits : Bool) : ImageElement :=
  match element.loads[index]? with
  | some load =>
    match load.stage with
    | .arriving bitmap =>
      if element.current index then
        { element with
          bitmap := some bitmap, complete := true
          paints := element.paints ++ [(load.node, index)] }.advance index .painting
      else
        let (closed, returns) := element.close bitmap submits
        closed.advance index (if returns then .finished else .failing)
    | _ => element
  | none => element

def event (element : ImageElement) (index : Nat) (type : EventType) : ImageElement :=
  match element.loads[index]? with
  | some load =>
    if element.current index && load.dispatch = .none then
      element.change index fun load => { load with dispatch := .queued type }
    else element
  | none => element

def painted (element : ImageElement) (index : Nat) (ok : Bool) : ImageElement :=
  match element.loads[index]? with
  | some load =>
    if load.stage = .painting then
      if ok then (element.advance index .finished).event index .load
      else element.advance index .failing
    else element
  | none => element

def failed (element : ImageElement) (index : Nat) (submits : Bool) : ImageElement :=
  match element.loads[index]? with
  | some load =>
    if load.stage = .failing then
      let finished := element.advance index .finished
      if element.current index && load.dispatch = .none then
        let (dropped, returns) := finished.dropBitmap submits
        if returns then { dropped with complete := true }.event index .error else dropped
      else finished
    else element
  | none => element

def fire (element : ImageElement) (index : Nat) : ImageElement :=
  match element.loads[index]? with
  | some load =>
    match load.dispatch with
    | .queued type =>
      if element.current index then
        let firing : Firing := { load := index, type, epoch := element.epoch }
        { element with fired := element.fired ++ [firing] }.change index
          fun load => { load with dispatch := .running type }
      else element.change index fun load => { load with dispatch := .done }
    | _ => element
  | none => element

def dispatched (element : ImageElement) (index : Nat) : ImageElement :=
  match element.loads[index]? with
  | some load =>
    match load.dispatch with
    | .running type =>
      let done := element.change index fun load => { load with dispatch := .done }
      if element.current index then
        { done with reject := none }.settle index type.outcome
      else done
    | _ => element
  | none => element

/-- The host looks for the node by the marker of the request. -/
def paint (element : ImageElement) (position : Nat) : ImageElement :=
  match element.paints[position]? with
  | some (node, load) =>
    let applied := { element with paints := element.paints.eraseIdx position }
    if element.marker = some node then
      { applied with shown := element.shown ++ [{ load, epoch := element.epoch }] }
    else applied
  | none => element

/-- A label that cannot happen changes nothing. -/
def perform (element : ImageElement) : ImageStep → ImageElement
  | .assign source submits => { element with src := source }.imageState true submits
  | .write source => { element with src := source }
  | .look submits => element.imageState false submits
  | .connect connected => { element with connected }
  | .adopt adopted => { element with adopted }
  | .allocate => { element with handles := element.handles + 1 }
  | .ready load fetches => element.ready load fetches
  | .fetched load ok => element.proceed load .fetching .reading ok
  | .read load ok => element.proceed load .reading .decoding ok
  | .decoded load ok => element.decoded load ok
  | .arrive load submits => element.arrive load submits
  | .painted load ok => element.painted load ok
  | .failed load submits => element.failed load submits
  | .fire load => element.fire load
  | .dispatched load => element.dispatched load
  | .paint position => element.paint position

end ImageElement
end Chuzz.Images
