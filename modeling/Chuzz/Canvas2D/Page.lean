import Chuzz.Canvas2D.Native

/-! The contexts of a page: each queues its commands, and the queue of a context is sent when
another context is used, when it is full and when its canvas is read or painted. -/
namespace Chuzz.Canvas2D
open Library.Throwing

/-- What a page draws with or draws: a canvas, an `ImageBitmap`, the bytes of an `ImageData`, an
image or canvas that is read back, a video. -/
inductive Image where
  | canvas (id : Nat)
  | bitmap (handle : Nat)
  | data (bytes : Nat)
  | external (handle : Nat)
  | video (handle : Nat)
deriving DecidableEq, Repr

/-- Colors and gradients are one brush here: only a pattern has a source. -/
inductive Brush where
  | plain
  | pattern (image : Image)
deriving DecidableEq, Repr

structure DrawState where
  matrix : List Number := identity
  fillStyle : Brush := .plain
  strokeStyle : Brush := .plain
deriving DecidableEq, Repr

structure Context where
  /-- Width and height as the context last saw them. -/
  size : Nat × Nat
  commands : List Command := []
  buffers : Nat := 0
  transferBytes : Nat := 0
  stack : List DrawState := []
  state : DrawState := {}
  /-- Every command recorded since the reset. -/
  issued : List Nat := []
deriving DecidableEq, Repr

structure World where
  context : Nat → Context
  created : Nat → Bool
  /-- The contexts that `getContext` has returned. -/
  returned : Nat → Bool
  /-- The sizes of the canvas elements. -/
  sizes : Nat → Nat × Nat
  active : Option Nat
  dirty : List Nat
  closed : List Nat
  native : Native
  serial : Nat

namespace World

def put (id : Nat) (context : Context) (w : World) : World :=
  { w with context := Function.update w.context id context }

def create (id : Nat) (w : World) : World :=
  { w.put id { size := w.sizes id } with created := Function.update w.created id true }

/-- The element has another size than its context knows. -/
def stale (w : World) (id : Nat) : Bool :=
  w.created id && (w.context id).size != w.sizes id

def mark (id : Nat) (w : World) : World :=
  { w with dirty := if id ∈ w.dirty then w.dirty else w.dirty ++ [id] }

def activate (active : Option Nat) (w : World) : World := { w with active }

/-- The queue of a context has been taken. -/
def emptied (id : Nat) (w : World) : World :=
  w.put id { w.context id with commands := [], buffers := 0, transferBytes := 0 }

def released (id : Nat) (w : World) : World := if w.active = some id then w.activate none else w

end World

abbrev Script := EStateM String World

section
variable (host : Host) (answers : Answers)

def native (request : Request) : Script Unit := fun w =>
  match Native.serve host answers request w.native with
  | .ok _ native => .ok () { w with native }
  | .error error native => .error error { w with native }

/-- What `flush` does with the queue: it is taken before the native side is asked, and the context
is no longer active afterwards, whatever the answer. -/
def send (id : Nat) (action : Action) : Script Unit := fun w =>
  let context := w.context id
  let request := { action, id, size := context.size, commands := context.commands }
  match native host answers request (w.emptied id) with
  | .ok _ after => .ok () (after.released id)
  | .error error after => .error error (after.released id)

/-- What `reset` does once the other context has been submitted. -/
def renew (id : Nat) : Script Unit := do
  modify fun w => w.put id { size := w.sizes id }
  let w ← get
  native host answers { action := .reset, id, size := (w.context id).size, commands := [] }
  modify (World.mark id)

section
variable (order : Nat → Script Unit)

def reset (id : Nat) : Script Unit := do
  order id
  renew host answers id

def ensure (id : Nat) : Script Unit := do
  let w ← get
  provided (w.stale id) (reset host answers order id)

def flush (id : Nat) (action : Action) : Script Unit := do
  provided (action != .submit) (order id)
  ensure host answers order id
  send host answers id action

def submit (id : Nat) : Script Unit := do
  ensure host answers order id
  let w ← get
  provided ((w.context id).commands != []) (flush host answers order id .submit)

def room (id bytes : Nat) : Script Unit := do
  let w ← get
  let context := w.context id
  provided (context.commands.length ≥ 4096 || context.buffers ≥ 512 ||
    context.transferBytes + bytes > 32 * 1024 * 1024) (flush host answers order id .submit)

end

/-- The context becomes the active one, and the one that was active is submitted. -/
def order : Nat → Nat → Script Unit
  | 0, _ => throw "exceeded maximum number of recursive calls"
  | frames + 1, id => do
    let w ← get
    modify (World.activate (some id))
    match w.active with
    | some previous =>
      provided (previous != id) (submit host answers (order frames) previous)
    | none => pure ()

/-- `getContext("2d")`. -/
def make (id : Nat) : Script Unit := do
  let w ← get
  provided (!w.returned id) do
    modify (World.create id)
    reset host answers (order host answers host.frames) id
    modify fun w => { w with returned := Function.update w.returned id true }

def submitActive : Option Nat → Script Unit
  | some id => submit host answers (order host answers host.frames) id
  | none => pure ()

def submit2D : Script Unit := do
  let w ← get
  submitActive host answers w.active
  modify (World.activate none)

def paintEach : List Nat → Script Unit
  | [] => pure ()
  | id :: rest => do
    flush host answers (order host answers host.frames) id .paint
    paintEach rest

def flush2D : Script Unit := do
  let w ← get
  modify fun w => { w with dirty := [] }
  paintEach host answers w.dirty
  modify (World.activate none)

/-- What has to be done before an image is drawn. -/
def pixelsOf : Image → Script Unit
  | .canvas id => do
    make host answers id
    ensure host answers (order host answers host.frames) id
    submit host answers (order host answers host.frames) id
  | .bitmap handle => do
    let w ← get
    if handle ∈ w.closed then throw "ImageBitmap is closed" else pure ()
  | .external handle => do
    submit2D host answers
    refuseOn (answers.sources handle)
  | .data _ | .video _ => pure ()

def World.descriptor (w : World) : Image → Source
  | .canvas id => .canvas id (w.context id).issued
  | .bitmap handle => .bitmap handle
  | .data bytes => .bytes bytes
  | .external handle => .native handle
  | .video handle => .video handle

def Image.bytes : Image → Nat
  | .data bytes => bytes
  | _ => 0

/-- The bytes of an `ImageData` are copied now, everything else is named. -/
def transfer (id bytes : Nat) : Script Unit :=
  modify fun w => w.put id { w.context id with
    buffers := (w.context id).buffers + 1
    transferBytes := (w.context id).transferBytes + bytes }

def source (id : Nat) (image : Image) : Script Source := do
  if image.bytes > 64 * 1024 * 1024 then throw "canvas image limit reached"
  else do
    room host answers (order host answers host.frames) id image.bytes
    provided (image matches .data _) (transfer id image.bytes)
    let w ← get
    pure (w.descriptor image)

def brush (id : Nat) : Brush → Script (Option Source)
  | .plain => pure none
  | .pattern image => do
    pixelsOf host answers image
    let image ← source host answers id image
    pure (some image)

def World.push (id : Nat) (op : Op) (n matrix : List Number) (image : Option Source)
    (w : World) : World :=
  let context := w.context id
  { w.put id { context with
      commands := context.commands ++ [{ serial := w.serial, op, n, matrix, image }]
      issued := context.issued ++ [w.serial] } with serial := w.serial + 1 }

/-- The brush of a drawing command, and the canvas it makes dirty. -/
def drawing (id : Nat) : Option Brush → Script (Option Source)
  | none => pure none
  | some value => do
    let image ← brush host answers id value
    modify (World.mark id)
    pure image

def record (id : Nat) (op : Op) (n : List Number) (value : Option Brush) : Script Unit := do
  order host answers host.frames id
  ensure host answers (order host answers host.frames) id
  room host answers (order host answers host.frames) id 0
  let w ← get
  let image ← drawing host answers id value
  modify (World.push id op n (w.context id).state.matrix image)
  modify (World.activate (some id))

def finite (n : List Number) : Bool := n.all Option.isSome

def negative : Number → Bool
  | some value => decide (value < 0)
  | none => false

/-- The numbers of a path command that are radii. -/
def Op.radii (op : Op) (n : List Number) : List Number :=
  match op with
  | .arcTo => n.drop 4
  | .arc => [n.getD 2 none]
  | .ellipse => [n.getD 2 none, n.getD 3 none]
  | .roundRect => n.drop 4
  | _ => []

/-- The path commands. The corners of `roundRect` are worked out before, and may overflow. -/
def path (id : Nat) (op : Op) (n : List Number) : Script Unit :=
  if op.count ≠ some n.length || op ≠ .roundRect && !finite n then pure ()
  else if (op.radii n).any negative then throw "negative radius"
  else record host answers id op n none

def clip (id : Nat) (rule : Number) : Script Unit := record host answers id .clip [rule] none

/-- Whether a drawing call records anything. -/
def Op.draws (op : Op) (n : List Number) : Bool :=
  match op with
  | .fill => n.length == 1
  | .stroke => n == []
  | .fillRect | .strokeRect | .clearRect =>
    n.length == 4 && finite n && n.getD 2 none != some 0 && n.getD 3 none != some 0
  | .fillText | .strokeText => n.length == 3 && finite n && !negative (n.getD 2 none)
  | _ => false

def DrawState.style (state : DrawState) : Op → Brush
  | .stroke | .strokeRect | .strokeText => state.strokeStyle
  | _ => state.fillStyle

def draw (id : Nat) (op : Op) (n : List Number) : Script Unit := do
  let w ← get
  provided (op.draws n) (record host answers id op n (some ((w.context id).state.style op)))

def save (id : Nat) : Script Unit := do
  ensure host answers (order host answers host.frames) id
  let w ← get
  let context := w.context id
  if context.stack.length ≥ 256 then throw "canvas save limit reached in chuzz"
  else do
    modify (World.put id { context with stack := context.state :: context.stack })
    record host answers id .save [] none

def restore (id : Nat) : Script Unit := do
  ensure host answers (order host answers host.frames) id
  let w ← get
  let context := w.context id
  match context.stack with
  | [] => pure ()
  | state :: stack => do
    modify (World.put id { context with state, stack })
    record host answers id .restore [] none

/-- The calls that only change the drawing state. -/
def assign (id : Nat) (change : DrawState → DrawState) : Script Unit := do
  ensure host answers (order host answers host.frames) id
  let w ← get
  modify (World.put id { w.context id with state := change (w.context id).state })

def times (x y : Number) : Number :=
  match x, y with
  | some x, some y => host.round (x * y)
  | _, _ => none

def plus (x y : Number) : Number :=
  match x, y with
  | some x, some y => host.round (x + y)
  | _, _ => none

def multiply (a b : List Number) : List Number :=
  let at' := fun (n : List Number) i => n.getD i none
  let term := fun i j => plus host (times host (at' a i) (at' b j))
    (times host (at' a (i + 2)) (at' b (j + 1)))
  [term 0 0, term 1 0, term 0 2, term 1 2,
    plus host (term 0 4) (at' a 4), plus host (term 1 4) (at' a 5)]

def transform (id : Nat) (n : List Number) : Script Unit :=
  assign host answers id fun state =>
    if finite n then { state with matrix := multiply host state.matrix n } else state

def setTransform (id : Nat) (n : List Number) : Script Unit :=
  assign host answers id fun state => if finite n then { state with matrix := n } else state

def fillStyle (id : Nat) (value : Brush) : Script Unit :=
  assign host answers id fun state => { state with fillStyle := value }

def strokeStyle (id : Nat) (value : Brush) : Script Unit :=
  assign host answers id fun state => { state with strokeStyle := value }

def createPattern (id : Nat) (image : Image) : Script Unit := do
  ensure host answers (order host answers host.frames) id
  pixelsOf host answers image

/-- A rectangle whose sides run forwards. -/
def turned (x y width height : Number) : List Number :=
  [if negative width then plus host x width else x, if negative height then plus host y height else y,
    if negative width then width.map Neg.neg else width,
    if negative height then height.map Neg.neg else height]

/-- What `drawImage` and `putImageData` end with. -/
def attach (id : Nat) (op : Op) (n : List Number) (image : Image) : Script Unit := do
  room host answers (order host answers host.frames) id 0
  let input ← source host answers id image
  modify (World.push id op n identity (some input))
  modify (World.activate (some id))
  modify (World.mark id)

/-- `n` are the eight numbers of a drawing, the sizes of the image filled in. -/
def drawImage (id : Nat) (image : Image) (n : List Number) : Script Unit := do
  order host answers host.frames id
  ensure host answers (order host answers host.frames) id
  pixelsOf host answers image
  match n with
  | [x, y, width, height, dx, dy, dWidth, dHeight] =>
    if !finite n || [width, height, dWidth, dHeight].contains (some 0) then pure ()
    else attach host answers id .drawImage (turned host x y width height ++
      turned host dx dy dWidth dHeight) image
  | _ => throw "invalid drawImage arguments"

def putImageData (id : Nat) (image : Image) (n : List Number) : Script Unit := do
  order host answers host.frames id
  ensure host answers (order host answers host.frames) id
  match image with
  | .data _ =>
    if !finite n then throw "invalid image rectangle"
    else attach host answers id .putImageData n image
  | _ => throw "expected ImageData"

def measureText (id : Nat) : Script Unit := do
  ensure host answers (order host answers host.frames) id
  flush host answers (order host answers host.frames) id .measure

def getImageData (id : Nat) : Script Unit :=
  flush host answers (order host answers host.frames) id .read

def isPointIn (id : Nat) : Script Unit :=
  flush host answers (order host answers host.frames) id .hit

def pixels (id : Nat) : Script Unit :=
  flush host answers (order host answers host.frames) id .snapshot

/-- The element takes another size; `setAttribute` tells the context, other ways do not. -/
def resize (id : Nat) (size : Nat × Nat) (told : Bool) : Script Unit := do
  let w ← get
  modify fun w => { w with sizes := Function.update w.sizes id size }
  provided (told && w.returned id) (reset host answers (order host answers host.frames) id)

/-- `ImageBitmap.close`, but for the request that the native side lets go of it. -/
def close (handle : Nat) : Script Unit := do
  let w ← get
  provided (handle ∉ w.closed) do
    submit2D host answers
    modify fun w => { w with closed := handle :: w.closed }

inductive Call where
  | make (id : Nat)
  | path (id : Nat) (op : Op) (n : List Number)
  | clip (id : Nat) (rule : Number)
  | draw (id : Nat) (op : Op) (n : List Number)
  | save (id : Nat)
  | restore (id : Nat)
  | transform (id : Nat) (n : List Number)
  | setTransform (id : Nat) (n : List Number)
  | fillStyle (id : Nat) (value : Brush)
  | strokeStyle (id : Nat) (value : Brush)
  | createPattern (id : Nat) (image : Image)
  | drawImage (id : Nat) (image : Image) (n : List Number)
  | putImageData (id : Nat) (image : Image) (n : List Number)
  | measureText (id : Nat)
  | getImageData (id : Nat)
  | isPointIn (id : Nat)
  | pixels (id : Nat)
  | reset (id : Nat)
  | resize (id : Nat) (size : Nat × Nat) (told : Bool)
  | close (handle : Nat)
  /-- The bitmaps the native side has change. -/
  | bitmaps (handles : Nat → Bool)
  | submit2D
  | flush2D

/-- The context a call is made on. -/
def Call.receiver : Call → Option Nat
  | .path id .. | .clip id _ | .draw id .. | .save id | .restore id | .transform id _
  | .setTransform id _ | .fillStyle id _ | .strokeStyle id _ | .createPattern id _
  | .drawImage id .. | .putImageData id .. | .measureText id | .getImageData id | .isPointIn id
  | .pixels id | .reset id => some id
  | _ => none

def perform : Call → Script Unit
  | .make id => make host answers id
  | .path id op n => path host answers id op n
  | .clip id rule => clip host answers id rule
  | .draw id op n => draw host answers id op n
  | .save id => save host answers id
  | .restore id => restore host answers id
  | .transform id n => transform host answers id n
  | .setTransform id n => setTransform host answers id n
  | .fillStyle id value => fillStyle host answers id value
  | .strokeStyle id value => strokeStyle host answers id value
  | .createPattern id image => createPattern host answers id image
  | .drawImage id image n => drawImage host answers id image n
  | .putImageData id image n => putImageData host answers id image n
  | .measureText id => measureText host answers id
  | .getImageData id => getImageData host answers id
  | .isPointIn id => isPointIn host answers id
  | .pixels id => pixels host answers id
  | .reset id => reset host answers (order host answers host.frames) id
  | .resize id size told => resize host answers id size told
  | .close handle => close host answers handle
  | .bitmaps handles => modify fun w => { w with native := { w.native with bitmaps := handles } }
  | .submit2D => submit2D host answers
  | .flush2D => flush2D host answers

end

/-- The context whose state a call begins anew, `resize` by way of the element. -/
def Call.renews : Call → Nat → Bool
  | .reset id, other => other == id
  | .resize id _ told, other => told && other == id
  | _, _ => false

/-- A call, and what the native side answers while it runs. -/
structure Step where
  call : Call
  answers : Answers

/-- A page calls only the contexts it was given. A call that throws has done what it did before. -/
def World.after (host : Host) (w : World) (step : Step) : World :=
  if step.call.receiver.all w.returned then left (perform host step.answers step.call) w else w

def World.initial (sizes : Nat → Nat × Nat) : World where
  context _ := { size := (0, 0) }
  created _ := false
  returned _ := false
  sizes := sizes
  active := none
  dirty := []
  closed := []
  native := .empty
  serial := 0

end Chuzz.Canvas2D
