import Chuzz.Library.Fallible
import Chuzz.Library.Throwing

/-! The native side of the 2D canvases: what it keeps of a canvas, how it carries out a command
and a batch of them, and where it refuses. Pixels are not computed: what a canvas shows is the
list of the commands it has had since it was made. -/
namespace Chuzz.Canvas2D
open Library Library.Throwing

/-- A double as the checks see it, `none` for what is not finite. -/
abbrev Number := Option Rat

inductive Op where
  | beginPath | closePath | moveTo | lineTo | rect | quadraticCurveTo | arcTo | bezierCurveTo
  | arc | ellipse | roundRect
  | save | restore | clip | putImageData
  | fill | stroke | fillRect | strokeRect | clearRect | fillText | strokeText | drawImage
deriving DecidableEq, Repr

/-- How many numbers a path command takes. -/
def Op.count : Op → Option Nat
  | .beginPath | .closePath => some 0
  | .moveTo | .lineTo => some 2
  | .rect | .quadraticCurveTo => some 4
  | .arcTo => some 5
  | .bezierCurveTo | .arc => some 6
  | .ellipse => some 8
  | .roundRect => some 12
  | _ => none

/-- The image descriptor of a command. A canvas comes with the commands that had been issued on
it when the descriptor was made, which nothing but the comparison with the native side reads. -/
inductive Source where
  | canvas (id : Nat) (issued : List Nat)
  | bitmap (handle : Nat)
  | native (handle : Nat)
  | video (handle : Nat)
  | bytes (length : Nat)
deriving DecidableEq, Repr

/-- Commands are numbered in the order the page records them. -/
structure Command where
  serial : Nat
  op : Op
  n : List Number
  matrix : List Number
  image : Option Source
deriving DecidableEq, Repr

def identity : List Number := [some 1, some 0, some 0, some 1, some 0, some 0]

structure Canvas where
  /-- Width and height. -/
  size : Nat × Nat
  /-- How many clips there were at each save, the innermost first. -/
  saves : List Nat := []
  clips : Nat := 0
  executed : List Nat := []
deriving DecidableEq, Repr

def STACK_LIMIT : Nat := 256

/-- What the page cannot see before it asks: how deep the engine lets calls nest, and what the
native side refuses for reasons that are not modelled (the size of a descriptor or of a transfer,
fonts, paths, pixels). `round` is the rounding of a result to a double. -/
structure Host where
  frames : Nat
  rejects : Nat → List Command → Option String
  refuses : Canvas → Command → Option String
  round : Rat → Number

def numbers (values : List Number) (count : Nat) : Bool :=
  values.length == count && values.all fun
    | some value => decide (-10000000 ≤ value ∧ value ≤ 10000000)
    | none => false

def checkNumbers (values : List Number) (count : Nat) : Except String Unit :=
  if numbers values count then pure () else throw "invalid or oversized canvas coordinates in chuzz"

def Host.check (host : Host) (canvas : Canvas) (command : Command) : Except String Unit :=
  match host.refuses canvas command with
  | none => pure ()
  | some error => throw error

theorem numbers_of_check (checked : checkNumbers values count = .ok ()) :
    numbers values count = true := by
  unfold checkNumbers at checked
  split at checked
  · assumption
  · contradiction

theorem isNone_of_check {host : Host} (checked : host.check canvas command = .ok ()) :
    (host.refuses canvas command).isNone = true := by
  unfold Host.check at checked
  split at checked
  · simp_all
  · contradiction

namespace Canvas
variable (host : Host) (canvas : Canvas) (command : Command)

def execute : Except String Canvas := do
  checkNumbers command.matrix 6
  match command.op.count with
  | some count =>
    checkNumbers command.n count
    host.check canvas command
    pure canvas
  | none =>
    match command.op with
    | .save =>
      if canvas.saves.length ≥ STACK_LIMIT then throw "canvas save limit reached in chuzz"
      else pure { canvas with saves := canvas.clips :: canvas.saves }
    | .restore =>
      match canvas.saves with
      | [] => pure canvas
      | count :: saves => pure { canvas with saves, clips := min canvas.clips count }
    | .clip =>
      checkNumbers command.n 1
      if canvas.clips ≥ STACK_LIMIT then throw "canvas clip limit reached in chuzz"
      else
        host.check canvas command
        pure { canvas with clips := canvas.clips + 1 }
    | .putImageData =>
      checkNumbers command.n 6
      host.check canvas command
      pure canvas
    | _ =>
      host.check canvas command
      pure canvas

/-- The checks that stand between a command and its effect. -/
def accepts : Bool :=
  numbers command.matrix 6 &&
    match command.op.count with
    | some count => numbers command.n count && (host.refuses canvas command).isNone
    | none =>
      match command.op with
      | .save => decide (canvas.saves.length < STACK_LIMIT)
      | .restore => true
      | .clip => numbers command.n 1 && decide (canvas.clips < STACK_LIMIT) &&
          (host.refuses canvas command).isNone
      | .putImageData => numbers command.n 6 && (host.refuses canvas command).isNone
      | _ => (host.refuses canvas command).isNone

/-- The canvas after a command that was accepted. -/
def effect : Canvas :=
  match command.op with
  | .save => { canvas with saves := canvas.clips :: canvas.saves }
  | .restore =>
    match canvas.saves with
    | [] => canvas
    | count :: saves => { canvas with saves, clips := min canvas.clips count }
  | .clip => { canvas with clips := canvas.clips + 1 }
  | _ => canvas

theorem execute_accepted (accepted : canvas.accepts host command = true) :
    canvas.execute host command = .ok (canvas.effect command) := by
  obtain ⟨serial, op, n, matrix, image⟩ := command
  cases op <;>
    simp_all [execute, accepts, effect, checkNumbers, Host.check, Op.count, bind, Except.bind,
      pure, Except.pure]
  all_goals split
  all_goals first | rfl | omega

theorem accepts_of_execute (carried : canvas.execute host command = .ok next) :
    canvas.accepts host command = true := by
  obtain ⟨_, ranged, carried⟩ := Fallible.bind_ok carried
  rw [accepts, Bool.and_eq_true]
  refine ⟨numbers_of_check ranged, ?_⟩
  cases counted : command.op.count with
  | some count =>
    simp only [counted] at carried ⊢
    obtain ⟨_, ranged, carried⟩ := Fallible.bind_ok carried
    obtain ⟨_, drawn, _⟩ := Fallible.bind_ok carried
    exact Bool.and_eq_true_iff.mpr ⟨numbers_of_check ranged, isNone_of_check drawn⟩
  | none =>
    simp only [counted] at carried ⊢
    cases named : command.op <;> simp only [named] at carried ⊢
    case save => exact decide_eq_true (Nat.not_le.mp (Fallible.guard_ok carried).1)
    case clip =>
      obtain ⟨_, ranged, carried⟩ := Fallible.bind_ok carried
      obtain ⟨room, carried⟩ := Fallible.guard_ok carried
      obtain ⟨_, drawn, _⟩ := Fallible.bind_ok carried
      simp [numbers_of_check ranged, isNone_of_check drawn, Nat.not_le.mp room]
    case putImageData =>
      obtain ⟨_, ranged, carried⟩ := Fallible.bind_ok carried
      obtain ⟨_, drawn, _⟩ := Fallible.bind_ok carried
      exact Bool.and_eq_true_iff.mpr ⟨numbers_of_check ranged, isNone_of_check drawn⟩
    all_goals
      obtain ⟨_, drawn, _⟩ := Fallible.bind_ok carried
      exact isNone_of_check drawn

theorem execute_refused (refused : canvas.accepts host command = false) :
    ∃ error, canvas.execute host command = .error error := by
  cases carried : canvas.execute host command with
  | error error => exact ⟨error, rfl⟩
  | ok next => exact absurd (accepts_of_execute host canvas command carried) (by simp [refused])

end Canvas

structure Reading where
  source : Nat
  issued : List Nat
  executed : List Nat
deriving DecidableEq, Repr

structure Native where
  canvases : Nat → Option Canvas
  bitmaps : Nat → Bool
  /-- What the document paints for a canvas. -/
  painted : Nat → Option (List Nat)
  /-- The canvases that commands have read, as they were then. -/
  readings : List Reading

def Native.empty : Native where
  canvases _ := none
  bitmaps _ := false
  painted _ := none
  readings := []

inductive Action where
  | reset | submit | snapshot | read | paint | measure | hit
deriving DecidableEq, Repr

structure Request where
  action : Action
  id : Nat
  size : Nat × Nat
  commands : List Command

/-- What the native side answers during one call of the page where no command is at stake: to a
request that carries none, and to the question of a request once its commands are done. -/
structure Answers where
  rejects : Nat → Action → Option String
  fails : Nat → Action → Option String
  /-- The readback of an external image. -/
  sources : Nat → Option String

def refuseOn (error : Option String) : EStateM String σ Unit :=
  match error with
  | none => pure ()
  | some error => throw error

namespace Native
variable (host : Host) (answers : Answers)

def put (id : Nat) (canvas : Canvas) (native : Native) : Native :=
  { native with canvases := Function.update native.canvases id (some canvas) }

/-- The canvas has had the command, carried out or refused. -/
def had (id serial : Nat) (native : Native) : Native :=
  match native.canvases id with
  | none => native
  | some canvas => native.put id { canvas with executed := canvas.executed ++ [serial] }

/-- The commands a canvas has had. -/
def executed (native : Native) (id : Nat) : List Nat :=
  (native.canvases id).elim [] Canvas.executed

/-- The native side once it has noted what the command reads. -/
def read (native : Native) (command : Command) : Native :=
  match command.image with
  | some (.canvas source issued) =>
    { native with readings := native.readings ++
        [{ source, issued, executed := native.executed source }] }
  | _ => native

/-- A canvas that a command draws is resolved at the command. -/
def resolve (id : Nat) (command : Command) : EStateM String Native Unit :=
  match command.image with
  | some (.canvas source issued) => do
    let native ← get
    match native.canvases source with
    | none => do
      modify (had id command.serial)
      throw "native source canvas was released"
    | some _ => set (native.read command)
  | _ => pure ()

def turn (id : Nat) (command : Command) : EStateM String Native Unit := do
  resolve id command
  let native ← get
  match native.canvases id with
  | none => throw "invalid canvas"
  | some canvas =>
    match canvas.execute host command with
    | .ok next => do
      modify (put id next)
      modify (had id command.serial)
    | .error error => do
      modify (had id command.serial)
      throw error

/-- The commands of a batch in order, up to the first that is refused. -/
def perform (id : Nat) : List Command → EStateM String Native Unit
  | [] => pure ()
  | command :: rest => do
    turn host id command
    perform id rest

/-- JSON writes what is not finite as null, which is no number to the native side. -/
def parses (command : Command) : Bool :=
  command.n.all Option.isSome && command.matrix.all Option.isSome

def holds (native : Native) (command : Command) : Bool :=
  match command.image with
  | some (.bitmap handle) => native.bitmaps handle
  | _ => true

/-- The checks of a request that come before anything is changed. -/
def admission (request : Request) (native : Native) : Option String :=
  if request.commands = [] then answers.rejects request.id request.action
  else if !request.commands.all parses then some "invalid type: null, expected f64"
  else if !request.commands.all native.holds then some "ImageBitmap is closed or invalid"
  else host.rejects request.id request.commands

/-- The canvas the request is about, made anew by a reset and when its size is another. -/
def canvas (native : Native) (id : Nat) (size : Nat × Nat) : Canvas :=
  match native.canvases id with
  | some canvas => if canvas.size = size then canvas else { size }
  | none => { size }

def prepare (request : Request) (native : Native) : Native :=
  native.put request.id
    (if request.action = .reset then ({ size := request.size } : Canvas)
      else native.canvas request.id request.size)

def paint (id : Nat) (native : Native) : Native :=
  { native with painted :=
      Function.update native.painted id ((native.canvases id).map Canvas.executed) }

def answer (request : Request) : EStateM String Native Unit :=
  match request.action with
  | .reset | .submit => pure ()
  | .paint => do
    refuseOn (answers.fails request.id .paint)
    modify (paint request.id)
  | action => refuseOn (answers.fails request.id action)

def serve (request : Request) : EStateM String Native Unit := do
  let native ← get
  refuseOn (native.admission host answers request)
  modify (prepare request)
  perform host request.id request.commands
  answer answers request

end Native
end Chuzz.Canvas2D
