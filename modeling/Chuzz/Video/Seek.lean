import Chuzz.Library.Throwing
import Chuzz.Video.Movie

/-! Decoding from a seek target. The worker pairs the pictures of the decoder with the samples in
presentation order and queues those that are to be shown, while the page polls the queue. The H.264
library, the source and the page are parameters. -/
namespace Chuzz.Video.Demux

def videoQueue : Nat := 6

/-- A decoded picture. -/
structure Picture where
  width : Nat
  height : Nat
  y : Bytes
  u : Bytes
  v : Bytes
deriving DecidableEq

structure TimedPicture where
  start : Float
  stop : Float
  picture : Picture
deriving DecidableEq

/-- What the worker and the page share of the decode state. -/
structure Shared where
  presented : Bool := false
  video : List TimedPicture := []
deriving DecidableEq

/-- A poll of the page at this position, with or without decoded sound. -/
structure Poll where
  position : Float
  sounding : Bool := false

/-- The part of `poll` that takes pictures from the queue. -/
def Shared.poll (movie : Movie) (state : Shared) (poll : Poll) : Shared :=
  if state.presented ∨ (movie.avcc = [] ∧ poll.sounding) then
    { presented := true, video := state.video.dropWhile (·.start ≤ poll.position) }
  else
    match state.video with
    | [] => state
    | _ :: rest => { presented := true, video := rest }

/-- What happens between two looks of the worker at the state. -/
structure Moment where
  polls : List Poll := []
  /-- A newer seek has begun. -/
  newer : Bool := false
  stopped : Bool := false

/-- The state of a run. `queued` is a ghost: all pictures that this run has queued. -/
structure Life where
  shared : Shared := {}
  looks : Nat := 0
  queued : List TimedPicture := []

/-- Why a run ends before its end. -/
inductive Ending where
  | inactive
  /-- The queue stays full. -/
  | blocked
  | failed (error : MediaError)
deriving DecidableEq

structure AvccConfig where
  lengthSize : Nat
  spsNals : List Bytes
  ppsNals : List Bytes

inductive DecodeError where
  | unsupported (message : String)
  | other (message : String)

/-- The H.264 library and the bytes of the samples. -/
structure Coder (D : Type) where
  parseConfig : Bytes → Except String AvccConfig
  start : D
  decodeNal : D → Bytes → Except DecodeError (D × List Picture)
  flush : D → List Picture
  parseAnnexB : Bytes → List Bytes
  read : (offset size : Nat) → Except MediaError Slice

/-- What a run is given: the movie, the target, the library, what the page does, and how often the
worker asks for a place in a full queue before a run is left. -/
structure Setting (D : Type) where
  movie : Movie
  target : Float
  coder : Coder D
  page : Nat → Moment
  patience : Nat

def videoError : DecodeError → MediaError
  | .unsupported message => .unsupported message
  | .other message => .decode ("H.264: " ++ message)

/-- The part of `seek` that chooses the target: `clamp(0.0, duration)`. -/
def seekTarget (movie : Movie) (time : Float) : Float :=
  if time < 0 then 0 else if movie.duration < time then movie.duration else time

/-- Where decoding starts, in decode order. -/
def startIndex (samples : List Sample) (target : Float) : Option Nat :=
  (((samples.zipIdx.filter fun (sample, _) => sample.sync && sample.pts ≤ target).map
    (·.2)).getLast?).or (samples.findIdx? (·.sync))

/-- The samples from the start on, in presentation order. -/
def displayed (samples : List Sample) : List Sample :=
  samples.insertionSort fun left right => totalKey left.pts ≤ totalKey right.pts

namespace Setting
variable {D : Type} (setting : Setting D)

/-- The page goes on until the worker looks at the state. -/
def meanwhile : EStateM Ending Life Moment := fun life =>
  let moment := setting.page life.looks
  .ok moment { life with
    shared := moment.polls.foldl (Shared.poll setting.movie) life.shared
    looks := life.looks + 1 }

/-- `shared.active(generation)`, or the run ends. -/
def active : EStateM Ending Life Unit := do
  let moment ← setting.meanwhile
  if moment.stopped ∨ moment.newer then throw .inactive

/-- A picture that has ended is not shown, but at the end of the movie. -/
def skips (timing : Sample) : Bool :=
  if timing.endTime ≤ setting.target ∧ setting.target < timing.endTime + timing.duration then
    setting.target < setting.movie.duration
  else timing.endTime ≤ setting.target

def checkPicture (picture : Picture) : Except MediaError Unit := do
  let pixels := picture.width * picture.height
  if ¬ (pixels < 2 ^ 64 ∧ 2 ≤ picture.width ∧ 2 ≤ picture.height ∧ picture.width % 2 = 0 ∧
      picture.height % 2 = 0 ∧ pixels ≤ 3840 * 2160) then
    throw (.unsupported "unsupported decoded video dimensions")
  if picture.y.length ≠ pixels ∨ picture.u.length ≠ pixels / 4 ∨
      picture.v.length ≠ pixels / 4 then
    throw (.decode "invalid decoded H.264 planes")

/-- The loop of `queue_picture`, for so many attempts. -/
def offer (frame : TimedPicture) : Nat → EStateM Ending Life Unit
  | 0 => throw .blocked
  | attempts + 1 => do
    setting.active
    let moment ← setting.meanwhile
    if moment.newer then throw .inactive
    let life ← get
    if life.shared.video.length < videoQueue then
      modify fun life => { life with
        shared := { life.shared with video := life.shared.video ++ [frame] }
        queued := life.queued ++ [frame] }
    else offer frame attempts

/-- A failure of the media ends the run. -/
def orFail {A : Type} : Except MediaError A → EStateM Ending Life A
  | .ok value => pure value
  | .error error => throw (.failed error)

def queuePicture (timing : Sample) (picture : Picture) : EStateM Ending Life Unit := do
  if setting.skips timing then return ()
  orFail (checkPicture picture)
  setting.offer ⟨timing.pts, timing.endTime, picture⟩ setting.patience

/-- Pictures and what is left of the presentation order. -/
def queuePictures : List Picture → List Sample → EStateM Ending Life (List Sample)
  | [], display => pure display
  | _ :: _, [] => throw (.failed (.decode "too many decoded H.264 pictures"))
  | picture :: pictures, timing :: display => do
    setting.queuePicture timing picture
    queuePictures pictures display

/-- Decodes NAL units one by one. -/
def decodeNals (coder : Coder D) (decoder : D) (nals : List Bytes) :
    Except MediaError (D × List Picture) :=
  nals.foldlM (fun (decoder, pictures) nal =>
    match coder.decodeNal decoder nal with
    | .ok (decoder, more) => .ok (decoder, pictures ++ more)
    | .error error => .error (videoError error)) (decoder, [])

/-- The pictures that one sample brings. -/
def decodeSample (coder : Coder D) (lengthSize : Nat) (decoder : D) (sample : Sample) :
    Except MediaError (D × List Picture) := do
  let bytes ← coder.read sample.offset sample.size
  let (done, annex) := annexB bytes lengthSize []
  done
  decodeNals coder decoder (coder.parseAnnexB annex)

def decodeSamples (lengthSize : Nat) :
    List Sample → D → List Sample → EStateM Ending Life (D × List Sample)
  | [], decoder, display => pure (decoder, display)
  | sample :: samples, decoder, display => do
    setting.active
    let (decoder, pictures) ← orFail (decodeSample setting.coder lengthSize decoder sample)
    let display ← setting.queuePictures pictures display
    decodeSamples lengthSize samples decoder display

/-- The decoder that has read the parameter sets. -/
def opened (coder : Coder D) (avcc : Bytes) : Except MediaError (Nat × D) := do
  let config ← match coder.parseConfig avcc with
    | .ok config => .ok config
    | .error error => .error (.decode ("H.264 configuration: " ++ error))
  if config.spsNals = [] ∨ config.ppsNals = [] then
    throw (.decode "H.264 configuration has no parameter sets")
  let (decoder, _) ← decodeNals coder coder.start (config.spsNals ++ config.ppsNals)
  return (config.lengthSize, decoder)

def noFrame : MediaError := .decode "the H.264 track produced no displayable frame"

/-- The last look, after every picture. -/
def finish : EStateM Ending Life Unit := do
  let moment ← setting.meanwhile
  let life ← get
  if ¬ moment.newer ∧ ¬ life.shared.presented ∧ life.shared.video = [] then
    throw (.failed noFrame)

def decodeVideo : EStateM Ending Life Unit := do
  let table := setting.movie.video.samples
  let some start := startIndex table setting.target
    | throw (.failed (.decode "the H.264 track has no sync sample"))
  let display := displayed (table.drop start)
  let (lengthSize, decoder) ← orFail (opened setting.coder setting.movie.avcc)
  let (decoder, display) ← setting.decodeSamples lengthSize (table.drop start) decoder display
  let display ← setting.queuePictures (setting.coder.flush decoder) display
  if display ≠ [] then throw (.failed (.decode "the H.264 track did not decode every picture"))
  setting.finish

end Setting
end Chuzz.Video.Demux
