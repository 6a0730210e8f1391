import Chuzz.Video.Fragments

/-! A SourceBuffer: its declared codecs, its parser and the packets it keeps.
Floats are Lean's own, whose arithmetic the kernel computes; no rounding fact is
assumed. Lists of packets stand for the shared vectors. -/
namespace Chuzz.Video

structure Error where
  name : String
  message : String
deriving DecidableEq, Repr

namespace Error

def state (message : String) : Error := ⟨"InvalidStateError", message⟩
def decode (error : MediaError) : Error := ⟨"EncodingError", error.message⟩
def quota : Error := ⟨"QuotaExceededError", "MSE memory or resource limit reached"⟩

end Error

def infinity : Float := 1 / 0
def nan : Float := 0 / 0

/-- `f64::max` and `f64::min`: a NaN operand yields the other one. -/
def fmax (a b : Float) : Float := if a.isNaN then b else if a < b then b else a
def fmin (a b : Float) : Float := if a.isNaN then b else if b < a then b else a

/-- The integer that `f64::total_cmp` compares. -/
def totalKey (value : Float) : Int :=
  let bits := value.toBits.toNat
  if bits < 2 ^ 63 then bits else -1 - ((bits : Int) - 2 ^ 63)

/-! The declared type. -/

structure Mime where
  video : Bool
  audio : Bool
deriving DecidableEq, Repr

/-- Unicode `White_Space`. -/
def isWhitespace (c : Char) : Bool :=
  let n := c.toNat
  (9 ≤ n && n ≤ 13) || n = 0x20 || n = 0x85 || n = 0xa0 || n = 0x1680 ||
    (0x2000 ≤ n && n ≤ 0x200a) || n = 0x2028 || n = 0x2029 || n = 0x202f || n = 0x205f || n = 0x3000

def trim (text : List Char) : List Char :=
  ((text.dropWhile isWhitespace).reverse.dropWhile isWhitespace).reverse

def splitOnce (separator : Char) (text : List Char) : Option (List Char × List Char) :=
  match text.dropWhile (· ≠ separator) with
  | [] => none
  | _ :: rest => some (text.takeWhile (· ≠ separator), rest)

def isHexDigit (c : Char) : Bool := c.isDigit || ('a' ≤ c && c ≤ 'f') || ('A' ≤ c && c ≤ 'F')

/-- The value of a `codecs` parameter without its quotes. -/
def unquote (value : List Char) : Option (List Char) :=
  if value.head? = some '"' ∧ value.getLast? = some '"' ∧ value.length ≥ 2 then
    some (value.drop 1).dropLast
  else if '"' ∈ value then none
  else some value

/-- `codecs` so far, after one more `;` field. -/
def mimeField (codecs : Option (List Char)) (field : List Char) :
    Option (Option (List Char)) := do
  let (key, value) ← splitOnce '=' (trim field)
  if trim key ≠ "codecs".toList ∨ codecs.isSome then
    none
  else some (some (← unquote (trim value)))

/-- `result` after one more codec. The text is in lower case here. -/
def mimeCodec (audioContainer : Bool) (result : Mime) (codec : List Char) : Option Mime :=
  if codec = "mp4a.40.2".toList ∧ ¬ result.audio then
    some { result with audio := true }
  else if "avc1.".toList <+: codec then
    let profile := codec.drop 5
    if result.video ∨ audioContainer ∨ profile.length ≠ 6 ∨ ¬ profile.all isHexDigit ∨
        profile.take 2 ∉ ["42".toList, "4d".toList, "64".toList] then
      none
    else some { result with video := true }
  else none

def mime (value : String) : Option Mime :=
  match (value.toList.map Char.toLower).splitOn ';' with
  | [] => none
  | container :: fields => do
    let container := trim container
    if container ∉ ["video/mp4".toList, "audio/mp4".toList] then
      none
    else
      match ← fields.foldlM mimeField none with
      | none =>
        some { video := container = "video/mp4".toList, audio := container = "audio/mp4".toList }
      | some codecs => do
        let result ← ((codecs.splitOn ',').map trim).foldlM
          (mimeCodec (container = "audio/mp4".toList)) { video := false, audio := false }
        if result.video ∨ result.audio then some result else none

/-! Time ranges. -/

structure Range where
  start : Float
  stop : Float
deriving DecidableEq

/-- `ranges` merged with the next one, whose start is not before theirs. -/
def mergeNext (result : List Range) (range : Range) : List Range :=
  match result.getLast? with
  | some last =>
    if range.start ≤ last.stop + 0.000001 then
      result.dropLast ++ [{ last with stop := fmax last.stop range.stop }]
    else result ++ [range]
  | none => [range]

def merge (ranges : List Range) : List Range :=
  let ranges := ranges.filter fun range =>
    range.start.isFinite ∧ range.stop.isFinite ∧ range.stop > range.start
  (ranges.insertionSort fun left right => totalKey left.start ≤ totalKey right.start).foldl
    mergeNext []

def intersection : List Range → List Range → List Range
  | [], _ => []
  | _, [] => []
  | left :: lefts, right :: rights =>
    let start := fmax left.start right.start
    let stop := fmin left.stop right.stop
    let rest := if left.stop < right.stop then intersection lefts (right :: rights)
      else intersection (left :: lefts) rights
    if stop > start then ⟨start, stop⟩ :: rest else rest
termination_by left right => left.length + right.length

/-- The fields of a control request. Without `op`, this is the payload that the
page sends as JSON. -/
inductive Op where
  | «open» | close | info | add | delete | reopen | append | abort | remove | duration | live
  | clearLive | «end» | other
deriving DecidableEq, Repr

structure Request where
  op : Op
  source : Nat
  buffer : Nat := 0
  mime : String := ""
  handle : Option Nat := none
  value : Option Float := none
  start : Float := 0
  stop : Option Float := none
  timestampOffset : Float := 0
  appendWindowStart : Float := 0
  appendWindowEnd : Option Float := none
  sequence : Bool := false
  error : String := ""

/-- `emitted` is a ghost: how many video packets the parser has emitted so far. -/
structure Buffer where
  mime : Mime
  parser : Fragments := {}
  video : List Encoded := []
  audio : List Encoded := []
  offset : Float := 0
  needSync : Bool := true
  emitted : Nat := 0

/-- The packets of an append that pass its window, and what they leave behind. -/
structure Kept where
  needSync : Bool
  emitted : Nat
  video : List Encoded := []
  audio : List Encoded := []

def Encoded.range (self : Encoded) : Range := ⟨self.sample.pts, self.sample.endTime⟩

def Encoded.shift (self : Encoded) (shift : Float) : Encoded :=
  { self with
    sample := { self.sample with pts := self.sample.pts + shift }
    decodeTime := self.decodeTime + shift }

/-- Order of storage. -/
def decodeOrder (a b : Encoded) : Prop := totalKey a.decodeTime ≤ totalKey b.decodeTime

instance : DecidableRel decodeOrder := fun _ _ => inferInstanceAs (Decidable (_ ≤ _))

/-- `video.retain` of a removal; `dependent` says that an earlier packet of the
group was dropped. -/
def retainVideo (start stop : Float) : (dependent : Bool) → List Encoded → List Encoded
  | _, [] => []
  | dependent, packet :: rest =>
    let overlaps : Bool := packet.sample.pts < stop ∧ packet.sample.endTime > start
    let restarts : Bool := packet.sample.sync ∧ packet.sample.pts ≥ stop
    let dependent := overlaps || (dependent && !restarts)
    if overlaps || dependent then retainVideo start stop dependent rest
    else packet :: retainVideo start stop dependent rest

namespace Request

def invalidAppend (self : Request) : Bool :=
  !self.timestampOffset.isFinite || !self.appendWindowStart.isFinite ||
    self.appendWindowStart < 0 ||
    self.appendWindowEnd.any fun stop => !stop.isFinite || stop ≤ self.appendWindowStart

/-- How far the packets of an append move. -/
def shift (self : Request) (packets : List Encoded) : Float :=
  if self.sequence then
    match packets.map (·.sample.pts) with
    | [] => self.timestampOffset - self.timestampOffset
    | first :: rest => self.timestampOffset - rest.foldl fmin first
  else self.timestampOffset

/-- Whether a shifted packet lies outside the append window. -/
def outside (self : Request) (packet : Encoded) : Bool :=
  !packet.sample.pts.isFinite || !packet.sample.endTime.isFinite ||
    packet.sample.pts < self.appendWindowStart ||
    packet.sample.endTime > self.appendWindowEnd.getD infinity

end Request

/-- The loop over the packets of an append. -/
def accept (request : Request) (tracks : List Track) (shift : Float) :
    (needSync : Bool) → (emitted : Nat) → List Encoded → Except Error Kept
  | needSync, emitted, [] => .ok { needSync, emitted }
  | needSync, emitted, packet :: rest => do
    match tracks.find? (·.id = packet.track) with
    | none => throw (.state "unknown appended track")
    | some track =>
      let packet := packet.shift shift
      if track.codec.isVideo then
        if request.outside packet then accept request tracks shift true (emitted + 1) rest
        else if needSync && !packet.sample.sync then
          accept request tracks shift needSync (emitted + 1) rest
        else
          let kept ← accept request tracks shift false (emitted + 1) rest
          return { kept with video := { packet with serial := emitted } :: kept.video }
      else if request.outside packet then accept request tracks shift needSync emitted rest
      else
        let kept ← accept request tracks shift needSync emitted rest
        return { kept with audio := packet :: kept.audio }

/-- `first.zip(last)` and the comparison of their decode times. -/
def startsBefore (new old : List Encoded) : Bool :=
  match new.head?, old.getLast? with
  | some new, some old => new.decodeTime < old.decodeTime
  | _, _ => false

namespace Buffer

def endTime (self : Buffer) : Float :=
  ((self.video ++ self.audio).map (·.sample.endTime)).foldl fmax 0

def rangesOf (ended : Option Float) (packets : List Encoded) : List Range :=
  let ranges := merge (packets.map fun packet => ⟨fmax packet.sample.pts 0, packet.sample.endTime⟩)
  match ended, ranges.getLast? with
  | some stop, some last => ranges.dropLast ++ [{ last with stop := fmax last.stop stop }]
  | _, _ => ranges

def ranges (self : Buffer) (ended : Option Float) : List Range :=
  match self.mime.video, self.mime.audio with
  | true, true => intersection (rangesOf ended self.video) (rangesOf ended self.audio)
  | true, false => rangesOf ended self.video
  | false, true => rangesOf ended self.audio
  | false, false => []

def count (self : Buffer) : Nat := self.video.length + self.audio.length

def remove (self : Buffer) (start stop : Float) : Buffer × Bool :=
  let after := { self with
    video := retainVideo start stop false self.video
    audio := self.audio.filter fun packet =>
      packet.sample.pts ≥ stop ∨ packet.sample.endTime ≤ start }
  (after, self.count ≠ after.count)

/-- The tracks of the initialization are those of the declared type. -/
def tracksMatch (mime : Mime) (tracks : List Track) : Bool :=
  tracks.countP (·.codec.isVideo) = mime.video.toNat ∧
    tracks.countP (fun track => !track.codec.isVideo) = mime.audio.toNat

/-- The first half of an append: the input is parsed and its packets chosen. -/
def stage (readMp4 : ReadMp4) (self : Buffer) (bytes : Block) (request : Request) :
    Except Error (Buffer × Kept) := do
  if request.invalidAppend then
    throw (.state "invalid append parameters")
  let (parser, packets) ← (self.parser.append readMp4 bytes).mapError Error.decode
  if parser.tracks ≠ [] ∧ ¬ tracksMatch self.mime parser.tracks then
    throw (.state "initialization tracks do not match the declared codecs")
  let needSync := self.needSync || request.timestampOffset != self.offset
  let kept ← accept request parser.tracks (request.shift packets) needSync self.emitted packets
  return ({ self with parser, needSync := kept.needSync, emitted := kept.emitted }, kept)

/-- `changed |= staged.remove(range[0], range[1])` -/
def makeRoom (state : Buffer × Bool) (range : Range) : Buffer × Bool :=
  let (buffer, removed) := state.1.remove range.start range.stop
  (buffer, state.2 || removed)

/-- Stored packets make room for the new ones. -/
def overwrite (self : Buffer) (kept : Kept) : Buffer × Bool :=
  (merge ((kept.video ++ kept.audio).map Encoded.range)).foldl makeRoom (self, false)

def store (self : Buffer) (kept : Kept) : Buffer :=
  { self with
    video := (self.video ++ kept.video).insertionSort decodeOrder
    audio := (self.audio ++ kept.audio).insertionSort decodeOrder }

def nextOffset (request : Request) (kept : Kept) : Float :=
  if request.sequence then
    match (kept.video ++ kept.audio).map (·.sample.endTime) with
    | [] => request.timestampOffset
    | first :: rest => rest.foldl fmax first
  else request.timestampOffset

def append (readMp4 : ReadMp4) (self : Buffer) (bytes : Block) (request : Request) :
    Except Error (Buffer × Bool) := do
  let (staged, kept) ← self.stage readMp4 bytes request
  let (staged, removed) := staged.overwrite kept
  let changed := removed || startsBefore kept.video staged.video ||
    startsBefore kept.audio staged.audio
  let staged := staged.store kept
  if staged.count > 1000000 then
    throw .quota
  return ({ staged with offset := nextOffset request kept }, changed)

end Buffer
end Chuzz.Video
