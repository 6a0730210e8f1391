import Chuzz.Library.Intervals
import Chuzz.Video.SourceBuffer

/-! The times of a SourceBuffer over any kind of number: what is covered, and what an append takes
away and stores. Times can be the rounded numbers of the buffer itself, or exact ones. The parser is
not of interest here; it is what it made of the input. -/
namespace Chuzz.Video.Timeline
open Library.Intervals

class Time (τ : Type) extends Zero τ, Add τ, Sub τ, LT τ, LE τ where
  decidableLT : DecidableLT τ
  decidableLE : DecidableLE τ
  max : τ → τ → τ
  min : τ → τ → τ
  isFinite : τ → Bool
  /-- `total_cmp` does not answer `Greater`. -/
  ordered : τ → τ → Bool
  /-- `0.000001` -/
  tolerance : τ
  /-- Later than `bound.unwrap_or(f64::INFINITY)`. -/
  exceeds : τ → Option τ → Bool

attribute [reducible, instance] Time.decidableLT Time.decidableLE

instance : Time Float where
  decidableLT := inferInstance
  decidableLE := inferInstance
  max := fmax
  min := fmin
  isFinite := Float.isFinite
  ordered a b := totalKey a ≤ totalKey b
  tolerance := 0.000001
  exceeds time bound := time > bound.getD infinity

/-- Exact times. -/
instance : Time Rat where
  decidableLT := inferInstance
  decidableLE := inferInstance
  max a b := a ⊔ b
  min a b := a ⊓ b
  isFinite _ := true
  ordered a b := a ≤ b
  tolerance := 1 / 1000000
  exceeds time bound := bound.any (· < time)

structure Packet (τ : Type) where
  track : Nat
  pts : τ
  duration : τ
  sync : Bool
  decodeTime : τ
deriving DecidableEq

/-- `tracks` are those that the parser has read. -/
structure Buffer (τ : Type) where
  mime : Mime
  tracks : List Track
  video : List (Packet τ)
  audio : List (Packet τ)
  offset : τ
  needSync : Bool
deriving DecidableEq

structure Request (τ : Type) where
  timestampOffset : τ
  appendWindowStart : τ
  appendWindowEnd : Option τ
  sequence : Bool

structure Kept (τ : Type) where
  needSync : Bool
  video : List (Packet τ)
  audio : List (Packet τ)
deriving DecidableEq

structure Presentation (τ : Type) where
  buffers : List (Buffer τ)
  ended : Bool

section
variable {τ : Type} [Time τ]

def mergeNext (result : List (Span τ)) (range : Span τ) : List (Span τ) :=
  match result.getLast? with
  | some last =>
    if range.start ≤ last.stop + Time.tolerance then
      result.dropLast ++ [{ last with stop := Time.max last.stop range.stop }]
    else result ++ [range]
  | none => [range]

def merge (ranges : List (Span τ)) : List (Span τ) :=
  let ranges := ranges.filter fun range =>
    Time.isFinite range.start && Time.isFinite range.stop && decide (range.start < range.stop)
  (ranges.insertionSort fun left right => Time.ordered left.start right.start = true).foldl
    mergeNext []

def intersection : List (Span τ) → List (Span τ) → List (Span τ)
  | [], _ => []
  | _, [] => []
  | left :: lefts, right :: rights =>
    let start := Time.max left.start right.start
    let stop := Time.min left.stop right.stop
    let rest := if left.stop < right.stop then intersection lefts (right :: rights)
      else intersection (left :: lefts) rights
    if start < stop then ⟨start, stop⟩ :: rest else rest
termination_by left right => left.length + right.length

namespace Packet

/-- `sample.end()` -/
def endTime (self : Packet τ) : τ := self.pts + self.duration

def range (self : Packet τ) : Span τ := ⟨self.pts, self.endTime⟩

def shift (self : Packet τ) (shift : τ) : Packet τ :=
  { self with pts := self.pts + shift, decodeTime := self.decodeTime + shift }

end Packet

/-- The packet is presented at a time of the removed range. -/
def overlaps (packet : Packet τ) (start stop : τ) : Bool :=
  packet.pts < stop && decide (start < packet.endTime)

/-- `video.retain` of a removal; `dependent` says that an earlier packet of the group was dropped. -/
def retainVideo (start stop : τ) : (dependent : Bool) → List (Packet τ) → List (Packet τ)
  | _, [] => []
  | dependent, packet :: rest =>
    let restarts := packet.sync && decide (stop ≤ packet.pts)
    let dependent := overlaps packet start stop || (dependent && !restarts)
    if overlaps packet start stop || dependent then retainVideo start stop dependent rest
    else packet :: retainVideo start stop dependent rest

def retainAudio (start stop : τ) (packets : List (Packet τ)) : List (Packet τ) :=
  packets.filter fun packet => stop ≤ packet.pts || decide (packet.endTime ≤ start)

namespace Request

def invalidAppend (self : Request τ) : Bool :=
  !Time.isFinite self.timestampOffset || !Time.isFinite self.appendWindowStart ||
    self.appendWindowStart < 0 ||
    self.appendWindowEnd.any fun stop => !Time.isFinite stop || stop ≤ self.appendWindowStart

/-- How far the packets of an append move. -/
def shift (self : Request τ) (packets : List (Packet τ)) : τ :=
  if self.sequence then
    match packets.map (·.pts) with
    | [] => self.timestampOffset - self.timestampOffset
    | first :: rest => self.timestampOffset - rest.foldl Time.min first
  else self.timestampOffset

/-- Whether a shifted packet lies outside the append window. -/
def outside (self : Request τ) (packet : Packet τ) : Bool :=
  !Time.isFinite packet.pts || !Time.isFinite packet.endTime ||
    packet.pts < self.appendWindowStart || Time.exceeds packet.endTime self.appendWindowEnd

end Request

/-- The loop over the packets of an append. -/
def accept (request : Request τ) (tracks : List Track) (shift : τ) :
    (needSync : Bool) → List (Packet τ) → Except Error (Kept τ)
  | needSync, [] => .ok { needSync, video := [], audio := [] }
  | needSync, packet :: rest => do
    match tracks.find? (·.id = packet.track) with
    | none => throw (.state "unknown appended track")
    | some track =>
      let packet := packet.shift shift
      if track.codec.isVideo then
        if request.outside packet then accept request tracks shift true rest
        else if needSync && !packet.sync then accept request tracks shift needSync rest
        else
          let kept ← accept request tracks shift false rest
          return { kept with video := packet :: kept.video }
      else if request.outside packet then accept request tracks shift needSync rest
      else
        let kept ← accept request tracks shift needSync rest
        return { kept with audio := packet :: kept.audio }

/-- `first.zip(last)` and the comparison of their decode times. -/
def startsBefore (new old : List (Packet τ)) : Bool :=
  match new.head?, old.getLast? with
  | some new, some old => new.decodeTime < old.decodeTime
  | _, _ => false

/-- Order of storage. -/
def decodeOrder (a b : Packet τ) : Prop := Time.ordered a.decodeTime b.decodeTime = true

instance : DecidableRel (decodeOrder (τ := τ)) := fun _ _ => inferInstanceAs (Decidable (_ = _))

namespace Buffer

def endTime (self : Buffer τ) : τ :=
  ((self.video ++ self.audio).map Packet.endTime).foldl Time.max 0

/-- The times that some packets cover. -/
def covered (packets : List (Packet τ)) : List (Span τ) :=
  merge (packets.map fun packet => ⟨Time.max packet.pts 0, packet.endTime⟩)

def rangesOf (ended : Option τ) (packets : List (Packet τ)) : List (Span τ) :=
  let ranges := covered packets
  match ended, ranges.getLast? with
  | some stop, some last => ranges.dropLast ++ [{ last with stop := Time.max last.stop stop }]
  | _, _ => ranges

def ranges (self : Buffer τ) (ended : Option τ) : List (Span τ) :=
  match self.mime.video, self.mime.audio with
  | true, true => intersection (rangesOf ended self.video) (rangesOf ended self.audio)
  | true, false => rangesOf ended self.video
  | false, true => rangesOf ended self.audio
  | false, false => []

def count (self : Buffer τ) : Nat := self.video.length + self.audio.length

def remove (self : Buffer τ) (start stop : τ) : Buffer τ × Bool :=
  let after := { self with
    video := retainVideo start stop false self.video
    audio := retainAudio start stop self.audio }
  (after, self.count ≠ after.count)

/-- `changed |= staged.remove(range[0], range[1])` -/
def makeRoom (state : Buffer τ × Bool) (range : Span τ) : Buffer τ × Bool :=
  let (buffer, removed) := state.1.remove range.start range.stop
  (buffer, state.2 || removed)

/-- Stored packets make room for the new ones. -/
def overwrite (self : Buffer τ) (kept : Kept τ) : Buffer τ × Bool :=
  (merge ((kept.video ++ kept.audio).map Packet.range)).foldl makeRoom (self, false)

def store (self : Buffer τ) (kept : Kept τ) : Buffer τ :=
  { self with
    video := (self.video ++ kept.video).insertionSort decodeOrder
    audio := (self.audio ++ kept.audio).insertionSort decodeOrder }

def nextOffset (request : Request τ) (kept : Kept τ) : τ :=
  if request.sequence then
    match (kept.video ++ kept.audio).map Packet.endTime with
    | [] => request.timestampOffset
    | first :: rest => rest.foldl Time.max first
  else request.timestampOffset

/-- The first half of an append: the input is parsed and its packets chosen. -/
def stage [BEq τ] (self : Buffer τ)
    (parsed : Except MediaError (List Track × List (Packet τ))) (request : Request τ) :
    Except Error (Buffer τ × Kept τ) := do
  if request.invalidAppend then throw (.state "invalid append parameters")
  let (tracks, packets) ← parsed.mapError Error.decode
  if tracks ≠ [] ∧ ¬ Video.Buffer.tracksMatch self.mime tracks then
    throw (.state "initialization tracks do not match the declared codecs")
  let needSync := self.needSync || request.timestampOffset != self.offset
  let kept ← accept request tracks (request.shift packets) needSync packets
  return ({ self with tracks, needSync := kept.needSync }, kept)

def append [BEq τ] (self : Buffer τ)
    (parsed : Except MediaError (List Track × List (Packet τ))) (request : Request τ) :
    Except Error (Buffer τ × Bool) := do
  let (staged, kept) ← self.stage parsed request
  let (staged, removed) := staged.overwrite kept
  let changed := removed || startsBefore kept.video staged.video ||
    startsBefore kept.audio staged.audio
  let staged := staged.store kept
  if staged.count > 1000000 then throw .quota
  return ({ staged with offset := nextOffset request kept }, changed)

end Buffer

namespace Presentation

def endTime (self : Presentation τ) : τ := (self.buffers.map Buffer.endTime).foldl Time.max 0

def ranges (self : Presentation τ) : List (Span τ) :=
  let ended := if self.ended then some self.endTime else none
  match self.buffers.map (·.ranges ended) with
  | [] => []
  | first :: rest => rest.foldl intersection first

end Presentation
end
end Chuzz.Video.Timeline
