import Chuzz.Library.Grouping
import Chuzz.Video.AnnexB

/-! The sample table of an MP4 track, from the five tables that the file has. What `mp4parse` reads
of a track is a parameter; its counters are `u32`. -/
namespace Chuzz.Video.Demux

def maxSamples : Nat := 1000000
def maxSampleBytes : Nat := 4 * 1024 * 1024

structure TimeRun where
  count : Nat
  delta : Nat
  small : delta < 2 ^ 32 := by decide

structure ChunkRun where
  firstChunk : Nat
  samplesPerChunk : Nat
  descriptionIndex : Nat

inductive TimeOffset where
  | version0 (offset : UInt32)
  | version1 (offset : Int32)

/-- `i64::from(offset)` -/
def TimeOffset.value : TimeOffset → Int
  | .version0 offset => offset.toNat
  | .version1 offset => offset.toInt

structure CompositionRun where
  count : Nat
  offset : TimeOffset
  small : count < 2 ^ 32 := by decide

structure SampleSizes where
  sampleSize : Nat
  sampleSizes : List Nat

/-- A track, as far as its samples are indexed. -/
structure MediaTrack where
  timescale : Option UInt64
  mediaTime : Option UInt64 := none
  emptyDuration : Option UInt64 := none
  stts : Option (List TimeRun)
  stsz : Option SampleSizes
  stsc : Option (List ChunkRun)
  stco : Option (List Nat)
  ctts : Option (List CompositionRun) := none
  stss : Option (List Nat) := none

/-- The tables of a track that has them. -/
structure Tables where
  scale : Float
  mediaTime : Float
  empty : Float
  stts : List TimeRun
  stsz : SampleSizes
  stsc : List ChunkRun
  stco : List Nat
  ctts : Option (List CompositionRun)
  stss : Option (List Nat)

structure Table where
  samples : List Sample
  stop : Float
deriving DecidableEq

/-- How long a track waits before its first sample, on the scale of the movie. -/
def emptyTime (movieTimescale : Option UInt64) : Option UInt64 → Except MediaError Float
  | none => .ok 0
  | some empty => do
    let scale ← okOr (movieTimescale.filter (· ≠ 0)) "invalid MP4 movie timescale"
    return asF64 empty.toNat / asF64 scale.toNat

/-- What `index` takes from a track before it reads the tables. -/
def MediaTrack.tables (track : MediaTrack) (movieTimescale : Option UInt64) :
    Except MediaError Tables := do
  let scale ← okOr (track.timescale.filter (· ≠ 0)) "invalid MP4 track timescale"
  let scale := asF64 scale.toNat
  let mediaTime := match track.mediaTime with
    | some time => asF64 time.toNat / scale
    | none => 0
  let empty ← emptyTime movieTimescale track.emptyDuration
  let stts ← okOr track.stts "missing MP4 sample times"
  let stsz ← okOr track.stsz "missing MP4 sample sizes"
  let stsc ← okOr track.stsc "missing MP4 sample-to-chunk table"
  let stco ← okOr track.stco "missing MP4 chunk offsets"
  return { scale, mediaTime, empty, stts, stsz, stsc, stco, ctts := track.ctts, stss := track.stss }

/-- The sample count after one more run. -/
def countRun (count : Nat) (run : TimeRun) : Except MediaError Nat :=
  if run.delta = 0 ∨ run.count = 0 then throw (.decode "invalid MP4 timing run")
  else if maxSamples < count + run.count then throw (.unsupported "MP4 has too many samples")
  else .ok (count + run.count)

/-- The first chunk of a run, after that of the run before it. -/
def checkRun (chunks previous : Nat) (run : ChunkRun) : Except MediaError Nat :=
  if run.firstChunk ≤ previous ∨ chunks < run.firstChunk ∨ run.samplesPerChunk = 0 ∨
      run.descriptionIndex ≠ 1 then
    throw (.decode "invalid MP4 chunk run")
  else .ok run.firstChunk

/-- The composition offsets with one more run, and the cursor behind it. -/
def composeRun (state : List Int × Nat) (run : CompositionRun) :
    Except MediaError (List Int × Nat) := do
  let (composition, cursor) := state
  let stop := cursor + run.count
  if 2 ^ 64 ≤ stop then throw (.decode "MP4 composition count overflow")
  if composition.length < stop then throw (.decode "invalid MP4 composition table")
  return (composition.take cursor ++ List.replicate run.count run.offset.value ++
    composition.drop stop, stop)

def compositions (count : Nat) (ctts : Option (List CompositionRun)) :
    Except MediaError (List Int) := do
  let composition := List.replicate count 0
  match ctts with
  | none => return composition
  | some runs =>
    let (composition, cursor) ← runs.foldlM composeRun (composition, 0)
    if cursor ≠ count then throw (.decode "inconsistent MP4 composition table")
    return composition

def checkSync (count previous sample : Nat) : Except MediaError Nat :=
  if sample ≤ previous ∨ count < sample then throw (.decode "invalid MP4 sync-sample table")
  else .ok sample

def checkSyncs (count : Nat) : Option (List Nat) → Except MediaError Unit
  | none => .ok ()
  | some samples => do
    let _ ← samples.foldlM (checkSync count) 0
    return ()

namespace Tables

/-- The next sample, before it has a place. The binary search in a sorted table finds what it
holds. -/
def timed (tables : Tables) (composition : List Int) (delta sample dts : Nat) : Sample where
  offset := 0
  size := 0
  dts
  delta
  pts := (asF64 dts + asF64 (composition.getD sample 0)) / tables.scale + tables.empty -
    tables.mediaTime
  duration := asF64 delta / tables.scale
  sync := match tables.stss with
    | none => true
    | some samples => samples.contains (sample + 1)

/-- One more sample of a run. -/
def push (tables : Tables) (composition : List Int) (state : List Sample × Nat) (delta : Nat) :
    Except MediaError (List Sample × Nat) :=
  if 2 ^ 64 ≤ state.2 + delta then throw (.decode "MP4 sample timestamp overflow")
  else .ok (state.1 ++ [tables.timed composition delta state.1.length state.2], state.2 + delta)

def timeRuns (tables : Tables) (composition : List Int) :
    Except MediaError (List Sample × Nat) :=
  tables.stts.foldlM (fun state run =>
    (List.replicate run.count run.delta).foldlM (tables.push composition) state) ([], 0)

def readSize (tables : Tables) (index : Nat) : Except MediaError Nat :=
  if tables.stsz.sampleSize = 0 then
    okOr tables.stsz.sampleSizes[index]? "missing MP4 sample size"
  else .ok tables.stsz.sampleSize

/-- The sample at `index` gets its place; the next one starts behind it. -/
def placeSample (tables : Tables) (length offset : Nat) (samples : List Sample) (index : Nat) :
    Except MediaError (Nat × List Sample) := do
  let size ← tables.readSize index
  if size = 0 ∨ maxSampleBytes < size then throw (.unsupported "an MP4 sample exceeds 4 MiB")
  if 2 ^ 64 ≤ offset + size ∨ length < offset + size then
    throw (.decode "invalid MP4 sample extent")
  let some sample := samples[index]? | throw (.decode "too many MP4 chunk samples")
  return (offset + size, samples.set index { sample with offset, size })

/-- The samples of a chunk, `left` of them still to come. -/
def placeChunk (tables : Tables) (length : Nat) :
    (left offset : Nat) → List Sample → Nat → Except MediaError (List Sample × Nat)
  | 0, _, samples, index => .ok (samples, index)
  | left + 1, offset, samples, index => do
    let (next, samples) ← tables.placeSample length offset samples index
    placeChunk tables length left next samples (index + 1)

/-- The run of a chunk, from that of the chunk before it and the runs that follow. -/
def advance (chunk : Nat) : (later : List ChunkRun) → (runIndex : Nat) → Nat
  | [], runIndex => runIndex
  | run :: later, runIndex =>
    if run.firstChunk ≤ chunk + 1 then advance chunk later (runIndex + 1) else runIndex

def placeChunks (tables : Tables) (length : Nat) :
    List Nat → (chunk runIndex : Nat) → List Sample → Nat → Except MediaError (List Sample × Nat)
  | [], _, _, samples, index => .ok (samples, index)
  | offset :: offsets, chunk, runIndex, samples, index => do
    let runIndex := advance chunk (tables.stsc.drop (runIndex + 1)) runIndex
    let left := (tables.stsc[runIndex]?.map ChunkRun.samplesPerChunk).getD 0
    let (samples, index) ← tables.placeChunk length left offset samples index
    placeChunks tables length offsets (chunk + 1) runIndex samples index

def index (tables : Tables) (length : UInt64) : Except MediaError Table := do
  let count ← tables.stts.foldlM countRun 0
  if count = 0 ∨ tables.stco = [] ∨ tables.stsc.head?.map ChunkRun.firstChunk ≠ some 1 ∨
      (tables.stsz.sampleSize = 0 ∧ tables.stsz.sampleSizes.length ≠ count) then
    throw (.decode "inconsistent MP4 sample tables")
  let _ ← tables.stsc.foldlM (checkRun tables.stco.length) 0
  let composition ← compositions count tables.ctts
  checkSyncs count tables.stss
  let (samples, _) ← tables.timeRuns composition
  let (samples, placed) ← tables.placeChunks length.toNat tables.stco 0 0 samples 0
  if placed ≠ count then throw (.decode "missing MP4 chunk samples")
  return { samples, stop := (samples.map Sample.endTime).foldl fmax 0 }

end Tables

def index (track : MediaTrack) (movieTimescale : Option UInt64) (length : UInt64) :
    Except MediaError Table := do
  let tables ← track.tables movieTimescale
  tables.index length

end Chuzz.Video.Demux
