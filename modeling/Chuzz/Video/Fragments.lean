import Chuzz.Video.Boxes

/-! Incremental fragmented MP4 indexing. A payload stays in the byte block it
arrived in; packets hold the block and an extent. The third-party `mp4parse`
reader is a parameter: it answers for the bytes of an `ftyp` and a `moov`. -/
namespace Chuzz.Video
open Std
local instance lawfulKind : LawfulBEq (List UInt8) := inferInstance

/-- Wrapping `u64` addition and subtraction, as compiled for release. -/
def wrappingAdd (a b : Nat) : Nat := (a + b) % 2 ^ 64
def wrappingSub (a b : Nat) : Nat := (a + 2 ^ 64 - b % 2 ^ 64) % 2 ^ 64

def checkedAdd (a b : Nat) (message : String) : Except MediaError Nat :=
  if a + b < 2 ^ 64 then .ok (a + b) else .error (bad message)

/-- An integer as `f64`, rounded to nearest even. -/
def asF64 (value : Int) : Float := .ofModel (.ofInt value)

/-- A `u32` read back as `i32`. -/
def asI32 (value : Nat) : Int := if value < 2 ^ 31 then value else (value : Int) - 2 ^ 32

inductive Codec where
  | video (avcc : Bytes) (width height : Nat)
  | audio (asc : Bytes) (rate : Nat)
deriving DecidableEq, Repr

def Codec.isVideo : Codec → Bool
  | .video .. => true
  | .audio .. => false

structure Track where
  id : Nat
  scale : Nat
  codec : Codec
deriving DecidableEq, Repr

structure Sample where
  offset : Nat
  size : Nat
  dts : Nat
  delta : Nat
  pts : Float
  duration : Float
  sync : Bool
deriving DecidableEq

/-- Presentation end of a sample. -/
def Sample.endTime (self : Sample) : Float := self.pts + self.duration

/-- `Arc<Vec<u8>>`. The name stands for the address of a live allocation: a block
is named after the upload it came from, and the joined copy that replaces an
upload takes over its name, since the upload itself is then dropped. -/
structure Block where
  name : Nat
  bytes : Bytes
deriving DecidableEq, Repr

/-- `serial` is a ghost: no definition that models code reads it. The
SourceBuffer numbers its video packets with it in the order they are emitted. -/
structure Encoded where
  track : Nat
  sample : Sample
  decodeTime : Float
  bytes : Block
  serial : Nat := 0
deriving DecidableEq

def Encoded.data (self : Encoded) : Bytes :=
  slice self.bytes.bytes self.sample.offset (self.sample.offset + self.sample.size)

structure Defaults where
  description : Nat
  duration : Nat
  size : Nat
  flags : Nat
deriving DecidableEq

structure PendingSample where
  track : Nat
  sample : Sample
  decodeTime : Float
deriving DecidableEq

/-- The sample at an offset of its block. -/
def PendingSample.encoded (self : PendingSample) (offset : Nat) (bytes : Block) : Encoded :=
  { track := self.track, sample := { self.sample with offset }, decodeTime := self.decodeTime, bytes }

structure Fragments where
  tracks : List Track := []
  defaults : ExtTreeMap Nat Defaults := ∅
  nextDts : ExtTreeMap Nat Nat := ∅
  pending : Bytes := []
  position : Nat := 0
  ftyp : Bytes := []
  fragment : Option (List PendingSample) := none

/-! What `mp4parse::read_mp4` reports, as far as initialization reads it. -/

inductive TrackType where
  | video
  | audio
  | other

structure VideoEntry where
  protectionInfo : Nat
  avcConfig : Option Bytes
  width : Nat
  height : Nat

structure EsDescriptor where
  audioObjectType : Option Nat
  extendedAudioObjectType : Option Nat
  decoderSpecificData : Bytes
  audioSampleRate : Option Nat

structure AudioEntry where
  protectionInfo : Nat
  esds : Option EsDescriptor

inductive SampleEntry where
  | video (entry : VideoEntry)
  | audio (entry : AudioEntry)
  | unknown

structure Mp4Track where
  trackType : TrackType
  trackId : Option Nat
  timescale : Option Nat
  stsd : Option (List SampleEntry)

structure MediaContext where
  mvex : Bool
  tracks : List Mp4Track

abbrev ReadMp4 := Bytes → Except String MediaContext

def okOr (value : Option α) (message : String) : Except MediaError α :=
  match value with
  | some value => .ok value
  | none => .error (bad message)

def videoCodec (entry : VideoEntry) : Except MediaError Codec := do
  let avcc : Bytes ← okOr entry.avcConfig "MSE supports only H.264 video"
  if entry.protectionInfo ≠ 0 ∨ avcc[1]? ∉ [some (66 : UInt8), some 77, some 100] ∨
      entry.width < 2 ∨ entry.height < 2 ∨ entry.width % 2 ≠ 0 ∨ entry.height % 2 ≠ 0 ∨
      entry.width * entry.height > 3840 * 2160 then
    throw (bad "unsupported or encrypted MSE video")
  return .video avcc entry.width entry.height

def audioCodec (entry : AudioEntry) : Except MediaError Codec := do
  let esds : EsDescriptor ← okOr entry.esds "MSE supports only AAC-LC audio"
  if entry.protectionInfo ≠ 0 ∨ esds.audioObjectType ≠ some 2 ∨
      esds.extendedAudioObjectType.isSome ∨ esds.decoderSpecificData = [] ∨
      esds.decoderSpecificData.length > 1024 then
    throw (bad "unsupported or encrypted MSE audio")
  let rate ← okOr (esds.audioSampleRate.filter fun rate => 8000 ≤ rate ∧ rate ≤ 192000)
    "unsupported AAC sample rate"
  return .audio esds.decoderSpecificData rate

/-- One entry of `context.tracks`, after the tracks already accepted. -/
def initialiseTrack (tracks : List Track) (track : Mp4Track) : Except MediaError (List Track) := do
  let id ← okOr track.trackId "missing MP4 track ID"
  let scale ← okOr (track.timescale.filter (· ≠ 0)) "invalid MP4 track timescale"
  let descriptions ← okOr track.stsd "missing MP4 sample description"
  if descriptions.length ≠ 1 then
    throw (bad "MSE requires one sample description per track")
  let codec ← match track.trackType, descriptions.head? with
    | .video, some (.video entry) => videoCodec entry
    | .audio, some (.audio entry) => audioCodec entry
    | _, _ => throw (bad "unsupported MSE track")
  if tracks.any (·.id = id) then
    throw (bad "duplicate MP4 track ID")
  return tracks ++ [({ id, scale, codec } : Track)]

def trex (defaults : ExtTreeMap Nat Defaults) (body : Bytes) :
    Except MediaError (ExtTreeMap Nat Defaults) := do
  let (flags, reader) ← (Reader.new body).u32
  if flags ≠ 0 then
    throw (bad "invalid trex version or flags")
  let (id, reader) ← reader.u32
  let (description, reader) ← reader.u32
  let (duration, reader) ← reader.u32
  let (size, reader) ← reader.u32
  let (flags, reader) ← reader.u32
  reader.finish
  if description ≠ 1 ∨ id ∈ defaults then
    throw (bad "invalid or duplicate trex")
  return defaults.insert id { description, duration, size, flags }

/-- The `trex` boxes of every `mvex` in the body of a `moov`. -/
def trackDefaults (body : Bytes) : Except MediaError (ExtTreeMap Nat Defaults) := do
  (← boxes body).foldlM (fun defaults child => do
    if child.kind ≠ fourCC 'm' 'v' 'e' 'x' then
      return defaults
    let mvex := child.body body
    (← boxes mvex).foldlM (fun defaults child => do
      if child.kind ≠ fourCC 't' 'r' 'e' 'x' then
        return defaults
      trex defaults (child.body mvex)) defaults) ∅

/-- `flags & mask != 0`. -/
def hasFlag (flags mask : Nat) : Bool := flags &&& mask ≠ 0

/-- `flags & !mask != 0` for 32-bit flags. -/
def hasOther (flags mask : Nat) : Bool := flags &&& (0xffffffff - mask) ≠ 0

/-- Optional 32-bit field, present when its flag is set. -/
def Reader.u32If (self : Reader) (present : Bool) (otherwise : Nat) :
    Except MediaError (Nat × Reader) :=
  if present then self.u32 else .ok (otherwise, self)

structure TrackHeader where
  id : Nat
  track : Track
  defaults : Defaults
  base : Nat

structure Run where
  offset : Nat
  dts : Nat
  samples : List PendingSample

namespace Fragments

def pendingBytes (self : Fragments) : Nat := self.pending.length

def fragmentPending (self : Fragments) : Bool := self.fragment.isSome

def abort (self : Fragments) : Fragments :=
  { self with
    position := min (self.position + self.pending.length) (2 ^ 64 - 1)
    pending := []
    fragment := none }

def initialise (readMp4 : ReadMp4) (self : Fragments) (moov body : Bytes) :
    Except MediaError Fragments := do
  let context ← (readMp4 (self.ftyp ++ moov)).mapError
    (fun error => bad ("MSE initialization: " ++ error))
  if ¬ context.mvex then
    throw (bad "MSE requires fragmented MP4 initialization")
  let tracks ← context.tracks.foldlM initialiseTrack []
  if tracks = [] ∨ tracks.length > 2 then
    throw (bad "MSE requires one or two supported tracks")
  let defaults ← trackDefaults body
  if tracks.any (fun track => track.id ∉ defaults) then
    throw (bad "missing trex defaults")
  if self.tracks ≠ [] ∧ self.tracks ≠ tracks then
    throw (bad "changing MSE codec configuration is unsupported")
  return { self with tracks, defaults, nextDts := ∅ }

def tfhd (self : Fragments) (body : Bytes) (moofBase implicitBase : Nat) :
    Except MediaError TrackHeader := do
  let (flags, header) ← (Reader.new body).u32
  if hasOther flags 0x03003b then
    throw (bad "unsupported tfhd version or flags")
  let (id, header) ← header.u32
  let track ← okOr (self.tracks.find? (·.id = id)) "unknown fragment track"
  let defaults ← okOr self.defaults[id]? "missing fragment defaults"
  let (base, header) ← if hasFlag flags 1 then header.u64
    else pure (if hasFlag flags 0x020000 then moofBase else implicitBase, header)
  let (description, header) ← header.u32If (hasFlag flags 2) defaults.description
  let (duration, header) ← header.u32If (hasFlag flags 8) defaults.duration
  let (size, header) ← header.u32If (hasFlag flags 16) defaults.size
  let (sampleFlags, header) ← header.u32If (hasFlag flags 32) defaults.flags
  header.finish
  if description ≠ 1 ∨ hasFlag flags 0x010000 then
    throw (bad "unsupported fragment sample description or empty duration")
  return { id, track, base, defaults := { description, duration, size, flags := sampleFlags } }

def tfdt (body : Bytes) : Except MediaError Nat := do
  let (version, reader) ← (Reader.new body).u32
  let (value, reader) ← if version = 0 then reader.u32
    else if version = 0x01000000 then reader.u64
    else throw (bad "invalid tfdt version or flags")
  reader.finish
  return value

/-- The remaining samples of a track run, the next one being number `index`. -/
def trunSamples (header : TrackHeader) (version flags : Nat) (firstFlags : Option Nat) :
    (remaining : Nat) → (index : Nat) → Reader → Run → Except MediaError (Reader × Run)
  | 0, _, reader, run => .ok (reader, run)
  | remaining + 1, index, reader, run => do
    let (delta, reader) ← reader.u32If (hasFlag flags 0x100) header.defaults.duration
    let (size, reader) ← reader.u32If (hasFlag flags 0x200) header.defaults.size
    let (sampleFlags, reader) ← reader.u32If (hasFlag flags 0x400)
      (if index = 0 then firstFlags.getD header.defaults.flags else header.defaults.flags)
    let (value, reader) ← reader.u32If (hasFlag flags 0x800) 0
    let composition : Int := if version = 0 then value else asI32 value
    if delta = 0 ∨ size = 0 ∨ size > 4 * 1024 * 1024 then
      throw (bad "invalid fragment sample duration or size")
    let scale := asF64 header.track.scale
    let sample : PendingSample :=
      { track := header.id
        sample :=
          { offset := run.offset
            size
            dts := run.dts
            delta
            pts := (asF64 run.dts + asF64 composition) / scale
            duration := asF64 delta / scale
            sync := !hasFlag sampleFlags 0x10000 }
        decodeTime := asF64 run.dts / scale }
    let offset ← checkedAdd run.offset size "fragment data offset overflow"
    let dts ← checkedAdd run.dts delta "fragment timestamp overflow"
    trunSamples header version flags firstFlags remaining (index + 1) reader
      { offset, dts, samples := run.samples ++ [sample] }

def trun (header : TrackHeader) (run : Run) (body : Bytes) : Except MediaError Run := do
  let (full, reader) ← (Reader.new body).u32
  let version := full >>> 24
  let flags := full &&& 0x00ffffff
  if version > 1 ∨ hasOther flags 0x000f05 ∨ hasFlag flags 4 ∧ hasFlag flags 0x400 then
    throw (bad "invalid trun version or flags")
  let (count, reader) ← reader.u32
  if count > maxSamples - run.samples.length then
    throw (bad "too many fragment samples")
  let (offset, reader) ← if hasFlag flags 1 then do
      let (value, reader) ← reader.u32
      let offset := (header.base : Int) + asI32 value
      if offset < 0 ∨ offset ≥ 2 ^ 64 then
        throw (bad "invalid trun data offset")
      pure (offset.toNat, reader)
    else pure (run.offset, reader)
  let (firstFlags, reader) ← if hasFlag flags 4 then do
      let (value, reader) ← reader.u32
      pure (some value, reader)
    else pure (none, reader)
  let (reader, run) ← trunSamples header version flags firstFlags count 0 reader { run with offset }
  reader.finish
  return run

/-- The runs of one `traf`, and its track. The samples follow those of the earlier
fragments of the same `moof`. -/
def trafRun (self : Fragments) (moofBase implicitBase : Nat) (samples : List PendingSample)
    (body : Bytes) : Except MediaError (Nat × Run) := do
  let children ← boxes body
  if children.any (fun child =>
      child.kind ∈ [fourCC 's' 'e' 'n' 'c', fourCC 's' 'a' 'i' 'z', fourCC 's' 'a' 'i' 'o']) then
    throw (bad "encrypted fragments are unsupported")
  let header ← match children.filter (·.kind = fourCC 't' 'f' 'h' 'd') with
    | [header] => self.tfhd (header.body body) moofBase implicitBase
    | _ => throw (bad "traf requires exactly one tfhd")
  let dts ← match children.filter (·.kind = fourCC 't' 'f' 'd' 't') with
    | [] => okOr self.nextDts[header.id]? "first fragment requires tfdt"
    | [time] => tfdt (time.body body)
    | _ => throw (bad "duplicate tfdt")
  let run ← (children.filter (·.kind = fourCC 't' 'r' 'u' 'n')).foldlM
    (fun run child => trun header run (child.body body)) { offset := header.base, dts, samples }
  return (header.id, run)

/-- One child of a `moof`, with the implicit base of the next `traf`. -/
def traf (moofBase : Nat) (body : Bytes) (state : Fragments × Nat × List PendingSample)
    (child : BoxRef) : Except MediaError (Fragments × Nat × List PendingSample) := do
  let (self, implicitBase, samples) := state
  if child.kind ≠ fourCC 't' 'r' 'a' 'f' then
    return state
  let (id, run) ← self.trafRun moofBase implicitBase samples (child.body body)
  return ({ self with nextDts := self.nextDts.insert id run.dts }, run.offset, run.samples)

def moof (self : Fragments) (body : Bytes) (moofBase : Nat) :
    Except MediaError (Fragments × List PendingSample) := do
  let (self, _, result) ← (← boxes body).foldlM (traf moofBase body) (self, moofBase, [])
  if result = [] then
    throw (bad "fragment has no playable samples")
  return (self, result)

/-- A sample of the pending fragment, checked against the `mdat` that carries it
and rebased from the stream to the input block. -/
def locate (input : Block) (position lower upper : Nat) (packet : PendingSample) :
    Except MediaError Encoded := do
  let stop ← checkedAdd packet.sample.offset packet.sample.size "MP4 sample extent overflow"
  if packet.sample.offset < lower ∨ stop > upper then
    throw (bad "fragment sample is outside its mdat")
  return packet.encoded (wrappingSub packet.sample.offset position) input

def skipped : List Bytes :=
  [fourCC 'f' 'r' 'e' 'e', fourCC 's' 'k' 'i' 'p', fourCC 's' 't' 'y' 'p',
    fourCC 's' 'i' 'd' 'x', fourCC 'e' 'm' 's' 'g', fourCC 'p' 'r' 'f' 't']

def ftypBox (self : Fragments) (size : Nat) (whole : Bytes) : Except MediaError Fragments :=
  if self.fragment.isSome ∨ size > 65536 then
    .error (bad "invalid MSE initialization segment")
  else .ok { self with ftyp := whole }

def moovBox (readMp4 : ReadMp4) (self : Fragments) (whole body : Bytes) :
    Except MediaError Fragments :=
  if self.fragment.isSome ∨ self.ftyp = [] then .error (bad "MSE moov must follow ftyp")
  else self.initialise readMp4 whole body

def moofBox (self : Fragments) (start : Nat) (body : Bytes) : Except MediaError Fragments :=
  if self.fragment.isSome ∨ self.tracks = [] then
    .error (bad "MSE moof without initialization or mdat")
  else do
    let base ← checkedAdd self.position start "MSE stream offset overflow"
    let (self, samples) ← self.moof body base
    return { self with fragment := some samples }

def mdatBox (self : Fragments) (input : Block) (item : BoxRef) :
    Except MediaError (Fragments × List Encoded) := do
  let samples ← okOr self.fragment "MSE mdat without moof"
  let lower := wrappingAdd self.position (item.start + item.header)
  let upper := wrappingAdd self.position item.stop
  let packets ← samples.mapM (locate input self.position lower upper)
  return ({ self with fragment := none }, packets)

/-- One complete top-level box of the input, and the packets it releases. -/
def topLevel (readMp4 : ReadMp4) (self : Fragments) (input : Block) (item : BoxRef) :
    Except MediaError (Fragments × List Encoded) :=
  let body := item.body input.bytes
  let whole := slice input.bytes item.start item.stop
  if item.kind = fourCC 'f' 't' 'y' 'p' then
    (self.ftypBox (item.stop - item.start) whole).map (·, [])
  else if item.kind = fourCC 'm' 'o' 'o' 'v' then
    (self.moovBox readMp4 whole body).map (·, [])
  else if item.kind = fourCC 'm' 'o' 'o' 'f' then (self.moofBox item.start body).map (·, [])
  else if item.kind = fourCC 'm' 'd' 'a' 't' then self.mdatBox input item
  else if item.kind ∈ skipped then .ok (self, [])
  else .error (bad "unsupported MSE top-level MP4 box")

/-- The loop over complete top-level boxes; `budget` more of them are allowed. -/
def appendFrom (readMp4 : ReadMp4) (input : Block) :
    (budget : Nat) → (cursor : Nat) → Fragments → Except MediaError (Fragments × Nat × List Encoded)
  | 0, cursor, self => do
    match ← boxAt input.bytes cursor with
    | none => return (self, cursor, [])
    | some _ => throw (bad "too many top-level MP4 boxes")
  | budget + 1, cursor, self => do
    match ← boxAt input.bytes cursor with
    | none => return (self, cursor, [])
    | some item =>
      let (self, packets) ← self.topLevel readMp4 input item
      let (self, cursor, output) ← appendFrom readMp4 input budget item.stop self
      return (self, cursor, packets ++ output)

/-- The block that the loop reads: the new bytes, behind the pending ones. -/
def joined (self : Fragments) (bytes : Block) : Except MediaError Block :=
  if self.pending = [] then .ok bytes
  else if self.pending.length + bytes.bytes.length ≤ maxBox * 2 then
    .ok { bytes with bytes := self.pending ++ bytes.bytes }
  else .error (bad "MSE partial segment exceeds its limit")

def append (readMp4 : ReadMp4) (self : Fragments) (bytes : Block) :
    Except MediaError (Fragments × List Encoded) := do
  let input ← self.joined bytes
  let (self, cursor, output) ← appendFrom readMp4 input 4096 0 self
  let position ← checkedAdd self.position cursor "MSE stream offset overflow"
  return ({ self with position, pending := input.bytes.drop cursor }, output)

end Fragments
end Chuzz.Video
