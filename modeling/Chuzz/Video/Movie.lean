import Chuzz.Library.FloatBounds
import Chuzz.Video.Duration
import Chuzz.Video.Placement

/-! A movie: a video track, perhaps an audio track, and the longer of their durations. All its
times are finite doubles, and no picture ends after the movie. -/
namespace Chuzz.Video.Demux
open Library.Fallible Library.FloatOrder Library.FloatBounds

/-- What the decoders take of a movie. -/
structure Movie where
  video : Table
  avcc : Bytes
  audio : Option Table
  duration : Float
deriving DecidableEq

/-- The tracks of a file, as far as `Movie::read` makes a movie from them. -/
structure Tracks where
  video : MediaTrack
  avcc : Bytes
  audio : Option MediaTrack
  movieTimescale : Option UInt64 := none

def Tracks.movie (tracks : Tracks) (length : UInt64) : Except MediaError Movie := do
  let video ← index tracks.video tracks.movieTimescale length
  let audio ← tracks.audio.mapM fun track => index track tracks.movieTimescale length
  let duration := match audio with
    | none => video.stop
    | some audio => fmax video.stop audio.stop
  if ¬ duration.isFinite ∨ duration ≤ 0 then throw (.decode "the MP4 has no playable duration")
  return { video, avcc := tracks.avcc, audio, duration }

/-! Bounds of the times. -/

theorem zero_bounded : Bounded 66 0 := by
  change Below 66 (0 : Float).toModel.unpack
  exact True.intro

theorem unsigned_bounded (n : UInt64) : Bounded 65 (asF64 n.toNat) :=
  .ofInt (k := 64) (by exact n.toNat_lt) (by decide)

theorem unsigned_full {n : UInt64} (positive : n ≠ 0) : Full 1 (asF64 n.toNat).toModel.unpack := by
  have some : 0 < n.toNat := Nat.pos_of_ne_zero fun none => positive (UInt64.toNat_inj.mp none)
  exact full_ofInt (k := 64) (by exact_mod_cast some) n.toNat_lt (by decide)

theorem okOr_ok {A : Type} {value : Option A} {message : String} {found : A}
    (present : okOr value message = .ok found) : value = some found := by
  cases value with
  | none => cases present
  | some value => exact congrArg some (Except.ok.inj present)

theorem quotient_bounded {n scale : UInt64} (positive : scale ≠ 0) :
    Bounded 66 (asF64 n.toNat / asF64 scale.toNat) :=
  (unsigned_bounded n).div (unsigned_full positive) (by decide) (by decide)

theorem emptyTime_bounded {movieTimescale emptyDuration : Option UInt64} {empty : Float}
    (read : emptyTime movieTimescale emptyDuration = .ok empty) : Bounded 66 empty := by
  cases emptyDuration with
  | none =>
    cases read
    exact zero_bounded
  | some duration =>
    obtain ⟨scale, found, read⟩ := bind_ok read
    cases read
    exact quotient_bounded (of_decide_eq_true (Option.filter_eq_some_iff.mp (okOr_ok found)).2)

/-- The scale divides, and the times that shift the samples are bounded. -/
theorem tables_bounded {track : MediaTrack} {movieTimescale : Option UInt64} {tables : Tables}
    (read : track.tables movieTimescale = .ok tables) :
    Full 1 tables.scale.toModel.unpack ∧ Bounded 66 tables.mediaTime ∧
      Bounded 66 tables.empty := by
  obtain ⟨scale, found, read⟩ := bind_ok read
  have positive := of_decide_eq_true (Option.filter_eq_some_iff.mp (okOr_ok found)).2
  obtain ⟨empty, shift, read⟩ := bind_ok read
  obtain ⟨_, _, read⟩ := bind_ok read
  obtain ⟨_, _, read⟩ := bind_ok read
  obtain ⟨_, _, read⟩ := bind_ok read
  obtain ⟨_, _, read⟩ := bind_ok read
  cases read
  refine ⟨unsigned_full positive, ?_, emptyTime_bounded shift⟩
  cases track.mediaTime with
  | none => exact zero_bounded
  | some time => exact quotient_bounded positive

namespace Tables
variable {tables : Tables}

theorem offset_small {offset : Int} (member : offset ∈ tables.offsets) :
    offset.natAbs < 2 ^ 64 := by
  unfold offsets at member
  split at member
  · rw [List.eq_of_mem_replicate member]
    decide
  · obtain ⟨run, _, inside⟩ := List.mem_flatMap.mp member
    rw [List.eq_of_mem_replicate inside]
    cases run.offset with
    | version0 offset =>
      have := offset.toNat_lt
      change ((offset.toNat : Int)).natAbs < _
      omega
    | version1 offset =>
      have := offset.toInt_lt
      have := offset.le_toInt
      change offset.toInt.natAbs < _
      omega

theorem Described.bounded {length position : Nat} {sample : Sample}
    (described : tables.Described length position sample) (few : tables.sampleCount ≤ maxSamples)
    (scale : Full 1 tables.scale.toModel.unpack) (mediaTime : Bounded 66 tables.mediaTime)
    (empty : Bounded 66 tables.empty) :
    Bounded 72 sample.pts ∧ Bounded 72 sample.duration := by
  obtain ⟨composition, composed, pts⟩ := described.pts
  have dts : sample.dts < 2 ^ 64 := by
    rw [described.dts]
    exact ((List.take_sublist position tables.deltas).sum_le_sum fun _ _ => Nat.zero_le _).trans_lt (sum_deltas_lt few)
  have delta := delta_small tables (List.mem_of_getElem? described.delta)
  have offset := offset_small (List.mem_of_getElem? composed)
  have time : Bounded 65 (asF64 sample.dts) := .ofInt (k := 64) (by exact dts) (by decide)
  have shift : Bounded 65 (asF64 composition) := .ofInt (k := 64) offset (by decide)
  have span : Bounded 65 (asF64 sample.delta) :=
    .ofInt (k := 64) (show sample.delta < 2 ^ 64 by omega) (by decide)
  rw [pts, described.duration]
  have start := (time.add shift (by decide) (by decide)).div scale (by decide) (by decide)
  have waited := start.add (empty.mono (by decide)) (by decide) (by decide)
  exact ⟨waited.sub (mediaTime.mono (by decide)) (by decide) (by decide),
    (span.div scale (by decide) (by decide)).mono (by decide)⟩

end Tables

/-- The times of a movie can be compared. -/
structure Movie.Sound (movie : Movie) : Prop where
  pts : ∀ sample ∈ movie.video.samples, sample.pts.isNaN = false
  stop : ∀ sample ∈ movie.video.samples, sample.endTime.isNaN = false
  beyond : ∀ sample ∈ movie.video.samples, (sample.endTime + sample.duration).isNaN = false
  duration : movie.duration.isNaN = false
  inside : ∀ sample ∈ movie.video.samples, sample.endTime ≤ movie.duration

theorem index_bounded {track : MediaTrack} {movieTimescale : Option UInt64} {length : UInt64}
    {table : Table} (indexed : index track movieTimescale length = .ok table) :
    (∀ sample ∈ table.samples, Bounded 72 sample.pts ∧ Bounded 72 sample.duration) ∧
      table.stop = (table.samples.map Sample.endTime).foldl fmax 0 := by
  obtain ⟨tables, read, done⟩ := bind_ok indexed
  obtain ⟨consistent, described⟩ := Tables.index_indexed.mp done
  obtain ⟨scale, mediaTime, empty⟩ := tables_bounded read
  refine ⟨fun sample member => ?_, described.stop⟩
  obtain ⟨position, held⟩ := List.mem_iff_getElem?.mp member
  exact (described.samples position sample held).bounded consistent.few scale mediaTime empty

theorem Tracks.movie_sound {tracks : Tracks} {length : UInt64} {movie : Movie}
    (accepted : tracks.movie length = .ok movie) : movie.Sound := by
  obtain ⟨video, indexed, accepted⟩ := bind_ok accepted
  obtain ⟨audio, _, accepted⟩ := bind_ok accepted
  obtain ⟨_, accepted⟩ := guard_ok accepted
  cases accepted
  obtain ⟨bounded, stop⟩ := index_bounded indexed
  have ending (sample : Sample) (member : sample ∈ video.samples) : Bounded 74 sample.endTime :=
    (bounded sample member).1.add (bounded sample member).2 (by decide) (by decide)
  have numbers : ∀ time ∈ video.samples.map Sample.endTime, time.isNaN = false := by
    intro time member
    obtain ⟨sample, inside, rfl⟩ := List.mem_map.mp member
    exact (ending sample inside).number
  have number : video.stop.isNaN = false := by
    rw [stop]
    exact foldl_fmax_number _ zero_number
  have within : ∀ sample ∈ video.samples, sample.endTime ≤ video.stop := by
    have least := le_self number
    conv at least => lhs; rw [stop]
    intro sample member
    exact ((foldl_fmax_le_iff zero_number number numbers).mp least).2 _ (List.mem_map_of_mem member)
  refine ⟨fun sample member => (bounded sample member).1.number,
    fun sample member => (ending sample member).number, fun sample member => ?_, ?_, ?_⟩
  · exact ((ending sample member).add ((bounded sample member).2.mono (by decide)) (by decide)
      (by decide)).number
  · cases audio with
    | none => exact number
    | some audio => exact fmax_number _ number
  · intro sample member
    cases audio with
    | none => exact within sample member
    | some audio =>
      exact le_transitive (ending sample member).number number (fmax_number _ number)
        (within sample member) (le_fmax_left _ number)

end Chuzz.Video.Demux
