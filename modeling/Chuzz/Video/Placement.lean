import Chuzz.Video.SampleTable

/-! Where the samples of a track lie: every chunk has one run, and holds the samples that follow
those of the chunks before it. -/
namespace Chuzz.Video.Demux
open Library Library.Fallible Library.Layout List Option

namespace Tables
variable {tables : Tables} {place chunk : Nat}

/-! Runs. -/

section
variable (increasing : (tables.stsc.map ChunkRun.firstChunk).Pairwise (· < ·))
include increasing

theorem firstChunk_lt {first second : Nat} {run run' : ChunkRun} (at_first : tables.stsc[first]? = some run)
    (at_second : tables.stsc[second]? = some run') (earlier : first < second) :
    run.firstChunk < run'.firstChunk := by
  rw [pairwise_map, pairwise_iff_getElem] at increasing
  obtain ⟨one, rfl⟩ := List.getElem?_eq_some_iff.mp at_first
  obtain ⟨two, rfl⟩ := List.getElem?_eq_some_iff.mp at_second
  exact increasing first second one two earlier

theorem firstChunk_pos (first : tables.stsc.head?.map ChunkRun.firstChunk = some 1) {run : ChunkRun}
    (member : run ∈ tables.stsc) : 0 < run.firstChunk := by
  rw [head?_eq_getElem?, map_eq_some_iff] at first
  obtain ⟨head, held, starts⟩ := first
  obtain ⟨position, inside⟩ := mem_iff_getElem?.mp member
  cases position with
  | zero =>
    rw [held] at inside
    cases inside
    omega
  | succ position =>
    have := firstChunk_lt increasing held inside (Nat.succ_pos _)
    omega

theorem Applies.unique {other : Nat} (applies : tables.Applies place chunk) (applies' : tables.Applies other chunk) :
    other = place := by
  -- The run behind an earlier one starts no later than the later one, which has started.
  have ordered {first second : Nat} (early : tables.Applies first chunk)
      (late : tables.Applies second chunk) : ¬ first < second := by
    intro earlier
    obtain ⟨run, held, _, stops⟩ := early
    obtain ⟨run', held', starts, _⟩ := late
    obtain ⟨within, _⟩ := List.getElem?_eq_some_iff.mp held'
    have next := getElem?_eq_getElem (l := tables.stsc) (i := first + 1) (by omega)
    have later := stops _ next
    rcases Nat.lt_or_eq_of_le (Nat.succ_le_of_lt earlier) with further | same
    · have := firstChunk_lt increasing next held' further
      omega
    · obtain rfl : first + 1 = second := same
      rw [← Option.some.inj (held'.symm.trans next)] at later
      omega
  have one := ordered applies applies'
  have two := ordered applies' applies
  omega

theorem Applies.samplesIn (applies : tables.Applies place chunk) {run : ChunkRun}
    (held : tables.stsc[place]? = some run) : tables.samplesIn chunk = run.samplesPerChunk := by
  obtain ⟨run', held', starts, stops⟩ := applies
  obtain rfl : run = run' := Option.some.inj (held.symm.trans held')
  have started : tables.stsc.filter (·.firstChunk ≤ chunk + 1) = tables.stsc.take (place + 1) := by
    conv_lhs => rw [← take_append_drop (place + 1) tables.stsc, filter_append]
    rw [filter_eq_self.mpr, filter_eq_nil_iff.mpr, append_nil]
    · intro later member
      obtain ⟨position, inside⟩ := mem_iff_getElem?.mp member
      rw [getElem?_drop] at inside
      rw [decide_eq_true_eq, not_le]
      cases position with
      | zero => exact stops later inside
      | succ position =>
        obtain ⟨within, _⟩ := List.getElem?_eq_some_iff.mp inside
        have next := getElem?_eq_getElem (l := tables.stsc) (i := place + 1) (by omega)
        exact (stops _ next).trans (firstChunk_lt increasing next inside (by omega))
    · intro earlier member
      obtain ⟨position, inside⟩ := mem_iff_getElem?.mp member
      rw [decide_eq_true_eq]
      obtain ⟨within, _⟩ := List.getElem?_eq_some_iff.mp inside
      rw [length_take] at within
      rw [getElem?_take_of_lt (by omega)] at inside
      rcases Nat.lt_or_eq_of_le (Nat.le_of_lt_succ (Nat.lt_of_lt_of_le within (min_le_left _ _)))
        with before | same
      · exact (firstChunk_lt increasing inside held before).le.trans starts
      · rw [same, held] at inside
        cases inside
        exact starts
  rw [Tables.samplesIn, started, getLast?_take, if_neg (Nat.succ_ne_zero _),
    Nat.add_sub_cancel, held]
  rfl

end

theorem advance_applies (later : List ChunkRun) {run : ChunkRun}
    (rest : tables.stsc.drop (place + 1) = later) (held : tables.stsc[place]? = some run)
    (starts : run.firstChunk ≤ chunk + 1) : tables.Applies (advance chunk later place) chunk := by
  induction later generalizing place run with
  | nil =>
    refine ⟨run, held, starts, fun next inside => ?_⟩
    change tables.stsc[place + 1]? = _ at inside
    rw [← Nat.add_zero (place + 1), ← getElem?_drop, rest] at inside
    cases inside
  | cons next later ih =>
    have here : tables.stsc[place + 1]? = some next := by
      rw [← Nat.add_zero (place + 1), ← getElem?_drop, rest]
      rfl
    unfold advance
    split
    · rename_i started
      refine ih ?_ here started
      rw [← drop_drop, rest, drop_one, tail_cons]
    · rename_i pending
      refine ⟨run, held, starts, fun other inside => ?_⟩
      obtain rfl := Option.some.inj (here.symm.trans inside)
      exact not_le.mp pending

/-! The samples of one chunk. -/

/-- A sample has a size within the limits. -/
def Sized (tables : Tables) (sample : Nat) : Prop :=
  tables.sizeAt sample ≠ 0 ∧ tables.sizeAt sample ≤ maxSampleBytes

/-- The samples from `first` on fit behind `offset`. -/
def Holds (tables : Tables) (length offset first count : Nat) : Prop :=
  ∀ index < count,
    tables.Sized (first + index) ∧ offset + tables.bytes first (index + 1) ≤ length

/-- The samples with the places that these get in their chunk. -/
def placed (tables : Tables) (first count offset : Nat) (samples : List Sample) : List Sample :=
  samples.mapIdx fun position sample =>
    if first ≤ position ∧ position < first + count then
      { sample with
        offset := offset + tables.bytes first (position - first)
        size := tables.sizeAt position }
    else sample

theorem bytes_succ (tables : Tables) (first count : Nat) : tables.bytes first (count + 1) =
    tables.sizeAt first + tables.bytes (first + 1) count := by
  rw [bytes, Nat.add_comm count, before_add, before_succ, before_zero, Nat.zero_add]
  simp only [bytes, Nat.add_zero, Nat.add_assoc]

theorem readSize_ok {sample size : Nat} (read : tables.readSize sample = .ok size) :
    tables.sizeAt sample = size := by
  unfold readSize at read
  unfold sizeAt
  split at read
  · rw [if_pos ‹_›, getD_eq_getElem?_getD]
    cases held : tables.stsz.sampleSizes[sample]? with
    | none =>
      rw [held] at read
      cases read
    | some size' =>
      rw [held] at read
      cases read
      rfl
  · rw [if_neg ‹_›]
    exact Except.ok.inj read

theorem readSize_some {sample : Nat} (some : tables.sizeAt sample ≠ 0) :
    tables.readSize sample = .ok (tables.sizeAt sample) := by
  unfold sizeAt at *
  unfold readSize
  split at some
  · rw [if_pos ‹_›, if_pos ‹_›]
    rw [getD_eq_getElem?_getD] at *
    cases held : tables.stsz.sampleSizes[sample]? with
    | none => exact absurd (by rw [held]; rfl) some
    | some size => rfl
  · rw [if_neg ‹_›, if_neg ‹_›]

variable {samples : List Sample}

theorem placeSample_iff {length offset index : Nat} {result : Nat × List Sample}
    (small : length < 2 ^ 64) :
    tables.placeSample length offset samples index = .ok result ↔ tables.Sized index ∧
      offset + tables.sizeAt index ≤ length ∧ ∃ sample, samples[index]? = some sample ∧
        result = (offset + tables.sizeAt index,
          samples.set index { sample with offset, size := tables.sizeAt index }) := by
  constructor
  · intro done
    obtain ⟨size, read, done⟩ := bind_ok done
    obtain rfl := readSize_ok read
    obtain ⟨sized, done⟩ := guard_ok done
    obtain ⟨within, done⟩ := guard_ok done
    rw [not_or, not_lt] at sized within
    cases held : samples[index]? with
    | none =>
      rw [held] at done
      cases done
    | some sample =>
      rw [held] at done
      cases done
      exact ⟨sized, within.2, sample, rfl, rfl⟩
  · rintro ⟨sized, within, sample, held, rfl⟩
    unfold placeSample
    rw [readSize_some sized.1]
    change (if _ then _ else _) = _
    rw [if_neg (by rw [not_or, not_lt]; exact sized)]
    change (if _ then _ else _) = _
    rw [if_neg (by omega), held]
    rfl

theorem holds_succ {length offset first count : Nat} :
    tables.Holds length offset first (count + 1) ↔ tables.Sized first ∧
      offset + tables.sizeAt first ≤ length ∧
        tables.Holds length (offset + tables.sizeAt first) (first + 1) count := by
  have single : tables.bytes first 1 = tables.sizeAt first := by
    rw [bytes, before_succ, before_zero, Nat.zero_add, Nat.add_zero]
  have shift (index : Nat) : tables.Sized (first + (index + 1)) ∧
      offset + tables.bytes first (index + 1 + 1) ≤ length ↔ tables.Sized (first + 1 + index) ∧
        offset + tables.sizeAt first + tables.bytes (first + 1) (index + 1) ≤ length := by
    rw [bytes_succ, ← Nat.add_assoc offset, Nat.add_right_comm, Nat.add_assoc first 1,
      Nat.add_comm 1]
  unfold Holds
  rw [Nat.forall_lt_succ_left']
  simp only [shift, Nat.zero_add, Nat.add_zero, single, and_assoc]

theorem getElem?_placed (tables : Tables) (first count offset position : Nat)
    (samples : List Sample) : (tables.placed first count offset samples)[position]? =
      samples[position]?.map fun sample =>
        if first ≤ position ∧ position < first + count then
          { sample with
            offset := offset + tables.bytes first (position - first)
            size := tables.sizeAt position }
        else sample := getElem?_mapIdx

theorem length_placed (tables : Tables) (first count offset : Nat) (samples : List Sample) :
    (tables.placed first count offset samples).length = samples.length := length_mapIdx

theorem placed_zero (tables : Tables) (first offset : Nat) (samples : List Sample) :
    tables.placed first 0 offset samples = samples := by
  apply ext_getElem?
  intro position
  rw [getElem?_placed]
  refine (congrArg (Option.map · _) ?_).trans map_id'
  funext sample
  exact if_neg (by omega)

theorem placed_succ {first count offset : Nat} {sample : Sample}
    (held : samples[first]? = some sample) :
    tables.placed (first + 1) count (offset + tables.sizeAt first)
        (samples.set first { sample with offset, size := tables.sizeAt first }) =
      tables.placed first (count + 1) offset samples := by
  apply ext_getElem?
  intro position
  rw [getElem?_placed, getElem?_placed]
  rcases Nat.lt_trichotomy position first with early | rfl | late
  · rw [getElem?_set_ne (by omega)]
    congr 1
    funext sample
    rw [if_neg (by omega), if_neg (by omega)]
  · obtain ⟨inside, _⟩ := List.getElem?_eq_some_iff.mp held
    rw [getElem?_set_self inside, held, map_some, map_some,
      if_neg (by omega), if_pos (by omega), Nat.sub_self]
    rfl
  · rw [getElem?_set_ne (by omega)]
    congr 1
    funext sample
    by_cases within : position < first + (count + 1)
    · obtain ⟨more, rfl⟩ := Nat.exists_eq_add_of_lt late
      rw [if_pos (by omega), if_pos (by omega), Nat.add_assoc first, Nat.add_sub_cancel_left,
        bytes_succ, Nat.add_assoc offset, Nat.add_comm more, ← Nat.add_assoc first,
        Nat.add_sub_cancel_left]
    · rw [if_neg (by omega), if_neg (by omega)]

variable {result : List Sample × Nat}

theorem placeChunk_iff {length left offset index : Nat}
    (small : length < 2 ^ 64) (start : index ≤ samples.length) :
    tables.placeChunk length left offset samples index = .ok result ↔
      tables.Holds length offset index left ∧ index + left ≤ samples.length ∧
        result = (tables.placed index left offset samples, index + left) := by
  induction left generalizing offset samples index with
  | zero =>
    rw [placed_zero]
    constructor
    · intro done
      cases done
      exact ⟨nofun, start, rfl⟩
    · rintro ⟨_, _, rfl⟩
      rfl
  | succ left ih =>
    rw [holds_succ]
    constructor
    · intro done
      obtain ⟨_, here, done⟩ := bind_ok done
      obtain ⟨sized, fits, sample, held, rfl⟩ := (placeSample_iff small).mp here
      obtain ⟨inside, _⟩ := List.getElem?_eq_some_iff.mp held
      obtain ⟨later, within, rfl⟩ := (ih (by rwa [length_set])).mp done
      rw [length_set] at within
      rw [placed_succ held]
      exact ⟨⟨sized, fits, later⟩, by omega, by rw [Nat.add_right_comm, Nat.add_assoc]⟩
    · rintro ⟨⟨sized, fits, later⟩, within, rfl⟩
      have held := getElem?_eq_getElem (l := samples) (i := index) (by omega)
      rw [placeChunk, (placeSample_iff small).mpr ⟨sized, fits, _, held, rfl⟩]
      refine (ih (by rw [length_set]; omega)).mpr
        ⟨later, by rw [length_set]; omega, ?_⟩
      rw [placed_succ held, Nat.add_right_comm, Nat.add_assoc]

/-! All chunks. -/

/-- The samples with the places that they get in the chunks from `chunk` on. -/
def laid (tables : Tables) : List Nat → (chunk : Nat) → List Sample → List Sample
  | [], _, samples => samples
  | offset :: offsets, chunk, samples =>
    laid tables offsets (chunk + 1)
      (tables.placed (before tables.samplesIn chunk) (tables.samplesIn chunk) offset samples)

theorem length_laid (tables : Tables) (offsets : List Nat) (chunk : Nat)
    (samples : List Sample) : (tables.laid offsets chunk samples).length = samples.length := by
  induction offsets generalizing chunk samples with
  | nil => rfl
  | cons offset offsets ih => rw [laid, ih, length_placed]

theorem laid_before {position : Nat} (offsets : List Nat) (samples : List Sample)
    (early : position < before tables.samplesIn chunk) :
    (tables.laid offsets chunk samples)[position]? = samples[position]? := by
  induction offsets generalizing chunk samples with
  | nil => rfl
  | cons offset offsets ih =>
    have next := before_mono tables.samplesIn (Nat.le_succ chunk)
    rw [laid, ih _ (early.trans_le next), getElem?_placed]
    refine (congrArg (Option.map · _) ?_).trans map_id'
    funext sample
    exact if_neg (by omega)

theorem laid_at {offsets : List Nat} {more index position offset : Nat}
    (held : offsets[more]? = some offset)
    (place : At tables.samplesIn (chunk + more) index position) :
    (tables.laid offsets chunk samples)[position]? = samples[position]?.map fun sample =>
      { sample with
        offset := offset + tables.bytes (before tables.samplesIn (chunk + more)) index
        size := tables.sizeAt position } := by
  induction more generalizing offsets chunk samples with
  | zero =>
    obtain ⟨rest, rfl⟩ : ∃ rest, offsets = offset :: rest := by
      cases offsets with
      | nil => cases held
      | cons first rest => exact ⟨rest, by rw [Option.some.inj held]⟩
    rw [Nat.add_zero] at place ⊢
    rw [laid, laid_before _ _ place.lt, getElem?_placed]
    congr 1
    funext sample
    have inside := place.inside
    have position := place.position
    rw [if_pos (by omega), position, Nat.add_sub_cancel_left]
  | succ more ih =>
    cases offsets with
    | nil => cases held
    | cons first rest =>
      rw [← Nat.add_assoc, Nat.add_right_comm] at place ⊢
      rw [laid, ih held place, getElem?_placed, Option.map_map]
      congr 1
      funext sample
      have later := place.le
      have := before_mono tables.samplesIn (Nat.le_add_right (chunk + 1) more)
      have := before_succ tables.samplesIn chunk
      rw [Function.comp_apply, if_neg (by omega)]

theorem placeChunks_iff {length runIndex : Nat} {run : ChunkRun}
    (small : length < 2 ^ 64) (increasing : (tables.stsc.map ChunkRun.firstChunk).Pairwise (· < ·))
    (offsets : List Nat) (held : tables.stsc[runIndex]? = some run)
    (starts : run.firstChunk ≤ chunk + 1) (start : before tables.samplesIn chunk ≤ samples.length) :
    tables.placeChunks length offsets chunk runIndex samples (before tables.samplesIn chunk) =
        .ok result ↔
      (∀ more offset, offsets[more]? = some offset →
        tables.Holds length offset (before tables.samplesIn (chunk + more))
          (tables.samplesIn (chunk + more))) ∧
      before tables.samplesIn (chunk + offsets.length) ≤ samples.length ∧
      result = (tables.laid offsets chunk samples,
        before tables.samplesIn (chunk + offsets.length)) := by
  induction offsets generalizing chunk runIndex run samples with
  | nil =>
    constructor
    · intro done
      cases done
      exact ⟨nofun, start, rfl⟩
    · rintro ⟨_, _, rfl⟩
      rfl
  | cons offset offsets ih =>
    have applies := advance_applies _ rfl held starts
    obtain ⟨run', held', starts', _⟩ := id applies
    have left : (tables.stsc[advance chunk (tables.stsc.drop (runIndex + 1)) runIndex]?.map
        ChunkRun.samplesPerChunk).getD 0 = tables.samplesIn chunk := by
      rw [held', applies.samplesIn increasing held']
      rfl
    have size : chunk + (offset :: offsets).length = chunk + 1 + offsets.length := by
      rw [length_cons, Nat.add_assoc, Nat.add_comm 1]
    have later (samples' : List Sample)
        (start : before tables.samplesIn (chunk + 1) ≤ samples'.length) :=
      ih held' (starts'.trans (Nat.le_succ _)) start
    rw [size]
    constructor
    · intro done
      rw [placeChunks, left] at done
      obtain ⟨_, here, done⟩ := bind_ok done
      obtain ⟨holds, within, rfl⟩ := (placeChunk_iff small start).mp here
      rw [← before_succ] at within done
      obtain ⟨rest, inside, rfl⟩ :=
        (later _ (by rwa [length_placed])).mp done
      rw [length_placed] at inside
      refine ⟨fun more offset' member => ?_, inside, rfl⟩
      cases more with
      | zero =>
        cases member
        exact holds
      | succ more =>
        rw [← Nat.add_assoc, Nat.add_right_comm]
        exact rest more offset' member
    · rintro ⟨holds, inside, rfl⟩
      have within : before tables.samplesIn (chunk + 1) ≤ samples.length :=
        (before_mono _ (Nat.le_add_right _ _)).trans inside
      have here : tables.Holds length offset (before tables.samplesIn chunk)
          (tables.samplesIn chunk) := holds 0 offset rfl
      rw [placeChunks, left, (placeChunk_iff small start).mpr
        ⟨here, by rwa [← before_succ], rfl⟩, ← before_succ]
      refine (later _ (by rwa [length_placed])).mpr
        ⟨fun more offset' member => ?_, by rwa [length_placed], rfl⟩
      have := holds (more + 1) offset' member
      rwa [← Nat.add_assoc, Nat.add_right_comm] at this

/-! The whole table. -/

/-- The table of consistent tables. -/
def made (tables : Tables) : Table :=
  let samples := tables.laid tables.stco 0 (tables.timedFrom tables.offsets 0 0 tables.deltas)
  { samples, stop := (samples.map Sample.endTime).foldl fmax 0 }

theorem placeAll_iff {length placed : Nat} (small : length < 2 ^ 64)
    (increasing : (tables.stsc.map ChunkRun.firstChunk).Pairwise (· < ·))
    (first : tables.stsc.head?.map ChunkRun.firstChunk = some 1)
    (sampled : samples.length = tables.sampleCount) {result : List Sample} :
    (tables.placeChunks length tables.stco 0 0 samples 0 = .ok (result, placed) ∧
        placed = tables.sampleCount) ↔
      (∀ chunk offset, tables.stco[chunk]? = some offset → tables.Holds length offset
        (before tables.samplesIn chunk) (tables.samplesIn chunk)) ∧
      before tables.samplesIn tables.stco.length = tables.sampleCount ∧
      placed = tables.sampleCount ∧ result = tables.laid tables.stco 0 samples := by
  rw [head?_eq_getElem?, map_eq_some_iff] at first
  obtain ⟨run, held, starts⟩ := first
  have none : before tables.samplesIn 0 ≤ samples.length := by
    exact Nat.zero_le _
  have walk : tables.placeChunks length tables.stco 0 0 samples (before tables.samplesIn 0) =
    .ok (result, placed) ↔ _ := placeChunks_iff small increasing tables.stco held starts.le none
  simp only [before_zero, Nat.zero_add, Prod.mk.injEq] at walk
  rw [walk, sampled]
  constructor
  · rintro ⟨⟨holds, _, rfl, total⟩, whole⟩
    exact ⟨holds, total.symm.trans whole, whole, rfl⟩
  · rintro ⟨holds, covered, whole, rfl⟩
    exact ⟨⟨holds, covered.le, rfl, whole.trans covered.symm⟩, whole⟩

variable {length : Nat}

theorem holds_iff (covered : before tables.samplesIn tables.stco.length = tables.sampleCount) :
    (∀ chunk offset, tables.stco[chunk]? = some offset → tables.Holds length offset
        (before tables.samplesIn chunk) (tables.samplesIn chunk)) ↔
      (∀ sample < tables.sampleCount, tables.Sized sample) ∧
      ∀ chunk offset, tables.stco[chunk]? = some offset → ∀ index < tables.samplesIn chunk,
        offset + tables.bytes (before tables.samplesIn chunk) (index + 1) ≤ length := by
  constructor
  · intro holds
    refine ⟨fun sample inside => ?_, fun chunk offset held index inside =>
      (holds chunk offset held index inside).2⟩
    obtain ⟨chunk, index, within, place⟩ := exists_at (covered ▸ inside)
    rw [place.position]
    exact (holds chunk _ (getElem?_eq_getElem within) index place.inside).1
  · rintro ⟨sized, extents⟩ chunk offset held index inside
    obtain ⟨within, _⟩ := List.getElem?_eq_some_iff.mp held
    have place : At tables.samplesIn chunk index (before tables.samplesIn chunk + index) :=
      ⟨inside, rfl⟩
    exact ⟨sized _ (covered ▸ place.within within), extents chunk offset held index inside⟩

theorem index_made {length : UInt64} {table : Table} : tables.index length = .ok table ↔
    tables.Consistent length.toNat ∧ table = tables.made := by
  have small : length.toNat < 2 ^ 64 := length.toNat_lt
  have sampled : (tables.timedFrom tables.offsets 0 0 tables.deltas).length =
      tables.sampleCount := by rw [length_timedFrom, length_deltas]
  constructor
  · intro done
    obtain ⟨count, counted, done⟩ := bind_ok done
    obtain ⟨times, total, few⟩ := (countRuns_iff (Nat.zero_le _)).mp counted
    rw [Nat.zero_add] at total
    change count = tables.sampleCount at total
    subst total
    obtain ⟨agree, done⟩ := guard_ok done
    simp only [not_or, not_not, not_and] at agree
    obtain ⟨some, _, first, sizes⟩ := agree
    obtain ⟨last, checked, done⟩ := bind_ok done
    obtain ⟨increasing, runs⟩ := checkRuns_iff.mp ⟨last, checked⟩
    obtain ⟨composition, filled, done⟩ := bind_ok done
    obtain ⟨composed, rfl⟩ := (compositions_iff few).mp filled
    obtain ⟨_, synced, done⟩ := bind_ok done
    rw [timeRuns_ok _ few] at done
    change (tables.placeChunks _ _ _ _ _ _ >>= _) = _ at done
    obtain ⟨⟨samples, placed⟩, walked, done⟩ := bind_ok done
    obtain ⟨whole, done⟩ := guard_ok done
    obtain ⟨holds, covered, _, rfl⟩ :=
      (placeAll_iff small increasing first sampled).mp ⟨walked, not_not.mp whole⟩
    obtain ⟨sized, extents⟩ := (holds_iff covered).mp holds
    cases done
    exact ⟨{
      times, some, few, sizes, sized, first, increasing, covered, composed, extents
      runs := fun run member => (runs run member).2
      synced := checkSyncs_iff.mp synced }, rfl⟩
  · rintro ⟨consistent, rfl⟩
    obtain ⟨times, some, few, sizes, sized, first, increasing, runs, covered, composed, synced,
      extents⟩ := consistent
    have present : tables.stco ≠ [] := by
      intro none
      rw [none] at covered
      exact some (covered.symm.trans (before_zero _))
    obtain ⟨last, checked⟩ := checkRuns_iff.mpr
      ⟨increasing, fun run member => ⟨firstChunk_pos increasing first member, runs run member⟩⟩
    have walked := ((placeAll_iff small increasing first sampled).mpr
      ⟨(holds_iff covered).mpr ⟨sized, extents⟩, covered, rfl, rfl⟩).1
    unfold index
    rw [(countRuns_iff (Nat.zero_le _)).mpr ⟨times, rfl, by rwa [Nat.zero_add]⟩, Nat.zero_add]
    change (if _ then _ else _) = _
    rw [if_neg (by simp only [not_or, not_not, not_and]; exact ⟨some, present, first, sizes⟩)]
    rw [checked]
    change (compositions tables.sampleCount tables.ctts >>= _) = _
    rw [(compositions_iff few).mpr ⟨composed, rfl⟩]
    change (checkSyncs tables.sampleCount tables.stss >>= _) = _
    rw [checkSyncs_iff.mpr synced]
    change (tables.timeRuns tables.offsets >>= _) = _
    rw [timeRuns_ok _ few]
    change (tables.placeChunks _ _ _ _ _ _ >>= _) = _
    rw [walked]
    exact if_neg (not_not.mpr rfl)

theorem length_offsets
    (composed : ∀ runs ∈ tables.ctts, (runs.map CompositionRun.count).sum = tables.sampleCount) :
    tables.offsets.length = tables.sampleCount := by
  unfold offsets
  cases held : tables.ctts with
  | none => exact length_replicate
  | some runs =>
    simp only [length_flatMap, length_replicate]
    exact composed runs held

theorem timed_sync (tables : Tables) (composition : List Int) (delta sample dts : Nat) :
    (tables.timed composition delta sample dts).sync = true ↔
      ∀ samples ∈ tables.stss, sample + 1 ∈ samples := by
  unfold timed
  cases tables.stss with
  | none => exact ⟨fun _ => nofun, fun _ => rfl⟩
  | some samples => simp

theorem made_described (consistent : tables.Consistent length) {position : Nat}
    {sample : Sample} (held : tables.made.samples[position]? = some sample) :
    tables.Described length position sample := by
  obtain ⟨inside, _⟩ := List.getElem?_eq_some_iff.mp held
  have sampled : tables.made.samples.length = tables.sampleCount := by
    rw [made, length_laid, length_timedFrom, length_deltas]
  rw [sampled] at inside
  have within := inside
  rw [← consistent.covered] at within
  obtain ⟨chunk, index, early, place⟩ := exists_at within
  obtain ⟨offset, chunked⟩ : ∃ offset, tables.stco[chunk]? = some offset :=
    ⟨_, getElem?_eq_getElem early⟩
  obtain ⟨delta', delta⟩ : ∃ delta, tables.deltas[position]? = some delta :=
    ⟨_, getElem?_eq_getElem (by rwa [length_deltas])⟩
  have extent := consistent.extents chunk offset chunked index place.inside
  rw [bytes, before_succ, ← place.position, ← Nat.add_assoc] at extent
  rw [← Nat.zero_add chunk] at place
  rw [made, laid_at chunked place, getElem?_timedFrom, delta] at held
  simp only [Nat.zero_add, map_some, Option.some.injEq] at place held
  subst held
  refine ⟨rfl, delta, ⟨tables.offsets.getD position 0, ?_, rfl⟩, rfl,
    timed_sync tables tables.offsets delta' position (tables.deltas.take position).sum, rfl,
    ⟨chunk, index, offset, place, chunked, rfl⟩, extent⟩
  rw [getD_eq_getElem?_getD, getElem?_eq_getElem
    (by rwa [length_offsets consistent.composed])]
  rfl

theorem made_indexed (consistent : tables.Consistent length) :
    tables.Indexed length tables.made where
  count := by rw [made, length_laid, length_timedFrom, length_deltas]
  samples _ _ held := made_described consistent held
  runs chunk _ := by
    have first := consistent.first
    rw [head?_eq_getElem?, map_eq_some_iff] at first
    obtain ⟨run, held, starts⟩ := first
    have applies : tables.Applies (advance chunk (tables.stsc.drop 1) 0) chunk :=
      advance_applies _ rfl held (by omega)
    obtain ⟨run', held', _⟩ := id applies
    refine ⟨_, run', held', applies.samplesIn consistent.increasing held', fun other => ⟨fun also =>
      applies.unique consistent.increasing also, ?_⟩⟩
    rintro rfl
    exact applies
  stop := rfl

theorem Described.unique {length position : Nat} {sample sample' : Sample}
    (one : tables.Described length position sample)
    (two : tables.Described length position sample') : sample = sample' := by
  obtain ⟨dts, delta, ⟨composition, composed, pts⟩, duration, sync, size, place, _⟩ := one
  obtain ⟨dts', delta', ⟨composition', composed', pts'⟩, duration', sync', size', place', _⟩ := two
  obtain ⟨chunk, index, start, at_one, held, offset⟩ := place
  obtain ⟨chunk', index', start', at_two, held', offset'⟩ := place'
  obtain ⟨rfl, rfl⟩ := at_one.unique at_two
  obtain rfl := Option.some.inj (held.symm.trans held')
  obtain rfl := Option.some.inj (composed.symm.trans composed')
  have delta := Option.some.inj (delta.symm.trans delta')
  have sync : sample.sync = sample'.sync := Bool.eq_iff_iff.mpr (sync.trans sync'.symm)
  cases sample
  cases sample'
  simp only at *
  subst_vars
  rfl

theorem Indexed.unique {table table' : Table}
    (one : tables.Indexed length table) (two : tables.Indexed length table') : table = table' := by
  have samples : table.samples = table'.samples := by
    apply ext_getElem?
    intro position
    by_cases inside : position < tables.sampleCount
    · have held := getElem?_eq_getElem (one.count.symm ▸ inside)
      have held' := getElem?_eq_getElem (two.count.symm ▸ inside)
      rw [held, held', (one.samples _ _ held).unique (two.samples _ _ held')]
    · rw [getElem?_eq_none (by have := one.count; omega),
        getElem?_eq_none (by have := two.count; omega)]
  have stop := one.stop.trans (samples ▸ two.stop.symm)
  cases table
  cases table'
  simp_all

theorem index_indexed {length : UInt64} {table : Table} : tables.index length = .ok table ↔
    tables.Consistent length.toNat ∧ tables.Indexed length.toNat table := by
  rw [index_made]
  refine and_congr_right fun consistent => ⟨?_, fun indexed =>
    indexed.unique (made_indexed consistent)⟩
  rintro rfl
  exact made_indexed consistent

end Tables

/-- A track is indexed exactly where it has consistent tables, and then its table is the one that
they describe. -/
theorem index_iff (track : MediaTrack) (movieTimescale : Option UInt64) (length : UInt64)
    (table : Table) : index track movieTimescale length = .ok table ↔
      ∃ tables, track.tables movieTimescale = .ok tables ∧ tables.Consistent length.toNat ∧
        tables.Indexed length.toNat table := by
  unfold index
  constructor
  · intro done
    obtain ⟨tables, read, done⟩ := bind_ok done
    exact ⟨tables, read, Tables.index_indexed.mp done⟩
  · rintro ⟨tables, read, both⟩
    rw [read]
    exact Tables.index_indexed.mpr both

end Chuzz.Video.Demux
