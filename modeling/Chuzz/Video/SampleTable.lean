import Chuzz.Video.Demux

/-! The sample table that `index` makes against the tables of the file: which tables it accepts, and
what it says of every sample. -/
namespace Chuzz.Video.Demux
open Library Library.Fallible Library.Layout List

namespace Tables

/-- The deltas of the samples, run by run. -/
def deltas (tables : Tables) : List Nat :=
  tables.stts.flatMap fun run => List.replicate run.count run.delta

def sampleCount (tables : Tables) : Nat := (tables.stts.map TimeRun.count).sum

/-- The composition offsets of the samples, run by run. -/
def offsets (tables : Tables) : List Int :=
  match tables.ctts with
  | none => List.replicate tables.sampleCount 0
  | some runs => runs.flatMap fun run => List.replicate run.count run.offset.value

def sizeAt (tables : Tables) (sample : Nat) : Nat :=
  if tables.stsz.sampleSize = 0 then tables.stsz.sampleSizes.getD sample 0
  else tables.stsz.sampleSize

/-- A run applies from its first chunk to that of the next run. Chunks are counted from zero
here, and from one in the table. -/
def Applies (tables : Tables) (place chunk : Nat) : Prop :=
  ∃ run, tables.stsc[place]? = some run ∧ run.firstChunk ≤ chunk + 1 ∧
    ∀ next, tables.stsc[place + 1]? = some next → chunk + 1 < next.firstChunk

/-- How many samples a chunk has, by the last run that starts before its end. -/
def samplesIn (tables : Tables) (chunk : Nat) : Nat :=
  ((tables.stsc.filter (·.firstChunk ≤ chunk + 1)).getLast?.map ChunkRun.samplesPerChunk).getD 0

/-- The bytes of `count` samples from `first` on. -/
def bytes (tables : Tables) (first count : Nat) : Nat :=
  before (fun sample => tables.sizeAt (first + sample)) count

/-- Tables that agree with each other and with the file, within the limits. -/
structure Consistent (tables : Tables) (length : Nat) : Prop where
  times : ∀ run ∈ tables.stts, run.count ≠ 0 ∧ run.delta ≠ 0
  some : tables.sampleCount ≠ 0
  few : tables.sampleCount ≤ maxSamples
  sizes : tables.stsz.sampleSize = 0 → tables.stsz.sampleSizes.length = tables.sampleCount
  sized : ∀ sample < tables.sampleCount,
    tables.sizeAt sample ≠ 0 ∧ tables.sizeAt sample ≤ maxSampleBytes
  first : tables.stsc.head?.map ChunkRun.firstChunk = Option.some 1
  increasing : (tables.stsc.map ChunkRun.firstChunk).Pairwise (· < ·)
  runs : ∀ run ∈ tables.stsc, run.firstChunk ≤ tables.stco.length ∧ run.samplesPerChunk ≠ 0 ∧
    run.descriptionIndex = 1
  covered : before tables.samplesIn tables.stco.length = tables.sampleCount
  composed : ∀ runs ∈ tables.ctts, (runs.map CompositionRun.count).sum = tables.sampleCount
  synced : ∀ samples ∈ tables.stss,
    samples.Pairwise (· < ·) ∧ ∀ sample ∈ samples, 0 < sample ∧ sample ≤ tables.sampleCount
  extents : ∀ chunk offset, tables.stco[chunk]? = Option.some offset →
    ∀ index < tables.samplesIn chunk,
      offset + tables.bytes (before tables.samplesIn chunk) (index + 1) ≤ length

/-- What the tables say of one sample. -/
structure Described (tables : Tables) (length position : Nat) (sample : Sample) : Prop where
  dts : sample.dts = (tables.deltas.take position).sum
  delta : tables.deltas[position]? = some sample.delta
  pts : ∃ composition, tables.offsets[position]? = some composition ∧
    sample.pts = (asF64 sample.dts + asF64 composition) / tables.scale + tables.empty -
      tables.mediaTime
  duration : sample.duration = asF64 sample.delta / tables.scale
  sync : sample.sync = true ↔ ∀ samples ∈ tables.stss, position + 1 ∈ samples
  size : sample.size = tables.sizeAt position
  place : ∃ chunk index offset, At tables.samplesIn chunk index position ∧
    tables.stco[chunk]? = some offset ∧
    sample.offset = offset + tables.bytes (before tables.samplesIn chunk) index
  extent : sample.offset + sample.size ≤ length

/-- The whole table; every chunk has exactly one run. -/
structure Indexed (tables : Tables) (length : Nat) (table : Table) : Prop where
  count : table.samples.length = tables.sampleCount
  samples : ∀ position sample, table.samples[position]? = some sample →
    tables.Described length position sample
  runs : ∀ chunk < tables.stco.length, ∃ place run, tables.stsc[place]? = some run ∧
    tables.samplesIn chunk = run.samplesPerChunk ∧
    ∀ other, tables.Applies other chunk ↔ other = place
  stop : table.stop = (table.samples.map Sample.endTime).foldl fmax 0

/-! Times. -/

theorem countRuns_iff {runs : List TimeRun} {count total : Nat} (few : count ≤ maxSamples) :
    runs.foldlM countRun count = .ok total ↔ (∀ run ∈ runs, run.count ≠ 0 ∧ run.delta ≠ 0) ∧
      total = count + (runs.map TimeRun.count).sum ∧ total ≤ maxSamples := by
  induction runs generalizing count with
  | nil =>
    constructor
    · intro done
      cases done
      exact ⟨fun _ member => absurd member not_mem_nil, rfl, few⟩
    · rintro ⟨_, rfl, _⟩
      rfl
  | cons run rest ih =>
    rw [foldlM_cons, forall_mem_cons, map_cons, sum_cons]
    constructor
    · intro done
      obtain ⟨next, here, done⟩ := bind_ok done
      obtain ⟨valid, here⟩ := guard_ok here
      obtain ⟨inside, here⟩ := guard_ok here
      cases here
      obtain ⟨each, rfl, small⟩ := (ih (not_lt.mp inside)).mp done
      obtain ⟨delta, count⟩ := not_or.mp valid
      exact ⟨⟨⟨count, delta⟩, each⟩, by rw [Nat.add_assoc], small⟩
    · rintro ⟨⟨⟨count', delta⟩, each⟩, rfl, small⟩
      have here : countRun count run = .ok (count + run.count) := by
        rw [countRun, if_neg (not_or.mpr ⟨delta, count'⟩), if_neg (by omega)]
      rw [here]
      exact (ih (by omega)).mpr ⟨each, by rw [Nat.add_assoc], small⟩

theorem length_deltas (tables : Tables) : tables.deltas.length = tables.sampleCount := by
  simp only [deltas, length_flatMap, length_replicate, sampleCount]

theorem delta_small (tables : Tables) {delta : Nat} (member : delta ∈ tables.deltas) :
    delta < 2 ^ 32 := by
  obtain ⟨run, _, inside⟩ := mem_flatMap.mp member
  rw [eq_of_mem_replicate inside]
  exact run.small

theorem sum_le_of_small {numbers : List Nat} {bound : Nat}
    (small : ∀ number ∈ numbers, number < bound) : numbers.sum ≤ numbers.length * bound := by
  induction numbers with
  | nil => simp
  | cons number rest ih =>
    obtain ⟨here, later⟩ := forall_mem_cons.mp small
    rw [sum_cons, length_cons, Nat.succ_mul]
    have := ih later
    omega

variable {tables : Tables}

theorem sum_deltas_lt (few : tables.sampleCount ≤ maxSamples) : tables.deltas.sum < 2 ^ 64 := by
  have bound := sum_le_of_small fun _ member => delta_small tables member
  rw [length_deltas] at bound
  have : maxSamples * 2 ^ 32 < 2 ^ 64 := by decide
  omega

/-- The samples of these deltas, from the number and the time of the first. -/
def timedFrom (tables : Tables) (composition : List Int) : (sample dts : Nat) → List Nat →
    List Sample
  | _, _, [] => []
  | sample, dts, delta :: rest =>
    tables.timed composition delta sample dts :: timedFrom tables composition (sample + 1)
      (dts + delta) rest

theorem length_timedFrom (tables : Tables) (composition : List Int) (sample dts : Nat)
    (deltas : List Nat) : (tables.timedFrom composition sample dts deltas).length = deltas.length := by
  induction deltas generalizing sample dts with
  | nil => rfl
  | cons delta rest ih => rw [timedFrom, length_cons, ih, length_cons]

theorem getElem?_timedFrom (tables : Tables) (composition : List Int) (sample dts position : Nat)
    (deltas : List Nat) : (tables.timedFrom composition sample dts deltas)[position]? =
      deltas[position]?.map fun delta => tables.timed composition delta (sample + position)
        (dts + (deltas.take position).sum) := by
  induction deltas generalizing sample dts position with
  | nil => rfl
  | cons delta rest ih =>
    cases position with
    | zero => rfl
    | succ position =>
      rw [timedFrom, getElem?_cons_succ, ih, getElem?_cons_succ, take_succ_cons,
        sum_cons, Nat.add_assoc dts, Nat.add_right_comm sample, Nat.add_assoc sample]

theorem pushes_ok (tables : Tables) (composition : List Int) (samples : List Sample) (dts : Nat)
    (deltas : List Nat) (small : dts + deltas.sum < 2 ^ 64) :
    deltas.foldlM (tables.push composition) (samples, dts) =
      .ok (samples ++ tables.timedFrom composition samples.length dts deltas, dts + deltas.sum) := by
  induction deltas generalizing samples dts with
  | nil =>
    rw [timedFrom, append_nil]
    rfl
  | cons delta rest ih =>
    rw [sum_cons] at small
    have here : tables.push composition (samples, dts) delta =
        .ok (samples ++ [tables.timed composition delta samples.length dts], dts + delta) :=
      if_neg (by dsimp only; omega)
    rw [foldlM_cons, here]
    change foldlM (tables.push composition) _ rest = _
    rw [ih _ _ (by omega), length_append, length_singleton, append_assoc,
      singleton_append, timedFrom, sum_cons, Nat.add_assoc]

theorem foldlM_flatMap {A B C : Type} (items : List A) (pieces : A → List B)
    (step : C → B → Except MediaError C) (state : C) :
    items.foldlM (fun state item => (pieces item).foldlM step state) state =
      (items.flatMap pieces).foldlM step state := by
  induction items generalizing state with
  | nil => rfl
  | cons item rest ih =>
    rw [foldlM_cons, flatMap_cons, foldlM_append]
    exact congrArg _ (funext ih)

theorem timeRuns_ok (composition : List Int)
    (few : tables.sampleCount ≤ maxSamples) : tables.timeRuns composition =
      .ok (tables.timedFrom composition 0 0 tables.deltas, tables.deltas.sum) := by
  have done := pushes_ok tables composition [] 0 tables.deltas
    (by rw [Nat.zero_add]; exact sum_deltas_lt few)
  rw [nil_append, Nat.zero_add] at done
  rw [timeRuns, foldlM_flatMap]
  exact done

/-! Checks and composition offsets. -/

theorem ascending_iff {A : Type} {step : Nat → A → Except MediaError Nat} {key : A → Nat}
    {valid : A → Prop}
    (each : ∀ previous item after, step previous item = .ok after ↔
      previous < key item ∧ valid item ∧ after = key item) (items : List A) (previous : Nat) :
    (∃ last, items.foldlM step previous = .ok last) ↔ (items.map key).Pairwise (· < ·) ∧
      ∀ item ∈ items, previous < key item ∧ valid item := by
  induction items generalizing previous with
  | nil => exact ⟨fun _ => ⟨.nil, fun _ member => absurd member not_mem_nil⟩, fun _ => ⟨_, rfl⟩⟩
  | cons item rest ih =>
    rw [map_cons, pairwise_cons, forall_mem_cons]
    simp only [foldlM_cons]
    constructor
    · rintro ⟨last, done⟩
      obtain ⟨next, here, done⟩ := bind_ok done
      obtain ⟨above, holds, rfl⟩ := (each _ _ _).mp here
      obtain ⟨ascending, later⟩ := (ih _).mp ⟨last, done⟩
      refine ⟨⟨fun number member => ?_, ascending⟩, ⟨above, holds⟩, fun other member => ?_⟩
      · obtain ⟨other, inside, rfl⟩ := mem_map.mp member
        exact (later other inside).1
      · exact ⟨above.trans (later other member).1, (later other member).2⟩
    · rintro ⟨⟨least, ascending⟩, ⟨above, holds⟩, later⟩
      rw [(each _ _ _).mpr ⟨above, holds, rfl⟩]
      exact (ih _).mpr ⟨ascending, fun other member =>
        ⟨least _ (mem_map_of_mem member), (later other member).2⟩⟩

theorem checkRuns_iff {chunks : Nat} {runs : List ChunkRun} :
    (∃ last, runs.foldlM (checkRun chunks) 0 = .ok last) ↔
      (runs.map ChunkRun.firstChunk).Pairwise (· < ·) ∧ ∀ run ∈ runs, 0 < run.firstChunk ∧
        run.firstChunk ≤ chunks ∧ run.samplesPerChunk ≠ 0 ∧ run.descriptionIndex = 1 := by
  refine ascending_iff (fun previous run after => ?_) runs 0
  constructor
  · intro passed
    obtain ⟨valid, passed⟩ := guard_ok passed
    simp only [not_or, not_le, not_lt, not_not] at valid
    cases passed
    exact ⟨valid.1, valid.2, rfl⟩
  · rintro ⟨above, ⟨inside, more, single⟩, rfl⟩
    exact if_neg (by simp only [not_or, not_le, not_lt, not_not]; exact ⟨above, inside, more, single⟩)

theorem checkSyncs_iff {count : Nat} {stss : Option (List Nat)} :
    checkSyncs count stss = .ok () ↔ ∀ samples ∈ stss,
      samples.Pairwise (· < ·) ∧ ∀ sample ∈ samples, 0 < sample ∧ sample ≤ count := by
  have each : ∀ previous sample after, checkSync count previous sample = .ok after ↔
      previous < id sample ∧ sample ≤ count ∧ after = id sample := by
    intro previous sample after
    constructor
    · intro passed
      obtain ⟨valid, passed⟩ := guard_ok passed
      rw [not_or, not_le, not_lt] at valid
      cases passed
      exact ⟨valid.1, valid.2, rfl⟩
    · rintro ⟨above, inside, rfl⟩
      exact if_neg (by rw [not_or, not_le, not_lt]; exact ⟨above, inside⟩)
  cases stss with
  | none => exact ⟨fun _ => nofun, fun _ => rfl⟩
  | some samples =>
    have all := ascending_iff each samples 0
    rw [map_id] at all
    simp only [Option.mem_def, Option.some.injEq, forall_eq']
    refine Iff.trans ⟨fun passed => ?_, ?_⟩ all
    · obtain ⟨last, passed, _⟩ := bind_ok passed
      exact ⟨last, passed⟩
    · rintro ⟨last, passed⟩
      rw [checkSyncs, passed]
      rfl

/-- The fill of the composition offsets, of which `done` are set and `left` are not. -/
theorem composeRuns_iff (runs : List CompositionRun) (done composition : List Int)
    (left cursor : Nat) (few : done.length + left ≤ maxSamples) :
    runs.foldlM composeRun (done ++ List.replicate left 0, done.length) =
        .ok (composition, cursor) ↔
      (runs.map CompositionRun.count).sum ≤ left ∧
        cursor = done.length + (runs.map CompositionRun.count).sum ∧
        composition = done ++ (runs.flatMap fun run =>
          List.replicate run.count run.offset.value) ++
            List.replicate (left - (runs.map CompositionRun.count).sum) 0 := by
  induction runs generalizing done left with
  | nil =>
    simp only [foldlM_nil, map_nil, sum_nil, flatMap_nil, append_nil,
      Nat.sub_zero, Nat.add_zero]
    constructor
    · intro same
      cases same
      exact ⟨Nat.zero_le _, rfl, rfl⟩
    · rintro ⟨_, rfl, rfl⟩
      rfl
  | cons run rest ih =>
    have size : (done ++ List.replicate left (0 : Int)).length = done.length + left := by
      rw [length_append, length_replicate]
    rw [foldlM_cons, map_cons, sum_cons, flatMap_cons]
    by_cases fits : run.count ≤ left
    · have here : composeRun (done ++ List.replicate left 0, done.length) run =
          .ok ((done ++ List.replicate run.count run.offset.value) ++
            List.replicate (left - run.count) 0,
            (done ++ List.replicate run.count run.offset.value).length) := by
        have : maxSamples < 2 ^ 64 := by decide
        unfold composeRun
        dsimp only
        rw [if_neg (by omega), if_neg (by omega), take_left, drop_append,
          drop_eq_nil_of_le (by omega), nil_append, drop_replicate]
        rw [length_append, length_replicate]
        congr 4
        omega
      rw [here]
      have next := ih (done ++ List.replicate run.count run.offset.value) (left - run.count)
        (by rw [length_append, length_replicate]; omega)
      refine Iff.trans next ?_
      rw [length_append, length_replicate, append_assoc, append_assoc,
        append_assoc, append_assoc, Nat.sub_sub, Nat.add_assoc]
      refine and_congr ?_ Iff.rfl
      omega
    · constructor
      · intro passed
        obtain ⟨next, here, _⟩ := bind_ok passed
        unfold composeRun at here
        obtain ⟨_, here⟩ := guard_ok here
        obtain ⟨inside, _⟩ := guard_ok here
        omega
      · rintro ⟨fits', _⟩
        omega

theorem compositions_iff {composition : List Int} (few : tables.sampleCount ≤ maxSamples) :
    compositions tables.sampleCount tables.ctts = .ok composition ↔
      (∀ runs ∈ tables.ctts, (runs.map CompositionRun.count).sum = tables.sampleCount) ∧
        composition = tables.offsets := by
  unfold compositions offsets
  cases tables.ctts with
  | none =>
    constructor
    · intro same
      cases same
      exact ⟨nofun, rfl⟩
    · rintro ⟨_, rfl⟩
      rfl
  | some runs =>
    have fill := fun composition cursor => composeRuns_iff runs [] composition
      tables.sampleCount cursor (by rw [length_nil, Nat.zero_add]; exact few)
    simp only [nil_append, length_nil, Nat.zero_add] at fill
    constructor
    · intro passed
      obtain ⟨⟨composition', cursor⟩, filled, passed⟩ := bind_ok passed
      obtain ⟨whole, passed⟩ := guard_ok passed
      cases passed
      obtain ⟨_, rfl, rfl⟩ := (fill _ _).mp filled
      have whole := not_not.mp whole
      refine ⟨fun _ held => by cases held; exact whole, ?_⟩
      rw [whole, Nat.sub_self, replicate_zero, append_nil]
    · rintro ⟨total, rfl⟩
      have total := total runs rfl
      have filled := (fill _ _).mpr ⟨total.le, rfl, rfl⟩
      rw [total, Nat.sub_self, replicate_zero, append_nil] at filled
      dsimp only
      rw [filled]
      exact if_neg (not_not.mpr rfl)

end Tables
end Chuzz.Video.Demux
