import Chuzz.Library.RunLength

/-! The preview of a sleeping tab: its pixels as runs of equal ones, and the loop that makes pixels
of them again. A failed assertion is `none`. -/
namespace Chuzz.Tabs.Preview
open Library.RunLength List Option

def previewTarget : Nat := 128 * 1024
def runLimit : Nat := 65535

/-- A buffer that never grows: what it holds fits what was allocated. -/
structure Bytes where
  bytes : List UInt8
  capacity : Nat
  within : bytes.length ≤ capacity

/-- `Bytes::new(Vec::with_capacity(n))`, for whatever the allocator gave. -/
def Bytes.empty (capacity : Nat) : Bytes := ⟨[], capacity, Nat.zero_le capacity⟩

def Bytes.extend (self : Bytes) (more : List UInt8) : Option Bytes :=
  if fits : self.bytes.length + more.length ≤ self.capacity then
    some ⟨self.bytes ++ more, self.capacity, by rwa [List.length_append]⟩
  else none

/-- A range of a slice; one outside panics. -/
def slice (bytes : List UInt8) (start stop : Nat) : Option (List UInt8) :=
  if start ≤ stop ∧ stop ≤ bytes.length then some (block bytes start (stop - start)) else none

def toLeBytes (value : Nat) : List UInt8 := [UInt8.ofNat value, UInt8.ofNat (value / 256)]

def fromLeBytes (low high : UInt8) : Nat := low.toNat + 256 * high.toNat

/-- The inner loop: how often the pixel at `index` is repeated. -/
def runFrom (pixels pixel : List UInt8) (index run : Nat) : Nat :=
  if run < runLimit ∧ index + (run + 1) * 4 ≤ pixels.length ∧
      slice pixels (index + run * 4) (index + (run + 1) * 4) = some pixel then
    runFrom pixels pixel index (run + 1)
  else run
termination_by runLimit - run

section
variable {pixels pixel : List UInt8} {index run : Nat}

theorem le_runFrom : run ≤ runFrom pixels pixel index run := by
  fun_induction runFrom pixels pixel index run with
  | case1 run more ih => omega
  | case2 run done => exact Nat.le_refl run

theorem runFrom_le (small : run ≤ runLimit) : runFrom pixels pixel index run ≤ runLimit := by
  fun_induction runFrom pixels pixel index run with
  | case1 run more ih => exact ih more.1
  | case2 run done => exact small

theorem slice_eq {start stop : Nat} {part : List UInt8} (found : slice pixels start stop = some part) :
    block pixels start (stop - start) = part := by
  rw [slice] at found
  split at found
  · exact Option.some.inj found
  · contradiction

theorem runFrom_same (same : ∀ step < run, block pixels (index + step * 4) 4 = pixel) :
    ∀ step < runFrom pixels pixel index run, block pixels (index + step * 4) 4 = pixel := by
  fun_induction runFrom pixels pixel index run with
  | case1 run more ih =>
    refine ih fun step before => ?_
    rcases Nat.lt_succ_iff_lt_or_eq.mp before with earlier | rfl
    · exact same step earlier
    · have here := slice_eq more.2.2
      rwa [show index + (step + 1) * 4 - (index + step * 4) = 4 by omega] at here
  | case2 run done => exact same

end

/-- The encoder loop of `capture_paint`, with where it stopped. -/
def encodeFrom (pixels : List UInt8) (index : Nat) (output : Bytes) : Option (Nat × Bytes) :=
  if more : index < pixels.length then do
    let pixel ← slice pixels index (index + 4)
    let run := runFrom pixels pixel index 1
    if output.bytes.length + 6 > previewTarget then pure (index, output)
    else do
      let output ← output.extend (toLeBytes run)
      let output ← output.extend pixel
      encodeFrom pixels (index + run * 4) output
  else pure (index, output)
termination_by pixels.length - index
decreasing_by
  have : 1 ≤ runFrom pixels pixel index 1 := le_runFrom
  omega

def encode (pixels : List UInt8) (capacity : Nat) : Option (Nat × Bytes) :=
  encodeFrom pixels 0 (Bytes.empty capacity)

/-- `as_chunks::<6>`, without the rest. -/
def asChunks : List UInt8 → List (List UInt8)
  | a :: b :: c :: d :: e :: f :: rest => [a, b, c, d, e, f] :: asChunks rest
  | _ => []

def Bytes.repeated (more : List UInt8) : Nat → Bytes → Option Bytes
  | 0, self => some self
  | count + 1, self => do
    let self ← self.extend more
    self.repeated more count

/-- The number of pixels of a run, and the pixel. -/
def readRun (run : List UInt8) : Nat × List UInt8 :=
  (fromLeBytes (run.getD 0 0) (run.getD 1 0), run.drop 2)

def decodeEach (length : Nat) : List (List UInt8) → Bytes → Option (Option Bytes)
  | [], decoded => some (if decoded.bytes.length ≠ length then none else some decoded)
  | run :: rest, decoded =>
    if decoded.bytes.length + (readRun run).1 * 4 > length then some none
    else do
      let decoded ← decoded.repeated (readRun run).2 (readRun run).1
      decodeEach length rest decoded

/-- The decoder of `show_preview`: the inner `none` is its refusal. -/
def decode (width height capacity : Nat) (encoded : List UInt8) : Option (Option Bytes) :=
  decodeEach (width * height * 4) (asChunks encoded) (Bytes.empty capacity)

section
variable {self : Bytes} {more : List UInt8} {count length : Nat}

theorem Bytes.extend_fits (self : Bytes) (more : List UInt8)
    (fits : self.bytes.length + more.length ≤ self.capacity) :
    ∃ longer, self.extend more = some longer ∧ longer.bytes = self.bytes ++ more ∧
      longer.capacity = self.capacity := by
  rw [extend, dif_pos fits]
  exact ⟨_, rfl, rfl, rfl⟩

theorem Bytes.repeated_fits (self : Bytes) (more : List UInt8) (count : Nat)
    (fits : self.bytes.length + count * more.length ≤ self.capacity) :
    ∃ longer, self.repeated more count = some longer ∧
      longer.bytes = self.bytes ++ (List.replicate count more).flatten ∧
      longer.capacity = self.capacity := by
  induction count generalizing self with
  | zero => exact ⟨self, rfl, by simp, rfl⟩
  | succ count ih =>
    rw [Nat.succ_mul] at fits
    obtain ⟨once, extended, bytes, capacity⟩ := Bytes.extend_fits self more (by omega)
    obtain ⟨longer, repeated, held, same⟩ := @ih once (by
      rw [bytes, capacity, length_append]
      omega)
    refine ⟨longer, by rw [Bytes.repeated, extended]; exact repeated, ?_, same.trans capacity⟩
    rw [held, bytes, append_assoc, replicate_succ, flatten_cons]

theorem asChunks_length {encoded run : List UInt8} (member : run ∈ asChunks encoded) :
    run.length = 6 := by
  fun_induction asChunks encoded with
  | case1 a b c d e f rest ih =>
    rcases mem_cons.mp member with rfl | later
    · rfl
    · exact ih later
  | case2 => contradiction

def runsOf (encoded : List UInt8) : List (Nat × List UInt8) := (asChunks encoded).map readRun

theorem runsOf_width {encoded : List UInt8} : ∀ run ∈ runsOf encoded, run.2.length = 4 := by
  intro run member
  obtain ⟨chunk, held, rfl⟩ := mem_map.mp member
  simp [readRun, asChunks_length held]

/-- The decoder never fails an assertion, and accepts just the runs that fill the picture. -/
theorem decodeEach_answers {runs : List (List UInt8)} (length : Nat) (decoded : Bytes)
    (chunks : ∀ run ∈ runs, run.length = 6) (room : length ≤ decoded.capacity)
    (within : decoded.bytes.length ≤ length) :
    ∃ answer, decodeEach length runs decoded = some answer ∧
      (answer.isSome ↔ decoded.bytes.length + ((runs.map readRun).map Prod.fst).sum * 4 = length) ∧
      ∀ pixels ∈ answer, pixels.bytes = decoded.bytes ++ expand (runs.map readRun) := by
  induction runs generalizing decoded with
  | nil =>
    refine ⟨_, rfl, by simp, fun pixels accepted => ?_⟩
    obtain ⟨_, rfl⟩ : decoded.bytes.length = length ∧ decoded = pixels := by simpa using accepted
    simp
  | cons run rest ih =>
    have pixel : (readRun run).2.length = 4 := by simp [readRun, chunks run mem_cons_self]
    simp only [decodeEach, map_cons, sum_cons, Nat.add_mul]
    split
    · refine ⟨none, rfl, ?_, nofun⟩
      simp only [isSome_none, Bool.false_eq_true, false_iff]
      omega
    · obtain ⟨longer, repeated, bytes, capacity⟩ := Bytes.repeated_fits decoded (readRun run).2
        (readRun run).1 (by rw [pixel]; omega)
      have size : longer.bytes.length = decoded.bytes.length + (readRun run).1 * 4 := by
        rw [bytes, length_append, length_replicate_flatten, pixel]
      obtain ⟨answer, answered, filled, held⟩ := ih longer
        (fun other member => chunks other (mem_cons_of_mem _ member))
        (by rwa [capacity]) (by omega)
      refine ⟨answer, by rw [repeated]; exact answered, ?_, fun pixels accepted => ?_⟩
      · rw [filled, size, Nat.add_assoc]
      · rw [held pixels accepted, bytes, append_assoc]
        rfl

end

def encodeRun (run : Nat × List UInt8) : List UInt8 := toLeBytes run.1 ++ run.2

/-- What the runs written so far say: the pixels before the index. -/
def Encodes (pixels : List UInt8) (index : Nat) (written : List UInt8) : Prop :=
  ∃ runs : List (Nat × List UInt8), written = runs.flatMap encodeRun ∧
    (∀ run ∈ runs, run.1 ≤ runLimit ∧ run.2.length = 4) ∧ expand runs = pixels.take index

theorem runsOf_encodeRun {runs : List (Nat × List UInt8)}
    (valid : ∀ run ∈ runs, run.1 ≤ runLimit ∧ run.2.length = 4) :
    runsOf (runs.flatMap encodeRun) = runs := by
  induction runs with
  | nil => rfl
  | cons run rest ih =>
    obtain ⟨count, pixel⟩ := run
    obtain ⟨small, four⟩ := valid _ mem_cons_self
    obtain ⟨a, b, c, d, rfl⟩ := length_eq_four.mp four
    have rested := ih fun other member => valid other (mem_cons_of_mem _ member)
    have back : fromLeBytes (UInt8.ofNat count) (UInt8.ofNat (count / 256)) = count := by
      simp only [fromLeBytes, UInt8.toNat_ofNat', runLimit] at small ⊢
      omega
    change (fromLeBytes (UInt8.ofNat count) (UInt8.ofNat (count / 256)), [a, b, c, d]) ::
      runsOf (rest.flatMap encodeRun) = _
    rw [back, rested]

theorem Encodes.extended {pixels written : List UInt8} {index : Nat}
    (encodes : Encodes pixels index written) (within : index + 4 ≤ pixels.length) :
    Encodes pixels (index + runFrom pixels (block pixels index 4) index 1 * 4)
      (written ++ toLeBytes (runFrom pixels (block pixels index 4) index 1) ++
        block pixels index 4) := by
  obtain ⟨runs, rfl, valid, expanded⟩ := encodes
  refine ⟨runs ++ [(runFrom pixels (block pixels index 4) index 1, block pixels index 4)],
    by simp [encodeRun], fun run member => ?_, ?_⟩
  · rcases mem_append.mp member with before | last
    · exact valid run before
    · obtain rfl := mem_singleton.mp last
      exact ⟨runFrom_le (by decide), length_block within⟩
  · have same := @runFrom_same pixels (block pixels index 4) index 1 fun step first => by simp [Nat.lt_one_iff.mp first]
    rw [expand_append, expanded, take_run same]
    simp

/-- The encoder never fails an assertion, and what it has written stands for the pixels before the
index it has come to. -/
theorem encodeFrom_encodes {pixels : List UInt8} (index : Nat) (output : Bytes)
    (whole : 4 ∣ pixels.length) (aligned : 4 ∣ index)
    (room : previewTarget ≤ output.capacity) (encodes : Encodes pixels index output.bytes) :
    ∃ stop written, encodeFrom pixels index output = some (stop, written) ∧
      Encodes pixels stop written.bytes := by
  induction left : pixels.length - index using Nat.strong_induction_on
    generalizing index output with
  | _ size ih =>
    rw [encodeFrom]
    by_cases more : index < pixels.length
    · have within : index + 4 ≤ pixels.length := by omega
      have pixel : slice pixels index (index + 4) = some (block pixels index 4) := by
        rw [slice, if_pos ⟨by omega, within⟩, Nat.add_sub_cancel_left]
      have run : 1 ≤ runFrom pixels (block pixels index 4) index 1 := le_runFrom
      rw [dif_pos more, pixel]
      simp only [bind_eq_bind, bind_some]
      split
      · exact ⟨index, output, rfl, encodes⟩
      · obtain ⟨counted, first, bytes, capacity⟩ := Bytes.extend_fits output
          (toLeBytes (runFrom pixels (block pixels index 4) index 1)) (by simp only [toLeBytes, length_cons, length_nil]; omega)
        obtain ⟨longer, second, held, same⟩ := Bytes.extend_fits counted
          (block pixels index 4) (by
            rw [bytes, capacity, length_append, length_block within]
            simp only [toLeBytes, length_cons, length_nil]
            omega)
        rw [first, bind_some, second, bind_some]
        refine ih _ (by omega) _ longer (by omega) (by omega) ?_ rfl
        rw [held, bytes]
        exact encodes.extended within
    · rw [dif_neg more]
      exact ⟨index, output, rfl, encodes⟩

/-- A picture that was encoded whole is decoded to the same pixels. No assertion of the two loops
ever fails, and a picture is only accepted from runs that fill it. The capacities are what the
allocator gave, at least what was asked for. -/
theorem preview_round_trip (width height : Nat) (capacity : Nat)
    (room : width * height * 4 ≤ capacity) :
    (∀ (pixels : List UInt8) (target : Nat), pixels.length = width * height * 4 →
      previewTarget ≤ target → ∃ index output, encode pixels target = some (index, output) ∧
        (index = pixels.length → ∃ decoded : Bytes,
          decode width height capacity output.bytes = some (some decoded) ∧
            decoded.bytes = pixels)) ∧
    ∀ encoded : List UInt8, ∃ answer, decode width height capacity encoded = some answer ∧
      (answer.isSome → ((runsOf encoded).map Prod.fst).sum = width * height) := by
  have answers : ∀ encoded : List UInt8, ∃ answer,
      decode width height capacity encoded = some answer ∧
      (answer.isSome ↔ ((runsOf encoded).map Prod.fst).sum * 4 = width * height * 4) ∧
      ∀ pixels ∈ answer, pixels.bytes = expand (runsOf encoded) := by
    intro encoded
    obtain ⟨answer, answered, filled, held⟩ := decodeEach_answers (width * height * 4)
      (Bytes.empty capacity) (fun run member => asChunks_length member) room
      (Nat.zero_le _)
    exact ⟨answer, answered, by simpa [Bytes.empty, runsOf] using filled,
      by simpa [Bytes.empty, runsOf] using held⟩
  refine ⟨fun pixels target size asked => ?_, fun encoded => ?_⟩
  · obtain ⟨index, output, stopped, runs, bytes, valid, expanded⟩ :=
      encodeFrom_encodes 0 (Bytes.empty target) ⟨width * height, by rw [size, Nat.mul_comm]⟩
        ⟨0, rfl⟩ asked ⟨[], rfl, nofun, by simp⟩
    refine ⟨index, output, stopped, fun whole => ?_⟩
    subst whole
    have read : runsOf output.bytes = runs := by rw [bytes, runsOf_encodeRun valid]
    have expanded : expand (runsOf output.bytes) = pixels := by
      rw [read, expanded, take_length]
    obtain ⟨answer, answered, filled, held⟩ := answers output.bytes
    have full : answer.isSome := filled.mpr (by
      rw [← length_expand runsOf_width, expanded, size])
    obtain ⟨decoded, rfl⟩ := isSome_iff_exists.mp full
    exact ⟨decoded, answered, by rw [held decoded rfl, expanded]⟩
  · obtain ⟨answer, answered, filled, _⟩ := answers encoded
    exact ⟨answer, answered, fun accepted => by have := filled.mp accepted; omega⟩

/-- One pixel twice. -/
theorem preview_round_trip_twice :
    ∃ output, encode [1, 2, 3, 4, 1, 2, 3, 4] previewTarget = some (8, output) ∧
      ∃ decoded : Bytes, decode 2 1 8 output.bytes = some (some decoded) ∧
        decoded.bytes = [1, 2, 3, 4, 1, 2, 3, 4] := by
  have run : runFrom [1, 2, 3, 4, 1, 2, 3, 4] [1, 2, 3, 4] 0 1 = 2 := by
    rw [runFrom, if_pos (by decide), runFrom, if_neg (by decide)]
  have pixel : slice [1, 2, 3, 4, 1, 2, 3, 4] 0 (0 + 4) = some [1, 2, 3, 4] := by decide
  have stop (output : Bytes) :
      encodeFrom [1, 2, 3, 4, 1, 2, 3, 4] (0 + 2 * 4) output = some (8, output) := by
    rw [encodeFrom, dif_neg (by decide)]
    rfl
  have encoded : encode [1, 2, 3, 4, 1, 2, 3, 4] previewTarget =
      some (8, ⟨[2, 0, 1, 2, 3, 4], previewTarget, by decide⟩) := by
    rw [encode, encodeFrom, dif_pos (by decide), pixel]
    simp only [bind_eq_bind, bind_some, run, stop]
    rfl
  obtain ⟨index, output, encoded', decodes⟩ :=
    (preview_round_trip 2 1 8 (by decide)).1 [1, 2, 3, 4, 1, 2, 3, 4] previewTarget rfl le_rfl
  obtain ⟨rfl, rfl⟩ := Prod.mk.inj (Option.some.inj (encoded'.symm.trans encoded))
  exact ⟨_, encoded, decodes rfl⟩

end Chuzz.Tabs.Preview
