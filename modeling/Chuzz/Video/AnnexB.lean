import Chuzz.Video.Writing

/-! Transcoding an MP4 access unit to Annex B: the length in front of each NAL unit is replaced
by a start code. A sample is a slice, and no slice is longer than `isize::MAX`. -/
namespace Chuzz.Video
open Library.Fallible List

/-- The bytes of a slice. -/
abbrev Slice := { bytes : Bytes // bytes.length < 2 ^ 63 }

/-- `bytes.get(start..stop)` -/
def getRange (bytes : Bytes) (start stop : Nat) : Option Bytes :=
  if start ≤ stop ∧ stop ≤ bytes.length then some (slice bytes start stop) else none

/-- The value of a length field, its highest byte first. -/
def nalLength (field : Bytes) : Nat :=
  field.foldl (fun length byte => (length <<< 8) ||| byte.toNat) 0

/-- What is asked of a NAL unit: its header is there and its forbidden bit is clear. -/
structure IsNal (nal : Bytes) : Prop where
  present : nal ≠ []
  header : nal.headD 0 &&& 0x80 = 0

instance (nal : Bytes) : Decidable (IsNal nal) :=
  decidable_of_iff (nal ≠ [] ∧ nal.headD 0 &&& 0x80 = 0)
    ⟨fun ⟨present, header⟩ => ⟨present, header⟩, fun nal => ⟨nal.present, nal.header⟩⟩

/-- The NAL unit at `position` and the position behind it. -/
def nalAt (sample : Bytes) (lengthSize position : Nat) : Except MediaError (Bytes × Nat) := do
  let some field := getRange sample position (position + lengthSize)
    | throw (.decode "truncated H.264 NAL length")
  let position := position + lengthSize
  let stop ← checkedAdd position (nalLength field) "H.264 NAL length overflow"
  let some nal := (getRange sample position stop).filter fun nal => decide (IsNal nal)
    | throw (.decode "invalid H.264 NAL extent or header")
  return (nal, stop)

def startCode : Bytes := [0, 0, 0, 1]

/-- A NAL unit behind its length. -/
def prefixed (lengthSize : Nat) (nal : Bytes) : Bytes := be lengthSize nal.length ++ nal

/-- NAL units that length fields of the size can announce. -/
def Announceable (lengthSize : Nat) (nals : List Bytes) : Prop :=
  ∀ nal ∈ nals, IsNal nal ∧ nal.length < 256 ^ lengthSize

theorem getRange_some {bytes found : Bytes} {start stop : Nat} :
    getRange bytes start stop = some found ↔
      ∃ before after, bytes = before ++ (found ++ after) ∧
        before.length = start ∧ start + found.length = stop := by
  unfold getRange slice
  constructor
  · intro read
    split at read
    · rename_i within
      cases read
      refine ⟨bytes.take start, (bytes.drop start).drop (stop - start), ?_, ?_, ?_⟩
      · rw [take_append_drop, take_append_drop]
      · rw [length_take]
        omega
      · rw [length_take, length_drop]
        omega
    · cases read
  · rintro ⟨before, after, rfl, rfl, rfl⟩
    simp

theorem nalLength_eq (field : Bytes) : nalLength field = bigEndian field := by
  unfold nalLength bigEndian
  congr 1
  funext length byte
  have small : byte.toNat < 2 ^ 8 := byte.toNat_lt
  rw [Nat.shiftLeft_eq, Nat.mul_comm, ← Nat.two_pow_add_eq_or_of_lt small, Nat.mul_comm]

theorem bigEndian_lt (field : Bytes) : bigEndian field < 256 ^ field.length := by
  induction field with
  | nil => simp [bigEndian]
  | cons byte rest ih =>
    have small : byte.toNat + 1 ≤ 256 := byte.toNat_lt
    rw [bigEndian_cons, length_cons, Nat.pow_succ, Nat.mul_comm (256 ^ rest.length)]
    calc byte.toNat * 256 ^ rest.length + bigEndian rest
        < (byte.toNat + 1) * 256 ^ rest.length := by rw [Nat.succ_mul]; omega
      _ ≤ 256 * 256 ^ rest.length := Nat.mul_le_mul_right _ small

theorem be_low (count high low : Nat) : be count (high * 256 ^ count + low) = be count low := by
  induction count generalizing high with
  | zero => rfl
  | succ count ih =>
    have shifted : high * 256 ^ (count + 1) + low = 256 ^ count * (high * 256) + low := by
      ring
    have byte : ((high * 256 ^ (count + 1) + low) / 256 ^ count).toUInt8 =
        (low / 256 ^ count).toUInt8 := by
      rw [shifted, Nat.mul_add_div (Nat.pow_pos (by decide))]
      apply UInt8.toNat_inj.mp
      simp
    rw [be, byte, shifted, Nat.mul_comm (256 ^ count), ih]
    rfl

theorem be_bigEndian (field : Bytes) : be field.length (bigEndian field) = field := by
  induction field with
  | nil => rfl
  | cons byte rest ih =>
    have high : bigEndian (byte :: rest) / 256 ^ rest.length = byte.toNat := by
      rw [bigEndian_cons, Nat.mul_comm, Nat.mul_add_div (Nat.pow_pos (by decide)),
        Nat.div_eq_of_lt (bigEndian_lt rest), Nat.add_zero]
    rw [length_cons, be, high, bigEndian_cons, be_low, ih]
    simp

theorem nalAt_ok {sample nal : Bytes} {lengthSize position stop : Nat}
    (short : sample.length < 2 ^ 63) :
    nalAt sample lengthSize position = .ok (nal, stop) ↔
      (IsNal nal ∧ nal.length < 256 ^ lengthSize) ∧ ∃ before after,
        sample = before ++ (prefixed lengthSize nal ++ after) ∧ before.length = position ∧
          stop = position + (prefixed lengthSize nal).length := by
  unfold nalAt
  constructor
  · intro read
    cases taken : getRange sample position (position + lengthSize) with
    | none =>
      rw [taken] at read
      cases read
    | some field =>
      rw [taken] at read
      obtain ⟨next, added, read⟩ := bind_ok read
      unfold checkedAdd at added
      split at added
      · cases added
        cases found : (getRange sample (position + lengthSize)
            (position + lengthSize + nalLength field)).filter fun nal => decide (IsNal nal) with
        | none =>
          rw [found] at read
          cases read
        | some unit =>
          rw [found] at read
          cases read
          obtain ⟨inside, valid⟩ := Option.filter_eq_some_iff.mp found
          obtain ⟨before, after, whole, start, size⟩ := getRange_some.mp taken
          obtain ⟨front, rest, same, middle, stop⟩ := getRange_some.mp inside
          have size : field.length = lengthSize := by omega
          have stop : nal.length = bigEndian field := by
            rw [nalLength_eq] at stop
            omega
          have split : front = before ++ field := by
            apply (append_inj (same.symm.trans _) _).1
            · exact after
            · rw [whole, append_assoc]
            · rw [length_append]
              omega
          subst split
          refine ⟨⟨of_decide_eq_true valid, ?_⟩, before, rest, ?_, start, ?_⟩
          · rw [stop, ← size]
            exact bigEndian_lt field
          · rw [prefixed, stop, ← size, be_bigEndian, same, append_assoc, append_assoc]
          · rw [prefixed, length_append, be_length, nalLength_eq, stop]
            omega
      · cases added
  · rintro ⟨⟨valid, small⟩, before, after, rfl, rfl, rfl⟩
    have taken : getRange (before ++ (prefixed lengthSize nal ++ after)) before.length
        (before.length + lengthSize) = some (be lengthSize nal.length) := by
      refine getRange_some.mpr ⟨before, nal ++ after, ?_, rfl, by rw [be_length]⟩
      rw [prefixed, append_assoc]
    have value : nalLength (be lengthSize nal.length) = nal.length := by
      rw [nalLength_eq, bigEndian_be, Nat.mod_eq_of_lt small]
    have found : getRange (before ++ (prefixed lengthSize nal ++ after))
        (before.length + lengthSize) (before.length + lengthSize + nal.length) = some nal := by
      refine getRange_some.mpr ⟨before ++ be lengthSize nal.length, after, ?_, ?_, rfl⟩
      · rw [prefixed, append_assoc, append_assoc]
      · rw [length_append, be_length]
    have room : before.length + lengthSize + nal.length < 2 ^ 64 := by
      simp only [prefixed, length_append, be_length] at short
      omega
    rw [taken]
    dsimp only
    rw [value, checkedAdd, if_pos room]
    change (match Option.filter _ (getRange _ _ _) with | some nal => _ | _ => _) = _
    rw [found, Option.filter_some, if_pos (decide_eq_true valid)]
    simp only [prefixed, length_append, be_length, Nat.add_assoc]
    rfl

theorem prefixed_length (lengthSize : Nat) (nal : Bytes) :
    (prefixed lengthSize nal).length = lengthSize + nal.length := by
  rw [prefixed, length_append, be_length]

theorem nalAt_bounds {sample nal : Bytes} {lengthSize position stop : Nat}
    (short : sample.length < 2 ^ 63)
    (read : nalAt sample lengthSize position = .ok (nal, stop)) :
    position + lengthSize < stop ∧ stop ≤ sample.length := by
  obtain ⟨⟨valid, _⟩, before, after, rfl, rfl, rfl⟩ := (nalAt_ok short).mp read
  have := length_pos_iff.mpr valid.present
  simp only [length_append, prefixed_length]
  omega

/-- The loop of `annex_b` from `position` on, with what it has written. -/
def annexBFrom (sample : Slice) (lengthSize position : Nat) (output : Bytes) :
    Except MediaError Unit × Bytes :=
  if position < sample.1.length then
    match _read : nalAt sample.1 lengthSize position with
    | .error error => (.error error, output)
    | .ok (nal, stop) => annexBFrom sample lengthSize stop (output ++ startCode ++ nal)
  else (.ok (), output)
termination_by sample.1.length - position
decreasing_by
  have := nalAt_bounds sample.2 _read
  omega

def lengthSizes : List Nat := [1, 2, 4]

/-- What `annex_b` answers, and what it leaves in the output that held `held`. -/
def annexB (sample : Slice) (lengthSize : Nat) (held : Bytes) : Except MediaError Unit × Bytes :=
  if lengthSize ∉ lengthSizes then
    (.error (.decode "invalid H.264 NAL length size"), held)
  else
    match annexBFrom sample lengthSize 0 [] with
    | (.error error, output) => (.error error, output)
    | (.ok (), output) =>
      if output = [] then (.error (.decode "empty H.264 access unit"), output)
      else (.ok (), output)

/-- The values that `position` takes while a sample is transcoded. -/
inductive Visited (sample : Slice) (lengthSize : Nat) : Nat → Prop where
  | start : Visited sample lengthSize 0
  | field : Visited sample lengthSize position → position < sample.1.length →
      getRange sample.1 position (position + lengthSize) = some field →
      Visited sample lengthSize (position + lengthSize)
  | unit : Visited sample lengthSize position → position < sample.1.length →
      nalAt sample.1 lengthSize position = .ok (nal, stop) → Visited sample lengthSize stop

variable {sample : Slice}

theorem Visited.inside {lengthSize position : Nat}
    (visited : Visited sample lengthSize position) : position ≤ sample.1.length := by
  cases visited with
  | start => exact Nat.zero_le _
  | field _ _ taken =>
    obtain ⟨before, after, whole, start, stop⟩ := getRange_some.mp taken
    rw [whole, length_append, length_append]
    omega
  | unit _ _ read => exact (nalAt_bounds sample.2 read).2

/-- Units that fill a part of the sample which is not empty start with the one read there. -/
theorem nalAt_first {lengthSize : Nat} {before : Bytes} {nals : List Bytes}
    (valid : Announceable lengthSize nals)
    (whole : sample.1 = before ++ nals.flatMap (prefixed lengthSize))
    (more : nals.flatMap (prefixed lengthSize) ≠ []) :
    ∃ nal others, nals = nal :: others ∧ nalAt sample.1 lengthSize before.length =
      .ok (nal, before.length + (prefixed lengthSize nal).length) := by
  cases nals with
  | nil => exact absurd rfl more
  | cons nal others =>
    refine ⟨nal, others, rfl, (nalAt_ok sample.2).mpr ⟨valid nal mem_cons_self, ?_⟩⟩
    exact ⟨before, others.flatMap (prefixed lengthSize), whole, rfl, rfl⟩

/-- Behind the part that was read, the loop succeeds exactly on units one after another. -/
theorem annexBFrom_ok {lengthSize : Nat} {before rest output result : Bytes}
    (whole : sample.1 = before ++ rest) :
    annexBFrom sample lengthSize before.length output = (.ok (), result) ↔
      ∃ nals, Announceable lengthSize nals ∧ rest = nals.flatMap (prefixed lengthSize) ∧
        result = output ++ nals.flatMap (startCode ++ ·) := by
  induction left : rest.length using Nat.strongRecOn generalizing before rest output with
  | _ n ih =>
    have total := congrArg List.length whole
    rw [length_append] at total
    unfold annexBFrom
    rcases eq_or_ne rest [] with rfl | more
    · rw [if_neg (by simp [total])]
      constructor
      · intro done
        cases done
        exact ⟨[], nofun, rfl, (append_nil _).symm⟩
      · rintro ⟨nals, valid, empty, rfl⟩
        cases nals with
        | nil => rw [flatMap_nil, append_nil]
        | cons nal nals =>
          have := (valid nal mem_cons_self).1.present
          rw [flatMap_cons, prefixed] at empty
          simp [this] at empty
    · have := length_pos_iff.mpr more
      rw [if_pos (by omega)]
      split
      · rename_i error read
        constructor
        · intro done
          cases done
        · rintro ⟨nals, valid, rfl, -⟩
          obtain ⟨nal, others, -, found⟩ := nalAt_first valid whole more
          rw [found] at read
          cases read
      · rename_i nal stop read
        obtain ⟨valid, front, after, same, start, rfl⟩ := (nalAt_ok sample.2).mp read
        obtain ⟨rfl, rfl⟩ := append_inj (whole.symm.trans same) start.symm
        rw [← append_assoc] at same
        have shorter : after.length < n := by
          rw [← left, length_append, prefixed_length]
          have := length_pos_iff.mpr valid.1.present
          omega
        rw [← length_append, ih _ shorter same rfl]
        constructor
        · rintro ⟨nals, others, rfl, rfl⟩
          refine ⟨nal :: nals, forall_mem_cons.mpr ⟨valid, others⟩, rfl, ?_⟩
          rw [flatMap_cons, append_assoc, append_assoc, append_assoc]
        · rintro ⟨nals, others, filled, rfl⟩
          obtain ⟨first, later, rfl, found⟩ := nalAt_first others (filled ▸ whole) (filled ▸ more)
          rw [found] at read
          cases read
          rw [flatMap_cons, append_cancel_left_eq] at filled
          refine ⟨later, (forall_mem_cons.mp others).2, filled, ?_⟩
          rw [flatMap_cons, append_assoc, append_assoc, append_assoc]

/-- Transcoding succeeds exactly on access units, whose NAL units it writes behind start codes,
and never leaves the sample. -/
theorem annexB_ok_iff {lengthSize : Nat} (known : lengthSize ∈ lengthSizes) (sample : Slice)
    (held : Bytes) :
    (∀ output, annexB sample lengthSize held = (.ok (), output) ↔
      ∃ nals, nals ≠ [] ∧ Announceable lengthSize nals ∧
        sample.1 = nals.flatMap (prefixed lengthSize) ∧
          output = nals.flatMap (startCode ++ ·)) ∧
      ∀ position, Visited sample lengthSize position → position ≤ sample.1.length := by
  refine ⟨fun output => ?_, fun position => Visited.inside⟩
  have loop := @annexBFrom_ok sample lengthSize [] sample.1 [] output rfl
  unfold annexB
  rw [if_neg (not_not.mpr known)]
  rw [length_nil] at loop
  constructor
  · intro done
    split at done
    · cases done
    · rename_i written result
      split at done
      · cases done
      · rename_i some
        cases done
        obtain ⟨nals, valid, whole, same⟩ := loop.mp result
        refine ⟨nals, ?_, valid, whole, same⟩
        rintro rfl
        exact some same
  · rintro ⟨nals, some, valid, whole, rfl⟩
    rw [loop.mpr ⟨nals, valid, whole, rfl⟩]
    cases nals with
    | nil => exact absurd rfl some
    | cons nal nals => rfl

/-- Two parameter sets behind lengths of two bytes. -/
def pairSample : Slice := ⟨[0, 2, 103, 66, 0, 1, 104], by decide⟩

theorem annexB_pair :
    (∀ output, annexB pairSample 2 [9, 9] = (.ok (), output) ↔
      ∃ nals, nals ≠ [] ∧ Announceable 2 nals ∧ pairSample.1 = nals.flatMap (prefixed 2) ∧
        output = nals.flatMap (startCode ++ ·)) ∧
      ∀ position, Visited pairSample 2 position → position ≤ pairSample.1.length :=
  annexB_ok_iff (by decide) pairSample [9, 9]

end Chuzz.Video
