import Chuzz.Library.Fallible
import Chuzz.Video.Boxes

/-! Reading a box from part of a byte string: where the box lies, that reading
only depends on the bytes from its start on, and that more bytes behind a
complete box, or behind a rejected header, change nothing. -/
namespace Chuzz.Video
open Library.Fallible List

/-- The same box, found `count` bytes further on. -/
def BoxRef.shift (self : BoxRef) (count : Nat) : BoxRef :=
  { self with start := count + self.start, stop := count + self.stop }

theorem bigEndian_cons (byte : UInt8) (bytes : Bytes) :
    bigEndian (byte :: bytes) = byte.toNat * 256 ^ bytes.length + bigEndian bytes := by
  have offset : ∀ (rest : Bytes) (value : Nat),
      rest.foldl (fun value byte => value * 256 + byte.toNat) value =
        value * 256 ^ rest.length + bigEndian rest := by
    intro rest
    induction rest with
    | nil => intro value; simp [bigEndian]
    | cons head tail ih =>
      intro value
      simp only [foldl_cons, length_cons, bigEndian, ih (value * 256 + head.toNat),
        ih (0 * 256 + head.toNat)]
      ring
  simp only [bigEndian, foldl_cons]
  rw [offset]
  simp [bigEndian]

/-- What the size field of a header announces: the size and the header's length. -/
inductive Announced where
  | wait
  | invalid (error : MediaError)
  | size (size header : Nat) (kind : Bytes)

/-- The header at the front of `head`. -/
def announced (head : Bytes) : Announced :=
  if head.length < 8 then .wait
  else
    let size := bigEndian (slice head 0 4)
    let kind := slice head 4 8
    if size = 0 then .invalid (bad "size-zero boxes are invalid in the MSE byte stream")
    else if size = 1 then
      if head.length < 16 then .wait
      else
        let size := bigEndian (slice head 8 16)
        if size < 16 ∨ size > maxBox then .invalid (bad "invalid or oversized MSE MP4 box")
        else .size size 16 kind
    else if size < 8 ∨ size > maxBox then .invalid (bad "invalid or oversized MSE MP4 box")
    else .size size 8 kind

theorem boxAt_announced (bytes : Bytes) (start : Nat) :
    boxAt bytes start =
      match announced (bytes.drop start) with
      | .wait => .ok none
      | .invalid error => .error error
      | .size size header kind =>
        if start + size > bytes.length then .ok none
        else .ok (some { kind, start, header, stop := start + size }) := by
  have take4 {head : Bytes} (long : ¬ head.length < 8) :
      (Reader.new head).u32 = .ok (bigEndian (slice head 0 4), ⟨head, 4⟩) := by
    have within : 4 ≤ head.length := by omega
    simp [Reader.u32, Reader.take, Reader.new, within, bind, Except.bind, pure, Except.pure]
  have kind4 {head : Bytes} (long : ¬ head.length < 8) :
      Reader.take 4 ⟨head, 4⟩ = .ok (slice head 4 8, ⟨head, 8⟩) := by
    have within : 8 ≤ head.length := by omega
    simp [Reader.take, within]
  have take8 {head : Bytes} (long : ¬ head.length < 16) :
      Reader.u64 ⟨head, 8⟩ = .ok (bigEndian (slice head 8 16), ⟨head, 16⟩) := by
    have within : 16 ≤ head.length := by omega
    simp [Reader.u64, Reader.take, within, bind, Except.bind, pure, Except.pure]
  simp only [boxAt, announced]
  generalize bytes.drop start = head
  by_cases short : head.length < 8
  · simp only [short, if_true]
    rfl
  · simp only [short, if_false, take4 short, kind4 short, bind, Except.bind, pure, Except.pure, throw_eq]
    by_cases zero : bigEndian (slice head 0 4) = 0
    · simp [zero]
    · by_cases one : bigEndian (slice head 0 4) = 1
      · by_cases short : head.length < 16
        · simp [one, short]
        · simp only [one, take8 short, short]
          by_cases invalid : bigEndian (slice head 8 16) < 16 ∨ bigEndian (slice head 8 16) > maxBox
          · simp [invalid]
          · simp [invalid]
      · by_cases invalid : bigEndian (slice head 0 4) < 8 ∨ bigEndian (slice head 0 4) > maxBox
        · simp [zero, one, invalid]
        · simp [zero, one, invalid]

theorem slice_append {a : Bytes} (b : Bytes) (start : Nat) {stop : Nat} (within : stop ≤ a.length) :
    slice (a ++ b) start stop = slice a start stop := by
  simp only [slice, drop_append]
  by_cases inside : start ≤ a.length
  · rw [take_append_of_le_length (by simp; omega)]
  · have empty : stop - start = 0 := by omega
    simp [empty]

theorem slice_drop (bytes : Bytes) (count start stop : Nat) :
    slice (bytes.drop count) start stop = slice bytes (count + start) (count + stop) := by
  have width : count + stop - (count + start) = stop - start := by omega
  simp only [slice, drop_drop, width]

theorem announced_append {head : Bytes} (rest : Bytes) (decided : announced head ≠ .wait) :
    announced (head ++ rest) = announced head := by
  have long : ¬ head.length < 8 := fun short => decided (by simp [announced, short])
  have long' : ¬ (head ++ rest).length < 8 := by simp; omega
  simp only [announced, if_neg long, if_neg long', slice_append rest 0 (show 4 ≤ head.length by omega),
    slice_append rest 4 (show 8 ≤ head.length by omega)]
  by_cases one : bigEndian (slice head 0 4) = 1
  · have long16 : ¬ head.length < 16 := fun short => decided (by simp [announced, long, one, short])
    have long16' : ¬ (head ++ rest).length < 16 := by simp; omega
    simp only [one, if_neg long16, if_neg long16', slice_append rest 8 (show 16 ≤ head.length by omega)]
  · simp only [if_neg one]

theorem announced_size {head : Bytes} (found : announced head = .size size header kind) :
    header ≤ size ∧ size ≤ maxBox ∧ 8 ≤ header ∧ header ≤ head.length := by
  simp only [announced] at found
  repeat' split at found
  all_goals first
    | contradiction
    | (injection found with h₁ h₂ h₃; omega)

variable {bytes : Bytes} {start : Nat}

theorem boxAt_bounds {item : BoxRef} (found : boxAt bytes start = .ok (some item)) :
    item.start = start ∧ item.start + item.header ≤ item.stop ∧ item.stop ≤ bytes.length ∧
      8 ≤ item.header ∧ item.stop ≤ start + maxBox := by
  rw [boxAt_announced] at found
  cases head : announced (bytes.drop start) with
  | wait => simp [head] at found
  | invalid error => simp [head] at found
  | size size header kind =>
    obtain ⟨bound, limit, least, _⟩ := announced_size head
    simp only [head] at found
    split at found
    · simp at found
    · injection found with found
      injection found with found
      subst found
      refine ⟨rfl, ?_, ?_, ?_, ?_⟩ <;> simp <;> omega

/-- Bytes that wait for the rest of a box are fewer than the largest box. -/
theorem boxAt_none (partly : boxAt bytes start = .ok none) : bytes.length - start < maxBox := by
  rw [boxAt_announced] at partly
  cases head : announced (bytes.drop start) with
  | wait =>
    have short : (bytes.drop start).length < 16 := by
      simp only [announced] at head
      repeat' split at head
      all_goals first
        | contradiction
        | omega
    rw [length_drop] at short
    simp only [maxBox]
    omega
  | invalid error => simp [head] at partly
  | size size header kind =>
    obtain ⟨_, limit, _, long⟩ := announced_size head
    simp only [head] at partly
    split at partly
    · rw [length_drop] at long
      omega
    · simp at partly

theorem boxAt_shift {count : Nat} (within : count ≤ bytes.length) (start : Nat) :
    boxAt bytes (count + start) = (boxAt (bytes.drop count) start).map (·.map (·.shift count)) := by
  rw [boxAt_announced, boxAt_announced, drop_drop]
  cases announced (bytes.drop (count + start)) with
  | wait => rfl
  | invalid error => rfl
  | size size header kind =>
    have same : count + start + size > bytes.length ↔ start + size > (bytes.drop count).length := by
      rw [length_drop]
      omega
    simp only [same]
    split
    · rfl
    · simp [Except.map, BoxRef.shift, Nat.add_assoc]

theorem boxAt_append_some (rest : Bytes) {item : BoxRef}
    (found : boxAt bytes start = .ok (some item)) : boxAt (bytes ++ rest) start = .ok (some item) := by
  obtain ⟨same, ordered, within, least, _⟩ := boxAt_bounds found
  have inside : start ≤ bytes.length := by omega
  rw [boxAt_announced] at found ⊢
  rw [drop_append_of_le_length inside]
  cases head : announced (bytes.drop start) with
  | wait => simp [head] at found
  | invalid error => simp [head] at found
  | size size header kind =>
    rw [announced_append rest (by simp [head]), head]
    simp only [head] at found ⊢
    split at found
    · simp at found
    · rename_i fits
      rw [if_neg (by simp; omega)]
      exact found

theorem boxAt_append_error (rest : Bytes) {error : MediaError}
    (failed : boxAt bytes start = .error error) : boxAt (bytes ++ rest) start = .error error := by
  rw [boxAt_announced] at failed ⊢
  cases head : announced (bytes.drop start) with
  | wait => simp [head] at failed
  | invalid error' =>
    have inside : start ≤ bytes.length := by
      by_contra outside
      have empty : bytes.drop start = [] := drop_eq_nil_of_le (by omega)
      simp [empty, announced] at head
    rw [drop_append_of_le_length inside, announced_append rest (by simp [head]), head]
    simpa only [head] using failed
  | size size header kind =>
    simp only [head] at failed
    split at failed <;> simp at failed

end Chuzz.Video
