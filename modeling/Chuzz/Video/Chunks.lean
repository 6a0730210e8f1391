import Chuzz.Video.Appending
import Chuzz.Video.Writing

/-! Chunk independence of the byte stream. A successful append is a chain of
boxes; the chain splits at the end of any prefix of the input, and its rest can
be read again from the bytes that the prefix left pending. -/
namespace Chuzz.Video
open Library.Fallible List

/-- What the rest of the program sees of a packet. -/
def Encoded.content (self : Encoded) : Nat × Nat × Nat × Float × Float × Bool × Float × Bytes :=
  (self.track, self.sample.dts, self.sample.delta, self.sample.pts, self.sample.duration,
    self.sample.sync, self.decodeTime, self.data)

namespace Fragments

/-- The box loop as a chain: boxes are read until one has not arrived. -/
inductive Reads (readMp4 : ReadMp4) (input : Block) :
    (budget cursor : Nat) → Fragments → Fragments × Nat × List Encoded → Prop where
  | stop : boxAt input.bytes cursor = .ok none →
      Reads readMp4 input budget cursor self (self, cursor, [])
  | next (item middle first after final later) : boxAt input.bytes cursor = .ok (some item) →
      self.topLevel readMp4 input item = .ok (middle, first) →
      Reads readMp4 input budget item.stop middle (after, final, later) →
      Reads readMp4 input (budget + 1) cursor self (after, final, first ++ later)

variable {readMp4 : ReadMp4} {input block : Block}

variable {self after : Fragments} {result : Fragments × Nat × List Encoded} {self : Fragments}

theorem appendFrom_reads {budget cursor : Nat}
    (done : appendFrom readMp4 input budget cursor self = .ok result) :
    Reads readMp4 input budget cursor self result := by
  induction budget generalizing cursor self result with
  | zero =>
    obtain ⟨found, box, done⟩ := bind_ok done
    cases found with
    | none =>
      cases done
      exact .stop box
    | some item => contradiction
  | succ budget ih =>
    obtain ⟨found, box, done⟩ := bind_ok done
    cases found with
    | none =>
      cases done
      exact .stop box
    | some item =>
      obtain ⟨⟨middle, first⟩, read, done⟩ := bind_ok done
      obtain ⟨⟨after, final, later⟩, rest, done⟩ := bind_ok done
      cases done
      exact .next item middle first after final later box read (ih rest)

theorem Reads.appendFrom {budget cursor : Nat}
    (reads : Reads readMp4 input budget cursor self result) :
    appendFrom readMp4 input budget cursor self = .ok result := by
  induction reads with
  | @stop cursor budget self box =>
    cases budget <;> simp only [Fragments.appendFrom, box, bind, Except.bind] <;> rfl
  | next item middle first after final later box read _ ih =>
    simp only [Fragments.appendFrom, box, read, ih, bind, Except.bind]
    rfl

theorem Reads.more {budget more cursor : Nat}
    (reads : Reads readMp4 input budget cursor self result) (larger : budget ≤ more) :
    Reads readMp4 input more cursor self result := by
  induction reads generalizing more with
  | stop box => exact .stop box
  | next item middle first after final later box read _ ih =>
    obtain ⟨more, rfl⟩ : ∃ fewer, more = fewer + 1 := ⟨more - 1, by omega⟩
    exact .next item middle first after final later box read (ih (by omega))

section
variable {item : BoxRef} {packets : List Encoded}
  (read : self.topLevel readMp4 input item = .ok (after, packets))
include read

theorem topLevel_kept : after.position = self.position ∧ after.pending = self.pending := by
  cases topLevel_cases read with
  | moov _ _ _ position pending => exact ⟨position, pending⟩
  | moof middle samples _ _ found =>
    have same : middle.position = self.position ∧ middle.pending = self.pending := moof_kept found
    exact same
  | ftyp | mdat | skipped => exact ⟨rfl, rfl⟩

theorem topLevel_position : after.position = self.position := (topLevel_kept read).1

theorem topLevel_packets : ∀ packet ∈ packets, packet.bytes = input ∧
      (self.position + item.stop < 2 ^ 64 → item.start + item.header ≤ item.stop →
        item.start ≤ packet.sample.offset ∧
        packet.sample.offset + packet.sample.size ≤ item.stop) := by
  cases topLevel_cases read with
  | mdat samples packets _ _ located =>
    intro packet member
    obtain ⟨declared, _, located⟩ := mapM_mem located packet member
    obtain ⟨lower, upper, small, rfl⟩ := locate_ok located
    refine ⟨rfl, fun bound ordered => ?_⟩
    rw [wrappingAdd_of_lt (by omega)] at lower upper
    rw [encoded_offset, encoded_size, wrappingSub_of_le (by omega) (by omega)]
    omega
  | ftyp | moov | moof | skipped => simp

end

variable {packets : List Encoded} {budget cursor final : Nat}

/-- What a chain of boxes leaves: it stops at a box that has not arrived. -/
theorem Reads.facts (reads : Reads readMp4 input budget cursor self (after, final, packets)) :
    cursor ≤ final ∧ after.position = self.position ∧ boxAt input.bytes final = .ok none ∧
      (cursor ≤ input.bytes.length → final ≤ input.bytes.length) ∧
      ∀ packet ∈ packets, packet.bytes = input ∧
        (self.position + final < 2 ^ 64 →
          cursor ≤ packet.sample.offset ∧ packet.sample.offset + packet.sample.size ≤ final) := by
  generalize result : (after, final, packets) = target at reads
  induction reads generalizing after final packets with
  | stop box =>
    cases result
    exact ⟨Nat.le_refl _, rfl, box, fun within => within, by simp⟩
  | next item middle first after' final' later box read _ ih =>
    cases result
    obtain ⟨further, position, stopped, within, placed⟩ := ih rfl
    obtain ⟨start, ordered, inside, least, _⟩ := boxAt_bounds box
    refine ⟨by omega, position.trans (topLevel_position read), stopped,
      fun _ => within inside, fun packet member => ?_⟩
    rw [topLevel_position read] at placed
    rcases mem_append.mp member with member | member
    · obtain ⟨same, extent⟩ := topLevel_packets read packet member
      exact ⟨same, fun small => by have := extent (by omega) ordered; omega⟩
    · obtain ⟨same, extent⟩ := placed packet member
      exact ⟨same, fun small => by have := extent small; omega⟩

theorem shift_zero (item : BoxRef) : item.shift 0 = item := by
  simp only [BoxRef.shift, Nat.zero_add]

theorem body_drop {bytes rest : Bytes} {count : Nat} (tail : rest = bytes.drop count)
    (item : BoxRef) : (item.shift count).body bytes = item.body rest := by
  rw [BoxRef.body, BoxRef.body, tail, slice_drop, ← Nat.add_assoc]
  rfl

theorem boxAt_drop {count cursor : Nat} {found : Option BoxRef} (within : count ≤ input.bytes.length)
    (tail : block.bytes = input.bytes.drop count)
    (box : boxAt input.bytes (count + cursor) = .ok found) :
    ∃ moved, boxAt block.bytes cursor = .ok moved ∧ found = moved.map (·.shift count) := by
  rw [boxAt_shift within, ← tail] at box
  cases here : boxAt block.bytes cursor with
  | error error => simp [here, Except.map] at box
  | ok moved =>
    rw [here] at box
    cases box
    exact ⟨moved, rfl, rfl⟩

theorem Reads.drop {budget count start cursor final : Nat} (block : Block)
    (begins : start = count + cursor) (within : count ≤ input.bytes.length)
    (tail : block.bytes = input.bytes.drop count)
    (reads : Reads readMp4 input budget start self (after, final, packets)) (pending : Bytes)
    (small : self.position + final < 2 ^ 64) :
    Reads readMp4 block budget cursor (self.moved (self.position + count) pending)
      (after.moved (self.position + count) pending, final - count,
        packets.map (·.relocate count block)) := by
  generalize result : (after, final, packets) = target at reads
  induction reads generalizing cursor after final packets with
  | stop box =>
    cases result
    subst begins
    obtain ⟨moved, here, none'⟩ := boxAt_drop within tail box
    cases moved with
    | none =>
      rw [Nat.add_sub_cancel_left]
      exact .stop here
    | some item => contradiction
  | @next _ budget self item middle first after' final' later box read rest ih =>
    cases result
    subst begins
    obtain ⟨moved, here, some'⟩ := boxAt_drop within tail box
    cases moved with
    | none => contradiction
    | some item' =>
      cases some'
      have position := topLevel_position read
      obtain ⟨further, _⟩ := rest.facts
      obtain ⟨_, ordered, _⟩ := boxAt_bounds here
      have whole : slice input.bytes (count + item'.start) (count + item'.stop) =
          slice block.bytes item'.start item'.stop := by
        rw [tail, slice_drop]
      change count + item'.stop ≤ final' at further
      have moved := topLevel_moved readMp4 self input block pending (body_drop tail item') whole
        (by omega) ordered
      rw [read] at moved
      have later := ih rfl (position ▸ small) rfl
      rw [position] at later
      rw [map_append]
      exact .next item' _ _ _ _ _ here moved later

theorem Reads.split {rest : Bytes} (block : Block) (longer : input.bytes = block.bytes ++ rest)
    (reads : Reads readMp4 input budget cursor self (after, final, packets))
    (within : cursor ≤ block.bytes.length) (small : self.position + final < 2 ^ 64) :
    ∃ middle stop first later,
      Reads readMp4 block budget cursor self (middle, stop, first.map (·.relocate 0 block)) ∧
      Reads readMp4 input budget stop middle (after, final, later) ∧
      packets = first ++ later ∧ stop ≤ block.bytes.length ∧
      ∀ packet ∈ first, packet.bytes = input ∧
        packet.sample.offset + packet.sample.size ≤ block.bytes.length := by
  generalize result : (after, final, packets) = target at reads
  induction reads generalizing after final packets with
  | @stop cursor budget self box =>
    cases result
    refine ⟨_, cursor, [], [], .stop ?_, .stop box, rfl, within, by simp⟩
    cases here : boxAt block.bytes cursor with
    | error error =>
      rw [longer, boxAt_append_error rest here] at box
      contradiction
    | ok found =>
      cases found with
      | none => rfl
      | some item =>
        rw [longer, boxAt_append_some rest here] at box
        cases box
  | @next cursor budget self item middle first after' final' later box read rest' ih =>
    cases result
    cases here : boxAt block.bytes cursor with
    | error error =>
      rw [longer, boxAt_append_error rest here] at box
      contradiction
    | ok found =>
      cases found with
      | none =>
        exact ⟨self, cursor, [], first ++ later, .stop here,
          .next item middle first after' final' later box read rest', rfl, within, by simp⟩
      | some item' =>
        have same := boxAt_append_some rest here
        rw [← longer, box] at same
        cases same
        have position := topLevel_position read
        obtain ⟨further, _⟩ := rest'.facts
        obtain ⟨_, ordered, inside, _⟩ := boxAt_bounds here
        have body : (item.shift 0).body input.bytes = item.body block.bytes := by
          rw [shift_zero, BoxRef.body, BoxRef.body, longer, slice_append _ _ inside]
        have whole : slice input.bytes (0 + item.start) (0 + item.stop) =
            slice block.bytes item.start item.stop := by
          rw [Nat.zero_add, Nat.zero_add, longer, slice_append _ _ inside]
        have moved := topLevel_moved readMp4 self input block self.pending body whole (by omega) ordered
        rw [shift_zero, read, Nat.add_zero, moved_self] at moved
        have back : middle.moved self.position self.pending = middle := by
          rw [← position, ← (topLevel_kept read).2]
          rfl
        simp only [Except.map, back] at moved
        obtain ⟨split, stop, first', later', firstReads, laterReads, joined, bound, placed⟩ :=
          ih inside (position ▸ small) rfl
        refine ⟨split, stop, first ++ first', later', ?_, laterReads.more (by omega), ?_, bound, ?_⟩
        · rw [map_append]
          exact .next item middle _ split stop _ here moved firstReads
        · rw [joined, append_assoc]
        · intro packet member
          rcases mem_append.mp member with member | member
          · obtain ⟨block', extent⟩ := topLevel_packets read packet member
            exact ⟨block', by omega⟩
          · exact placed packet member

theorem joined_ok {self : Fragments} {bytes input : Block} (ready : self.joined bytes = .ok input) :
    input = ⟨bytes.name, self.pending ++ bytes.bytes⟩ ∧
      (self.pending = [] ∨ self.pending.length + bytes.bytes.length ≤ maxBox * 2) := by
  simp only [joined] at ready
  split at ready
  · rename_i empty
    cases ready
    exact ⟨by rw [empty]; rfl, .inl empty⟩
  · split at ready
    · cases ready
      exact ⟨rfl, .inr ‹_›⟩
    · contradiction

theorem joined_of {self : Fragments} (bytes : Block)
    (fits : self.pending = [] ∨ self.pending.length + bytes.bytes.length ≤ maxBox * 2) :
    self.joined bytes = .ok ⟨bytes.name, self.pending ++ bytes.bytes⟩ := by
  simp only [joined]
  split
  · rename_i empty
    rw [empty]
    rfl
  · rename_i partial'
    rw [if_pos (fits.resolve_left partial')]

theorem append_reads {bytes : Block} (done : self.append readMp4 bytes = .ok (after, packets)) :
    ∃ input last cursor, self.joined bytes = .ok input ∧
      Reads readMp4 input 4096 0 self (last, cursor, packets) ∧
      self.position + cursor < 2 ^ 64 ∧
      after = last.moved (self.position + cursor) (input.bytes.drop cursor) := by
  obtain ⟨input, ready, done⟩ := bind_ok done
  obtain ⟨⟨last, cursor, output⟩, looped, done⟩ := bind_ok done
  have reads := appendFrom_reads looped
  obtain ⟨_, position, _⟩ := reads.facts
  simp only [checkedAdd, position] at done
  split at done
  · cases done
    exact ⟨input, last, cursor, ready, reads, ‹_›, rfl⟩
  · contradiction

theorem Reads.append {self last : Fragments} {bytes input : Block}
    {cursor : Nat} (reads : Reads readMp4 input 4096 0 self (last, cursor, packets))
    (ready : self.joined bytes = .ok input) (small : self.position + cursor < 2 ^ 64) :
    self.append readMp4 bytes =
      .ok (last.moved (self.position + cursor) (input.bytes.drop cursor), packets) := by
  obtain ⟨_, position, _⟩ := reads.facts
  simp only [Fragments.append, ready, reads.appendFrom, checkedAdd, position, if_pos small, bind,
    Except.bind]
  rfl

/-- The bytes that an append leaves pending are fewer than the largest box. -/
theorem append_pending {bytes : Block}
    (done : self.append readMp4 bytes = .ok (after, packets)) : after.pendingBytes < maxBox := by
  obtain ⟨input, last, cursor, _, reads, _, rfl⟩ := append_reads done
  have short := boxAt_none reads.facts.2.2.1
  simpa only [pendingBytes, moved, length_drop] using short

theorem relocate_content {packet : Encoded} {count : Nat}
    (same : slice block.bytes (packet.sample.offset - count)
      (packet.sample.offset - count + packet.sample.size) =
      slice packet.bytes.bytes packet.sample.offset
        (packet.sample.offset + packet.sample.size)) :
    (packet.relocate count block).content = packet.content := by
  simp only [Encoded.content, Encoded.data, Encoded.relocate, same]

/-- One append of a whole is two appends of its parts, unless the first part
leaves so many bytes pending that the second one exceeds the limit of a joined
input. -/
theorem append_split {a b : Bytes} (name first' second : Nat)
    (whole : self.append readMp4 ⟨name, a ++ b⟩ = .ok (after, packets)) :
    ∃ middle first, self.append readMp4 ⟨first', a⟩ = .ok (middle, first) ∧
      (middle.pendingBytes = 0 ∨ middle.pendingBytes + b.length ≤ maxBox * 2 →
        ∃ later, middle.append readMp4 ⟨second, b⟩ = .ok (after, later) ∧
          (first ++ later).map Encoded.content = packets.map Encoded.content) := by
  obtain ⟨input, last, final, ready, reads, small, rfl⟩ := append_reads whole
  obtain ⟨rfl, fits⟩ := joined_ok ready
  have longer : self.pending ++ (a ++ b) = (self.pending ++ a) ++ b :=
    (append_assoc _ _ _).symm
  obtain ⟨split, stop, first, later, firstReads, laterReads, rfl, within, placed⟩ :=
    reads.split ⟨first', self.pending ++ a⟩ longer (Nat.zero_le _) small
  change stop ≤ (self.pending ++ a).length at within
  obtain ⟨further, _, _, _, placed'⟩ := laterReads.facts
  have position := firstReads.facts.2.1
  have fits' : self.pending = [] ∨ self.pending.length + a.length ≤ maxBox * 2 := by
    rcases fits with empty | bound
    · exact .inl empty
    · simp only [length_append] at bound
      exact .inr (by omega)
  have done := firstReads.append (joined_of ⟨first', a⟩ fits') (by omega)
  refine ⟨_, _, done, fun room => ?_⟩
  generalize left : (self.pending ++ a).drop stop = pending at room
  have tail : pending ++ b = (self.pending ++ (a ++ b)).drop stop := by
    rw [← left, longer, drop_append_of_le_length within]
  have room' : pending = [] ∨ pending.length + b.length ≤ maxBox * 2 := by
    rcases room with none' | bound
    · exact .inl (length_eq_zero_iff.mp none')
    · exact .inr bound
  have inside : stop ≤ (self.pending ++ (a ++ b)).length := by
    rw [longer, length_append]
    omega
  have rest := laterReads.drop ⟨second, pending ++ b⟩ (Nat.add_zero stop).symm inside tail pending
    (by rw [position]; exact small)
  rw [position] at rest
  have done' := rest.append (joined_of ⟨second, b⟩ room') (by simp only [moved_position]; omega)
  have place : self.position + stop + (final - stop) = self.position + final := by omega
  have left' : (pending ++ b).drop (final - stop) = (self.pending ++ (a ++ b)).drop final := by
    rw [tail, drop_drop, Nat.add_sub_cancel' further]
  simp only [moved_position, place, left'] at done'
  refine ⟨_, done', ?_⟩
  simp only [map_append, map_map]
  congr 1
  · refine map_congr_left fun packet member => relocate_content ?_
    obtain ⟨same, bound⟩ := placed packet member
    simp only [same, Nat.sub_zero]
    rw [longer, slice_append _ _ bound]
  · refine map_congr_left fun packet member => relocate_content ?_
    obtain ⟨same, extent⟩ := placed' packet member
    obtain ⟨lower, _⟩ := extent (by rw [position]; exact small)
    simp only [same, tail, slice_drop]
    congr 1 <;> omega

end Fragments
end Chuzz.Video
