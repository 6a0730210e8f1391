import Chuzz.Video.BoxReading
import Chuzz.Video.Fragments

/-! Moving the box loop. The parser reads the same boxes from any part of the
stream that holds them: reading `count` bytes further on, in another block,
with the stream position advanced by as much, gives the same packets with their
offsets moved back. -/
namespace Chuzz.Video
open Library.Fallible

namespace Fragments

/-- The parser at another position of the stream, with other bytes pending. -/
def moved (self : Fragments) (position : Nat) (pending : Bytes) : Fragments :=
  { self with position, pending }

@[simp] theorem moved_fragment (self : Fragments) (position : Nat) (pending : Bytes) :
    (self.moved position pending).fragment = self.fragment := rfl

@[simp] theorem moved_pending (self : Fragments) (position : Nat) (pending : Bytes) :
    (self.moved position pending).pending = pending := rfl

@[simp] theorem moved_position (self : Fragments) (position : Nat) (pending : Bytes) :
    (self.moved position pending).position = position := rfl

theorem moved_self (self : Fragments) : self.moved self.position self.pending = self := rfl

theorem initialise_moved (readMp4 : ReadMp4) (self : Fragments) (position : Nat)
    (pending moov body : Bytes) :
    (self.moved position pending).initialise readMp4 moov body =
      (self.initialise readMp4 moov body).map (·.moved position pending) := by
  simp only [initialise, moved, map_bind, map_ite, throw_bind,
    map_throw, map_pure]
  rfl

/-- The state of a `moof` at another position of the stream. -/
def movedTo (position : Nat) (pending : Bytes) (state : Fragments × α) : Fragments × α :=
  (state.1.moved position pending, state.2)

theorem traf_moved (position base : Nat) (pending body : Bytes)
    (state : Fragments × Nat × List PendingSample) (child : BoxRef) :
    traf base body (movedTo position pending state) child =
      (traf base body state child).map (movedTo position pending) := by
  obtain ⟨self, implicitBase, samples⟩ := state
  have run : (self.moved position pending).trafRun = self.trafRun := rfl
  simp only [traf, movedTo, run, map_bind, map_ite, map_pure]
  rfl

theorem moof_moved (self : Fragments) (position : Nat) (pending body : Bytes) (base : Nat) :
    (self.moved position pending).moof body base = (self.moof body base).map (movedTo position pending) := by
  have fold := foldlM_map (traf_moved position base pending body)
  simp only [moof, map_bind]
  cases boxes body with
  | error error => rfl
  | ok children =>
    have folded : children.foldlM (traf base body) (self.moved position pending, base, []) =
        (children.foldlM (traf base body) (self, base, [])).map (movedTo position pending) :=
      fold children (self, base, [])
    simp only [bind, Except.bind, folded]
    cases children.foldlM (traf base body) (self, base, []) with
    | error error => rfl
    | ok final =>
      obtain ⟨after, _, samples⟩ := final
      simp only [Except.map, movedTo]
      split <;> rfl

end Fragments

/-- The same packet, read `count` bytes further on in another block. -/
def Encoded.relocate (self : Encoded) (count : Nat) (block : Block) : Encoded :=
  { self with
    sample := { self.sample with offset := self.sample.offset - count }
    bytes := block }

theorem encoded_offset (declared : PendingSample) (offset : Nat) (input : Block) :
    (declared.encoded offset input).sample.offset = offset := rfl

theorem encoded_size (declared : PendingSample) (offset : Nat) (input : Block) :
    (declared.encoded offset input).sample.size = declared.sample.size := rfl

theorem relocate_encoded (declared : PendingSample) (offset count : Nat) (input block : Block) :
    (declared.encoded offset input).relocate count block =
      declared.encoded (offset - count) block := rfl

namespace Fragments

variable {input : Block}

/-- A located packet lies in the body of its `mdat`, relative to the block. -/
theorem locate_ok {position lower upper : Nat} {declared : PendingSample}
    {packet : Encoded} (located : locate input position lower upper declared = .ok packet) :
    lower ≤ declared.sample.offset ∧
    declared.sample.offset + declared.sample.size ≤ upper ∧
    declared.sample.offset + declared.sample.size < 2 ^ 64 ∧
    packet = declared.encoded (wrappingSub declared.sample.offset position) input := by
  simp only [locate, checkedAdd] at located
  split at located
  · rename_i bound
    simp only [bind, Except.bind] at located
    split at located
    · contradiction
    · rename_i inside
      simp only [not_or, Nat.not_lt] at inside
      cases located
      exact ⟨inside.1, inside.2, bound, rfl⟩
  · contradiction

theorem wrappingSub_of_le {a b : Nat} (le : b ≤ a) (small : a < 2 ^ 64) :
    wrappingSub a b = a - b := by
  simp only [wrappingSub]
  omega

theorem wrappingAdd_of_lt {a b : Nat} (small : a + b < 2 ^ 64) : wrappingAdd a b = a + b :=
  Nat.mod_eq_of_lt small

/-- Reading `count` bytes further on moves the located packet back by as much. -/
theorem locate_moved (input block : Block) {position count lower : Nat} (upper : Nat)
    (declared : PendingSample) (behind : position + count ≤ lower) :
    locate block (position + count) lower upper declared =
      (locate input position lower upper declared).map (·.relocate count block) := by
  simp only [locate, checkedAdd]
  split
  · rename_i bound
    simp only [bind, Except.bind]
    split
    · rfl
    · rename_i inside
      have offset : wrappingSub declared.sample.offset (position + count) =
          wrappingSub declared.sample.offset position - count := by
        rw [wrappingSub_of_le (by omega) (by omega), wrappingSub_of_le (by omega) (by omega)]
        omega
      rw [offset, ← relocate_encoded _ _ _ input]
      rfl
  · rfl

theorem ftypBox_moved (self : Fragments) (position size : Nat) (pending whole : Bytes) :
    (self.moved position pending).ftypBox size whole =
      (self.ftypBox size whole).map (·.moved position pending) := by
  simp only [ftypBox, moved_fragment, map_ite]
  rfl

theorem moovBox_moved (readMp4 : ReadMp4) (self : Fragments) (position : Nat)
    (pending whole body : Bytes) :
    (self.moved position pending).moovBox readMp4 whole body =
      (self.moovBox readMp4 whole body).map (·.moved position pending) := by
  simp only [moovBox, moved_fragment, ftyp, map_ite, initialise_moved]
  rfl

theorem moofBox_moved (self : Fragments) (count start : Nat) (pending body : Bytes) :
    (self.moved (self.position + count) pending).moofBox start body =
      (self.moofBox (count + start) body).map (·.moved (self.position + count) pending) := by
  have base : self.position + count + start = self.position + (count + start) :=
    Nat.add_assoc _ _ _
  simp only [moofBox, moved_fragment, moved_position, tracks, checkedAdd, base, map_ite]
  congr 1
  by_cases bound : self.position + (count + start) < 2 ^ 64
  · simp only [if_pos bound, bind, Except.bind, moof_moved]
    cases self.moof body (self.position + (count + start)) <;> rfl
  · simp only [if_neg bound]
    rfl

variable {item : BoxRef}

/-- One `mdat`, found `count` bytes further on in another block. -/
theorem mdatBox_moved (self : Fragments) (input block : Block) (pending : Bytes) {count : Nat}
    (small : self.position + (count + item.stop) < 2 ^ 64)
    (ordered : item.start + item.header ≤ item.stop) :
    (self.moved (self.position + count) pending).mdatBox block item =
      (self.mdatBox input (item.shift count)).map fun (after, packets) =>
        (after.moved (self.position + count) pending, packets.map (·.relocate count block)) := by
  have lower : wrappingAdd (self.position + count) (item.start + item.header) =
      wrappingAdd self.position (count + item.start + item.header) := by
    rw [wrappingAdd_of_lt (by omega), wrappingAdd_of_lt (by omega)]
    omega
  have upper : wrappingAdd (self.position + count) item.stop =
      wrappingAdd self.position (count + item.stop) := by
    rw [wrappingAdd_of_lt (by omega), wrappingAdd_of_lt (by omega)]
    omega
  have behind : self.position + count ≤
      wrappingAdd self.position (count + item.start + item.header) := by
    rw [wrappingAdd_of_lt (by omega)]
    omega
  simp only [mdatBox, moved_fragment, moved_position, BoxRef.shift, lower, upper, map_bind]
  cases okOr self.fragment "MSE mdat without moof" with
  | error error => rfl
  | ok samples =>
    simp only [bind, Except.bind, mapM_map fun declared => locate_moved input block _ declared behind]
    cases samples.mapM (locate input self.position
      (wrappingAdd self.position (count + item.start + item.header))
      (wrappingAdd self.position (count + item.stop))) <;> rfl

/-- One box, found `count` bytes further on in another block. -/
theorem topLevel_moved (readMp4 : ReadMp4) (self : Fragments) (input block : Block)
    (pending : Bytes) {count : Nat}
    (body : (item.shift count).body input.bytes = item.body block.bytes)
    (whole : slice input.bytes (count + item.start) (count + item.stop) =
      slice block.bytes item.start item.stop)
    (small : self.position + (count + item.stop) < 2 ^ 64)
    (ordered : item.start + item.header ≤ item.stop) :
    topLevel readMp4 (self.moved (self.position + count) pending) block item =
      (topLevel readMp4 self input (item.shift count)).map fun (after, packets) =>
        (after.moved (self.position + count) pending, packets.map (·.relocate count block)) := by
  have kind : (item.shift count).kind = item.kind := rfl
  have start : (item.shift count).start = count + item.start := rfl
  have stop : (item.shift count).stop = count + item.stop := rfl
  have size : count + item.stop - (count + item.start) = item.stop - item.start := by omega
  simp only [topLevel, kind, start, stop, size, body, whole, ftypBox_moved, moovBox_moved,
    moofBox_moved, mdatBox_moved self input block pending small ordered, map_ite]
  repeat' split
  · cases self.ftypBox (item.stop - item.start) (slice block.bytes item.start item.stop) <;> rfl
  · cases self.moovBox readMp4 (slice block.bytes item.start item.stop) (item.body block.bytes) <;>
      rfl
  · cases self.moofBox (count + item.start) (item.body block.bytes) <;> rfl
  all_goals rfl

/-- A `moof` does not move the parser. -/
theorem moof_kept {self after : Fragments} {body : Bytes} {base : Nat}
    {samples : List PendingSample} (read : self.moof body base = .ok (after, samples)) :
    after.position = self.position ∧ after.pending = self.pending := by
  have here := self.moof_moved self.position self.pending body base
  rw [moved_self, read] at here
  injection here with same
  exact ⟨congrArg (·.1.position) same, congrArg (·.1.pending) same⟩

theorem initialise_ok {readMp4 : ReadMp4} {self after : Fragments} {moov body : Bytes}
    (read : self.initialise readMp4 moov body = .ok after) :
    ∃ tracks defaults, after = { self with tracks, defaults, nextDts := ∅ } := by
  obtain ⟨context, _, read⟩ := bind_ok read
  obtain ⟨_, read⟩ := guard_ok read
  obtain ⟨tracks, _, read⟩ := bind_ok read
  obtain ⟨_, read⟩ := guard_ok read
  obtain ⟨defaults, _, read⟩ := bind_ok read
  obtain ⟨_, read⟩ := guard_ok read
  obtain ⟨_, read⟩ := guard_ok read
  cases read
  exact ⟨tracks, defaults, rfl⟩

theorem mdatBox_ok {self after : Fragments}
    {packets : List Encoded} (read : self.mdatBox input item = .ok (after, packets)) :
    ∃ samples, self.fragment = some samples ∧ after = { self with fragment := none } ∧
      samples.mapM (locate input self.position
        (wrappingAdd self.position (item.start + item.header))
        (wrappingAdd self.position item.stop)) = .ok packets := by
  cases fragment : self.fragment with
  | none => simp [mdatBox, fragment, okOr, bind, Except.bind] at read
  | some samples =>
    simp only [mdatBox, fragment, okOr, bind, Except.bind] at read
    cases located : samples.mapM (locate input self.position
        (wrappingAdd self.position (item.start + item.header))
        (wrappingAdd self.position item.stop)) with
    | error error => simp [located] at read
    | ok packets' =>
      simp only [located] at read
      cases read
      exact ⟨samples, rfl, rfl, located⟩

/-- The ways in which one top-level box is read. -/
inductive TopLevel (readMp4 : ReadMp4) (self : Fragments) (input : Block) (item : BoxRef) :
    Fragments × List Encoded → Prop where
  | ftyp (whole) : self.fragment = none →
      TopLevel readMp4 self input item ({ self with ftyp := whole }, [])
  | moov (after) : self.fragment = none → after.fragment = none →
      after.position = self.position → after.pending = self.pending →
      TopLevel readMp4 self input item (after, [])
  | moof (after samples) : item.kind = fourCC 'm' 'o' 'o' 'f' → self.fragment = none →
      self.moof (item.body input.bytes) (self.position + item.start) = .ok (after, samples) →
      TopLevel readMp4 self input item ({ after with fragment := some samples }, [])
  | mdat (samples packets) : item.kind = fourCC 'm' 'd' 'a' 't' → self.fragment = some samples →
      samples.mapM (locate input self.position
        (wrappingAdd self.position (item.start + item.header))
        (wrappingAdd self.position item.stop)) = .ok packets →
      TopLevel readMp4 self input item ({ self with fragment := none }, packets)
  | skipped : item.kind ∈ skipped → TopLevel readMp4 self input item (self, [])

theorem topLevel_cases {readMp4 : ReadMp4} {self : Fragments}
    {result : Fragments × List Encoded} (read : self.topLevel readMp4 input item = .ok result) :
    TopLevel readMp4 self input item result := by
  have fragment {bad : Prop} (guard : ¬ (self.fragment.isSome = true ∨ bad)) :
      self.fragment = none := by
    cases pending : self.fragment with
    | none => rfl
    | some _ => exact absurd (.inl (by rw [pending]; rfl)) guard
  simp only [topLevel] at read
  split at read
  · simp only [ftypBox] at read
    split at read
    · contradiction
    · cases read
      exact .ftyp _ (fragment ‹_›)
  · split at read
    · simp only [moovBox] at read
      split at read
      · contradiction
      · rename_i guard
        cases initialised : self.initialise readMp4 (slice input.bytes item.start item.stop)
            (item.body input.bytes) with
        | error error => simp [initialised, Except.map] at read
        | ok after =>
          rw [initialised] at read
          cases read
          obtain ⟨tracks, defaults, rfl⟩ := initialise_ok initialised
          exact .moov _ (fragment guard) (fragment guard) rfl rfl
    · split at read
      · rename_i kind
        simp only [moofBox] at read
        split at read
        · contradiction
        · rename_i guard
          simp only [checkedAdd] at read
          split at read
          · cases moof : self.moof (item.body input.bytes) (self.position + item.start) with
            | error error => simp [moof, bind, Except.bind, Except.map] at read
            | ok found =>
              simp only [moof, bind, Except.bind] at read
              cases read
              exact .moof found.1 found.2 kind (fragment guard) moof
          · simp [bind, Except.bind, Except.map] at read
      · split at read
        · rename_i kind
          obtain ⟨after, packets⟩ := result
          obtain ⟨samples, pending, rfl, located⟩ := mdatBox_ok read
          exact .mdat samples packets kind pending located
        · split at read
          · cases read
            exact .skipped ‹_›
          · contradiction

end Fragments
end Chuzz.Video
