import Chuzz.Video.Chunks

/-! Absolute extents. Alongside a parser runs the whole stream that was fed to
it, discarded bytes included. Every packet carries the bytes of that stream
which the `moof` before its `mdat` declared. -/
namespace Chuzz.Video
open Library.Transition Library.Fallible List

/-- From `start` to `stop` the stream holds only boxes that are skipped. -/
inductive Follows (stream : Bytes) : (start stop : Nat) → Prop where
  | here : Follows stream start start
  | next (item) : Follows stream start stop → boxAt stream stop = .ok (some item) →
      item.kind ∈ Fragments.skipped → Follows stream start item.stop

/-- The `moof` at its place in the stream declares these samples. -/
def Declares (stream : Bytes) (moof : BoxRef) (samples : List PendingSample) : Prop :=
  boxAt stream moof.start = .ok (some moof) ∧ moof.kind = fourCC 'm' 'o' 'o' 'f' ∧
    ∃ before after : Fragments, before.moof (moof.body stream) moof.start = .ok (after, samples)

/-- A `moof` before `position` declares these samples, with no `mdat` so far. -/
def Awaited (stream : Bytes) (position : Nat) (samples : List PendingSample) : Prop :=
  ∃ moof, Declares stream moof samples ∧ Follows stream moof.stop position

/-- The packet is a sample that a `moof` declares in the body of the following
`mdat`, and its data is that extent of the stream. -/
def Placed (stream : Bytes) (packet : Encoded) : Prop :=
  ∃ samples declared mdat, Awaited stream mdat.start samples ∧ declared ∈ samples ∧
    boxAt stream mdat.start = .ok (some mdat) ∧ mdat.kind = fourCC 'm' 'd' 'a' 't' ∧
    mdat.start + mdat.header ≤ declared.sample.offset ∧
    declared.sample.offset + declared.sample.size ≤ mdat.stop ∧
    packet = declared.encoded packet.sample.offset packet.bytes ∧
    packet.data = slice stream declared.sample.offset
      (declared.sample.offset + declared.sample.size)

theorem Follows.extend {stream : Bytes} {start stop : Nat} (chain : Follows stream start stop)
    (more : Bytes) : Follows (stream ++ more) start stop := by
  induction chain with
  | here => exact .here
  | next item _ box kind ih => exact .next item ih (boxAt_append_some more box) kind

theorem Awaited.extend {stream : Bytes} {position : Nat} {samples : List PendingSample}
    (awaited : Awaited stream position samples) (more : Bytes) :
    Awaited (stream ++ more) position samples := by
  obtain ⟨moof, ⟨box, kind, before, after, read⟩, chain⟩ := awaited
  obtain ⟨_, _, within, _⟩ := boxAt_bounds box
  refine ⟨moof, ⟨boxAt_append_some more box, kind, before, after, ?_⟩, chain.extend more⟩
  rwa [BoxRef.body, slice_append _ _ within]

namespace Fragments

inductive Feed where
  | append (bytes : Block)
  | abort

/-- Parsers are replaced only after a successful append, and by `abort`. -/
def feed (readMp4 : ReadMp4) (before : Fragments × Bytes) :
    Feed → Fragments × Bytes → Prop
  | .append bytes, after => ∃ packets,
      before.1.append readMp4 bytes = .ok (after.1, packets) ∧ after.2 = before.2 ++ bytes.bytes
  | .abort, after => after = (before.1.abort, before.2)

/-- A parser and the stream that it was fed. -/
abbrev Fed (readMp4 : ReadMp4) : Fragments × Bytes → Prop :=
  Reachable (fun state => state = ({}, [])) (feed readMp4)

/-- The parser stands at its place in the stream, or it is worn out: `abort`
saturates the position, and from the last one on no box can be read. -/
def Tracks (self : Fragments) (stream : Bytes) : Prop :=
  self.position = 2 ^ 64 - 1 ∧ self.fragment = none ∨
  self.position ≤ stream.length ∧ self.pending = stream.drop self.position ∧
    ∀ samples, self.fragment = some samples → Awaited stream self.position samples

variable {readMp4 : ReadMp4} {input : Block} {stream : Bytes} {self after : Fragments}
  {packets : List Encoded}

theorem Reads.nothing {budget : Nat}
    (reads : Reads readMp4 input budget 0 self (after, 0, packets)) :
    after = self ∧ packets = [] := by
  cases reads with
  | stop => exact ⟨rfl, rfl⟩
  | next item middle first _ _ later box _ rest =>
    obtain ⟨further, _⟩ := rest.facts
    obtain ⟨_, ordered, _, least, _⟩ := boxAt_bounds box
    omega

/-- A chain of boxes keeps track of the stream that its input is the rest of. -/
theorem Reads.placed {budget cursor final : Nat}
    (reads : Reads readMp4 input budget cursor self (after, final, packets))
    (within : self.position ≤ stream.length) (tail : input.bytes = stream.drop self.position)
    (small : self.position + final < 2 ^ 64)
    (awaited : ∀ samples, self.fragment = some samples →
      Awaited stream (self.position + cursor) samples) :
    (∀ samples, after.fragment = some samples → Awaited stream (self.position + final) samples) ∧
      ∀ packet ∈ packets, Placed stream packet := by
  generalize result : (after, final, packets) = target at reads
  induction reads generalizing after final packets with
  | stop box =>
    cases result
    exact ⟨awaited, by simp⟩
  | @next cursor budget self item middle first after' final' later box read rest ih =>
    cases result
    have position := topLevel_position read
    obtain ⟨further, _⟩ := rest.facts
    obtain ⟨start, ordered, _⟩ := boxAt_bounds box
    have here : boxAt stream (item.shift self.position).start =
        .ok (some (item.shift self.position)) := by
      change boxAt stream (self.position + item.start) = _
      rw [start, boxAt_shift within, ← tail, box]
      rfl
    have next : (∀ samples, middle.fragment = some samples →
          Awaited stream (self.position + item.stop) samples) ∧
        ∀ packet ∈ first, Placed stream packet := by
      cases topLevel_cases read with
      | ftyp whole pending => exact ⟨fun samples some' => by simp [pending] at some', by simp⟩
      | moov _ _ none' => exact ⟨fun samples some' => by simp [none'] at some', by simp⟩
      | moof before samples kind _ found =>
        refine ⟨fun samples' same => ?_, by simp⟩
        cases same
        refine ⟨item.shift self.position, ⟨here, kind, self, before, ?_⟩, .here⟩
        rw [body_drop tail item]
        exact found
      | mdat samples packets kind pending located =>
        refine ⟨by simp, fun packet member => ?_⟩
        obtain ⟨declared, chosen, located⟩ := mapM_mem located packet member
        obtain ⟨lower, upper, extent, rfl⟩ := locate_ok located
        rw [wrappingAdd_of_lt (by omega)] at lower upper
        have before := awaited samples pending
        rw [← start] at before
        refine ⟨samples, declared, item.shift self.position, before, chosen, here, kind, ?_, upper,
          rfl, ?_⟩
        · simp only [BoxRef.shift]
          omega
        · rw [Encoded.data, encoded_offset, encoded_size]
          change slice input.bytes _ _ = _
          rw [wrappingSub_of_le (by omega) (by omega), tail, slice_drop]
          congr 1 <;> omega
      | skipped kind =>
        refine ⟨fun samples pending => ?_, by simp⟩
        obtain ⟨moof, declared, chain⟩ := awaited samples pending
        rw [← start] at chain
        exact ⟨moof, declared, .next (item.shift self.position) chain here kind⟩
    obtain ⟨awaited', placed⟩ := ih (by rw [position]; exact within) (by rw [position]; exact tail)
      (by rw [position]; exact small) (by rw [position]; exact next.1) rfl
    rw [position] at awaited'
    refine ⟨awaited', fun packet member => ?_⟩
    rcases mem_append.mp member with member | member
    · exact next.2 packet member
    · exact placed packet member

variable {bytes : Block}

theorem append_placed
    (tracks : self.Tracks stream) (done : self.append readMp4 bytes = .ok (after, packets)) :
    after.Tracks (stream ++ bytes.bytes) ∧
      ∀ packet ∈ packets, Placed (stream ++ bytes.bytes) packet := by
  obtain ⟨input, last, cursor, ready, reads, small, rfl⟩ := append_reads done
  obtain ⟨rfl, _⟩ := joined_ok ready
  rcases tracks with ⟨worn, none'⟩ | ⟨within, pending, awaited⟩
  · have unread : cursor = 0 := by omega
    subst unread
    obtain ⟨rfl, rfl⟩ := reads.nothing
    exact ⟨.inl ⟨worn, none'⟩, by simp⟩
  · have inside : self.position ≤ (stream ++ bytes.bytes).length := by
      rw [length_append]
      omega
    have tail : self.pending ++ bytes.bytes = (stream ++ bytes.bytes).drop self.position := by
      rw [pending, drop_append_of_le_length within]
    obtain ⟨awaited', placed⟩ := reads.placed inside tail small
      fun samples some' => (awaited samples some').extend bytes.bytes
    have bound := reads.facts.2.2.2.1 (Nat.zero_le _)
    rw [tail, length_drop] at bound
    refine ⟨.inr ⟨?_, ?_, awaited'⟩, placed⟩
    · simp only [moved_position]
      omega
    · change (self.pending ++ bytes.bytes).drop cursor = _
      rw [tail, drop_drop]
      rfl

variable {self : Fragments}

theorem abort_tracks (tracks : self.Tracks stream) : self.abort.Tracks stream := by
  rcases tracks with ⟨worn, _⟩ | ⟨within, pending, _⟩
  · refine .inl ⟨?_, rfl⟩
    simp only [abort, worn]
    omega
  · have length : self.pending.length = stream.length - self.position := by
      rw [pending, length_drop]
    by_cases worn : self.position + self.pending.length < 2 ^ 64 - 1
    · refine .inr ⟨?_, ?_, by simp [abort]⟩
      · simp only [abort]
        omega
      · simp only [abort]
        rw [drop_eq_nil_of_le (by omega)]
    · refine .inl ⟨?_, rfl⟩
      simp only [abort]
      omega

theorem fed_tracks {state : Fragments × Bytes} (fed : Fed readMp4 state) :
    state.1.Tracks state.2 := by
  refine Reachable.invariant (P := fun state => state.1.Tracks state.2) ?_ ?_ fed
  · rintro _ rfl
    exact .inr ⟨Nat.le_refl _, rfl, by simp⟩
  · rintro before label after _ tracks stepped
    cases label with
    | append bytes =>
      obtain ⟨packets, done, stream⟩ := stepped
      rw [stream]
      exact (append_placed tracks done).1
    | abort =>
      rw [show after = _ from stepped]
      exact abort_tracks tracks

/-- Chunk independence: what one append of a whole gives, appends of its two parts
give as well, whenever the second part fits behind the bytes that the first one
leaves pending (as it does when it is no longer than an upload). Each packet is
an extent of the stream that a `moof` declared. -/
theorem append_chunks {readMp4 : ReadMp4} {self : Fragments} {stream : Bytes}
    (fed : Fed readMp4 (self, stream)) (a b : Bytes) (name first' second : Nat) {after : Fragments}
    {packets : List Encoded}
    (whole : self.append readMp4 ⟨name, a ++ b⟩ = .ok (after, packets)) :
    (∃ middle first, self.append readMp4 ⟨first', a⟩ = .ok (middle, first) ∧
      middle.pendingBytes < maxBox ∧
      (middle.pendingBytes = 0 ∨ middle.pendingBytes + b.length ≤ maxBox * 2 →
        ∃ later, middle.append readMp4 ⟨second, b⟩ = .ok (after, later) ∧
          (first ++ later).map Encoded.content = packets.map Encoded.content)) ∧
    ∀ packet ∈ packets, Placed (stream ++ (a ++ b)) packet := by
  refine ⟨?_, (append_placed (fed_tracks fed) whole).2⟩
  obtain ⟨middle, first, done, rest⟩ := append_split name first' second whole
  exact ⟨middle, first, done, append_pending done, rest⟩

/-- The clip and one frame, cut inside the `moov`. -/
theorem append_chunks_clip :
    ∃ after packets,
      ({} : Fragments).append readClip ⟨1, clipVideoInit.take 100 ++
        (clipVideoInit.drop 100 ++ Video.fragment 1 0 600 [([1, 2, 3], true)])⟩ = .ok (after, packets) ∧
      (∃ middle first,
        ({} : Fragments).append readClip ⟨1, clipVideoInit.take 100⟩ = .ok (middle, first) ∧
        middle.pendingBytes < maxBox ∧
        (middle.pendingBytes = 0 ∨ middle.pendingBytes +
          (clipVideoInit.drop 100 ++ Video.fragment 1 0 600 [([1, 2, 3], true)]).length ≤ maxBox * 2 →
          ∃ later, middle.append readClip ⟨2, clipVideoInit.drop 100 ++
              Video.fragment 1 0 600 [([1, 2, 3], true)]⟩ = .ok (after, later) ∧
            (first ++ later).map Encoded.content = packets.map Encoded.content)) ∧
      ∀ packet ∈ packets, Placed ([] ++ (clipVideoInit.take 100 ++
        (clipVideoInit.drop 100 ++ Video.fragment 1 0 600 [([1, 2, 3], true)]))) packet := by
  have succeeds : (({} : Fragments).append readClip ⟨1, clipVideoInit.take 100 ++
      (clipVideoInit.drop 100 ++ Video.fragment 1 0 600 [([1, 2, 3], true)])⟩).isOk = true := by
    decide +kernel
  cases whole : ({} : Fragments).append readClip ⟨1, clipVideoInit.take 100 ++
      (clipVideoInit.drop 100 ++ Video.fragment 1 0 600 [([1, 2, 3], true)])⟩ with
  | error error =>
    rw [whole] at succeeds
    contradiction
  | ok result =>
    exact ⟨result.1, result.2, rfl, append_chunks (.start rfl) _ _ 1 1 2 whole⟩

/-- A `free` box of the largest size. -/
@[irreducible] def largest : Bytes := box (fourCC 'f' 'r' 'e' 'e') (List.replicate (maxBox - 8) 0)

theorem largest_length : largest.length = maxBox := by
  simp only [largest, box, length_append, be_length, length_replicate, maxBox]
  rfl

theorem topLevel_free {item : BoxRef} (kind : item.kind = fourCC 'f' 'r' 'e' 'e') :
    self.topLevel readMp4 input item = .ok (self, []) := by
  simp only [topLevel, kind]
  rw [if_neg (by decide), if_neg (by decide), if_neg (by decide), if_neg (by decide),
    if_pos (by decide)]

theorem read_largest {whole : Bytes} (before rest : Bytes) {budget : Nat} (cursor : Nat)
    {result : Fragments × Nat × List Encoded} (here : whole = before ++ (largest ++ rest))
    (start : before.length = cursor)
    (reads : Reads readClip ⟨1, whole⟩ budget (cursor + maxBox) self result) :
    Reads readClip ⟨1, whole⟩ (budget + 1) cursor self result := by
  have size : 8 + (List.replicate (maxBox - 8) (0 : UInt8)).length = maxBox := by
    simp only [length_replicate, maxBox]
  have found := boxAt_box (show (fourCC 'f' 'r' 'e' 'e').length = 4 from rfl) before
    (List.replicate (maxBox - 8) 0) rest (Nat.le_of_eq size)
  rw [size, start, ← largest, ← here] at found
  exact .next _ self [] _ _ _ found (topLevel_free rfl) reads

theorem append_largest : ∃ after packets,
    ({} : Fragments).append readClip ⟨1, largest ++ (largest ++ largest)⟩ = .ok (after, packets) := by
  have final : Reads readClip ⟨1, largest ++ (largest ++ largest)⟩ 4093 (0 + maxBox + maxBox + maxBox)
      {} ({}, 0 + maxBox + maxBox + maxBox, []) := by
    refine .stop ?_
    rw [boxAt_announced, drop_eq_nil_of_le]
    · rfl
    · simp only [length_append, largest_length]
      omega
  have two : (largest ++ largest).length = 0 + maxBox + maxBox := by
    rw [length_append, largest_length, Nat.zero_add]
  have third := read_largest (largest ++ largest) [] (0 + maxBox + maxBox)
    (by rw [append_nil, append_assoc]) two final
  have second := read_largest largest largest (0 + maxBox) rfl
    (by rw [largest_length, Nat.zero_add]) third
  have first := read_largest [] (largest ++ largest) 0 (nil_append _).symm rfl second
  exact ⟨_, _, first.append (if_pos rfl) (by decide)⟩

theorem append_waits (empty : self.pending = [])
    (box : boxAt bytes.bytes 0 = .ok none) (room : self.position + 0 < 2 ^ 64) :
    self.append readMp4 bytes = .ok (self.moved self.position bytes.bytes, []) :=
  (Reads.stop box).append (if_pos empty) room

theorem append_refuses (pending : self.pending ≠ [])
    (large : maxBox * 2 < self.pending.length + bytes.bytes.length) :
    self.append readMp4 bytes = .error (bad "MSE partial segment exceeds its limit") := by
  simp only [append, joined, if_neg pending, if_neg (Nat.not_le_of_lt large)]
  rfl

/-- A first byte that is left pending makes the rest subject to the limit on partial
segments, to which no whole block is. -/
theorem split_refused {whole : Bytes} (large : maxBox * 2 < whole.length) :
    ∃ middle first, ({} : Fragments).append readMp4 ⟨1, whole.take 1⟩ = .ok (middle, first) ∧
      middle.append readMp4 ⟨2, whole.drop 1⟩ =
        .error (bad "MSE partial segment exceeds its limit") := by
  have one : (whole.take 1).length = 1 := by
    rw [length_take]
    omega
  have short : (whole.take 1).length < 8 := by omega
  refine ⟨_, _, append_waits rfl ?_ (by decide), append_refuses ?_ ?_⟩
  · rw [boxAt_announced, drop_zero, announced, if_pos short]
  · rw [moved_pending]
    exact ne_nil_of_length_eq_add_one one
  · rw [moved_pending, one, length_drop]
    omega

/-- The whole is appended, but not its first byte and then the rest of it. -/
theorem split_append_fails :
    Fed readClip ({}, []) ∧
    (∃ after packets, ({} : Fragments).append readClip
      ⟨1, (largest ++ (largest ++ largest)).take 1 ++
        (largest ++ (largest ++ largest)).drop 1⟩ = .ok (after, packets)) ∧
    ∃ middle first,
      ({} : Fragments).append readClip ⟨1, (largest ++ (largest ++ largest)).take 1⟩ =
        .ok (middle, first) ∧
      middle.append readClip ⟨2, (largest ++ (largest ++ largest)).drop 1⟩ =
        .error (bad "MSE partial segment exceeds its limit") := by
  refine ⟨.start rfl, ?_, split_refused ?_⟩
  · rw [take_append_drop]
    exact append_largest
  · rw [length_append, length_append, largest_length]
    decide

end Fragments
end Chuzz.Video
