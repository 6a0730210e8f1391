import Chuzz.Library.DistinctSum
import Chuzz.Video.Chunks
import Chuzz.Video.Storage

/-! Memory limits. Each upload is named once, so that the packets cut from it
share one block. A presentation never holds more than its limit. A document does
after an append that leaves a partial box behind its packets: the tail is copied
out of the block, which stays, and only staging tests the limit. -/
namespace Chuzz.Video
open Std Library.TreeMapValues Library.Transition Library.DistinctSum List

theorem distinctBytes_eq (seen : List Nat) (packets : List Encoded) :
    distinctBytes seen packets =
      distinctSum Block.name (·.bytes.length) seen (packets.map (·.bytes)) := by
  induction packets generalizing seen with
  | nil => rfl
  | cons packet rest ih =>
    simp only [distinctBytes, map_cons, distinctSum, ih]

variable {readMp4 : ReadMp4} {request : Request}

namespace Presentation

variable {self : Presentation}

/-- The blocks that the stored packets hold. -/
def blocks (self : Presentation) : List Block := self.packets.map (·.bytes)

def pendingTotal (self : Presentation) : Nat := total (·.parser.pendingBytes) self.buffers

theorem memory_eq (self : Presentation) :
    self.memory = self.pendingTotal + distinctSum Block.name (·.bytes.length) [] self.blocks := by
  rw [memory, distinctBytes_eq]
  rfl

variable {self : Presentation} {block : Block}

theorem mem_blocks :
    block ∈ self.blocks ↔ ∃ (k : Nat) (buffer : Buffer), self.buffers[k]? = some buffer ∧
      ∃ packet ∈ buffer.video ++ buffer.audio, packet.bytes = block := by
  simp only [blocks, packets, mem_map, mem_flatMap, mem_values]
  constructor
  · rintro ⟨packet, ⟨buffer, ⟨k, stored⟩, member⟩, same⟩
    exact ⟨k, buffer, stored, packet, member, same⟩
  · rintro ⟨k, buffer, stored, packet, member, same⟩
    exact ⟨packet, ⟨buffer, ⟨k, stored⟩, member⟩, same⟩

theorem memory_le {before after : Presentation} (more : Nat)
    (keyed : Keyed Block.name before.blocks)
    (pending : after.pendingTotal ≤ before.pendingTotal + more)
    (within : ∀ block ∈ after.blocks, block ∈ before.blocks) :
    after.memory ≤ before.memory + more := by
  rw [memory_eq, memory_eq, Nat.add_right_comm]
  exact Nat.add_le_add pending (distinctSum_le keyed within)

theorem mem_setBuffer {k : Nat} {new : Buffer} : block ∈ (self.setBuffer k new).blocks ↔
      (∃ packet ∈ new.video ++ new.audio, packet.bytes = block) ∨
        block ∈ ({ self with buffers := self.buffers.erase k } : Presentation).blocks := by
  simp only [blocks, packets, setBuffer_buffers, mem_map, mem_flatMap,
    (values_insert self.buffers k new).mem_iff, mem_cons]
  constructor
  · rintro ⟨packet, ⟨buffer, rfl | stored, member⟩, same⟩
    · exact .inl ⟨packet, member, same⟩
    · exact .inr ⟨packet, ⟨buffer, stored, member⟩, same⟩
  · rintro (⟨packet, member, same⟩ | ⟨packet, ⟨buffer, stored, member⟩, same⟩)
    · exact ⟨packet, ⟨new, .inl rfl, member⟩, same⟩
    · exact ⟨packet, ⟨buffer, .inr stored, member⟩, same⟩

theorem mem_erased {k : Nat}
    (member : block ∈ ({ self with buffers := self.buffers.erase k } : Presentation).blocks) :
    block ∈ self.blocks := by
  obtain ⟨k', buffer, stored, held⟩ := mem_blocks.mp member
  rw [ExtTreeMap.getElem?_erase] at stored
  split at stored
  · contradiction
  · exact mem_blocks.mpr ⟨k', buffer, stored, held⟩

theorem setBuffer_memory {k : Nat} {old new : Buffer} (more : Nat)
    (keyed : Keyed Block.name self.blocks) (found : self.buffers[k]? = some old)
    (pending : new.parser.pendingBytes ≤ old.parser.pendingBytes + more)
    (within : ∀ packet ∈ new.video ++ new.audio, packet ∈ old.video ++ old.audio) :
    (self.setBuffer k new).memory ≤ self.memory + more := by
  refine memory_le more keyed ?_ fun block member => ?_
  · rw [pendingTotal, pendingTotal, setBuffer_buffers, total_insert, total_erase _ found]
    omega
  · rcases mem_setBuffer.mp member with ⟨packet, member, same⟩ | earlier
    · exact mem_blocks.mpr ⟨k, old, found, packet, within packet member, same⟩
    · exact mem_erased earlier

/-- Only an append can make a presentation hold more, within its limit. -/
theorem operate_memory (readMp4 : ReadMp4) (bytes : Option Block) (request : Request)
    (keyed : Keyed Block.name self.blocks) :
    (self.operate readMp4 bytes request).1.memory ≤ self.memory ∨
    ∃ block old staged changed, request.op = .append ∧ self.ended = false ∧ bytes = some block ∧
      self.buffers[request.buffer]? = some old ∧
      old.append readMp4 block request = .ok (staged, changed) ∧
      (self.setBuffer request.buffer staged).memory ≤ sourceLimit ∧
      (self.operate readMp4 bytes request).1.memory =
        (self.setBuffer request.buffer staged).memory := by
  generalize result : self.operate readMp4 bytes request = final
  have outcome := operated readMp4 self bytes request
  rw [result] at outcome
  cases outcome with
  | refused | unchanged | reopened | lived | ended | misended => exact .inl (Nat.le_refl _)
  | added mime op absent =>
    refine .inl (memory_le 0 keyed ?_ fun block member => ?_)
    · rw [pendingTotal, bump_buffers, setBuffer_buffers, total_insert,
        erase_of_absent (by simpa using absent)]
      exact Nat.le_of_eq (Nat.zero_add _)
    · rcases mem_setBuffer.mp member with ⟨packet, member, _⟩ | earlier
      · contradiction
      · exact mem_erased earlier
  | deleted =>
    exact .inl (memory_le 0 keyed (total_erase_le _ _ _) fun _ member => mem_erased member)
  | appended block old staged changed op notEnded given found success limit =>
    refine .inr ⟨block, old, staged, changed, op, notEnded, given, found, success, limit, ?_⟩
    rw [memory_eq, memory_eq, pendingTotal, pendingTotal, blocks, blocks, packets, packets,
      extendDuration_buffers]
    split <;> rfl
  | aborted old found =>
    exact .inl (setBuffer_memory 0 keyed found (Nat.zero_le _) fun _ member => member)
  | removed old stop found =>
    have smaller : (self.setBuffer request.buffer (old.remove request.start stop).1).memory ≤
        self.memory :=
      setBuffer_memory 0 keyed found (Nat.le_refl _) fun _ => Buffer.remove_packets
    refine .inl ?_
    split
    · exact smaller
    · exact smaller
  | resized duration =>
    refine .inl ?_
    split
    · refine memory_le 0 keyed (Nat.le_of_eq ?_) fun block member => ?_
      · change total _ (self.buffers.map _) = total _ self.buffers
        rw [total, total, values_map, map_map]
        rfl
      · obtain ⟨k, buffer, stored, packet, member, same⟩ := mem_blocks.mp member
        simp only [truncate, bump_buffers, ExtTreeMap.getElem?_map, Option.map_eq_some_iff] at stored
        obtain ⟨old, found, rfl⟩ := stored
        exact mem_blocks.mpr ⟨k, old, found, packet, Buffer.remove_packets member, same⟩
    · exact Nat.le_refl _

end Presentation

example : ({} : Presentation).memory = 0 := by decide +kernel

/-- The block of an append: its upload behind the bytes that were pending. -/
def Buffer.block (self : Buffer) (upload : Block) : Block :=
  ⟨upload.name, self.parser.pending ++ upload.bytes⟩

section
variable {self parsed : Buffer} {upload : Block} {kept : Kept}
  (chosen : self.stage readMp4 upload request = .ok (parsed, kept))
include chosen

theorem Buffer.stage_block :
    (∀ packet ∈ kept.video ++ kept.audio, packet.bytes = self.block upload) ∧
      parsed.parser.pendingBytes ≤ self.parser.pendingBytes + upload.bytes.length := by
  obtain ⟨parser, packets, _, read, accepted, rfl⟩ := stage_ok chosen
  obtain ⟨input, last, cursor, ready, reads, _, rfl⟩ := Fragments.append_reads read
  obtain ⟨rfl, _⟩ := Fragments.joined_ok ready
  refine ⟨fun packet member => ?_, ?_⟩
  · obtain ⟨_, original, released, same⟩ := accept_kept accepted packet member
    rw [same, (reads.facts.2.2.2.2 original released).1]
    rfl
  · rw [Fragments.pendingBytes, Fragments.moved_pending, length_drop, length_append]
    exact Nat.sub_le _ _

theorem Buffer.trimmed_packets {packet : Encoded}
    (member : packet ∈ (parsed.overwrite kept).1.video ++ (parsed.overwrite kept).1.audio) :
    packet ∈ self.video ++ self.audio := by
  obtain ⟨video, audio⟩ := parsed.overwrite_sublist kept
  obtain ⟨_, _, _, _, _, rfl⟩ := stage_ok chosen
  rcases mem_append.mp member with member | member
  · exact mem_append_left _ (video.mem member)
  · exact mem_append_right _ (audio.mem member)

end

/-- The buffer that an append writes, up to its timestamp offset. -/
example : ({} : Presentation).blocks = [] := by decide +kernel

def Buffer.stored (parsed : Buffer) (kept : Kept) (offset : Float) : Buffer :=
  { (parsed.overwrite kept).1.store kept with offset }

theorem Buffer.mem_stored {parsed : Buffer} {kept : Kept} {offset : Float} {packet : Encoded} :
    packet ∈ (parsed.stored kept offset).video ++ (parsed.stored kept offset).audio ↔
      packet ∈ kept.video ++ kept.audio ∨
        packet ∈ (parsed.overwrite kept).1.video ++ (parsed.overwrite kept).1.audio := by
  simp only [stored, store, mem_append, mem_insertionSort]
  tauto

theorem Buffer.overwrite_parser (self : Buffer) (kept : Kept) :
    (self.overwrite kept).1.parser = self.parser :=
  Buffer.overwrite_induct (P := fun buffer => buffer.parser = self.parser) rfl
    (fun _ _ _ same => same) kept

namespace Presentation

variable {self : Presentation} {k : Nat} {old parsed : Buffer} {upload : Block} {kept : Kept}
  {block : Block}

theorem trimmed_blocks (found : self.buffers[k]? = some old)
    (chosen : old.stage readMp4 upload request = .ok (parsed, kept))
    (member : block ∈ (self.setBuffer k (parsed.overwrite kept).1).blocks) :
    block ∈ self.blocks := by
  rcases mem_setBuffer.mp member with ⟨packet, member, same⟩ | earlier
  · exact mem_blocks.mpr ⟨k, old, found, packet, Buffer.trimmed_packets chosen member, same⟩
  · exact mem_erased earlier

theorem mem_stored (chosen : old.stage readMp4 upload request = .ok (parsed, kept)) (offset : Float)
    (member : block ∈ (self.setBuffer k (parsed.stored kept offset)).blocks) :
    block = old.block upload ∨ block ∈ (self.setBuffer k (parsed.overwrite kept).1).blocks := by
  rcases mem_setBuffer.mp member with ⟨packet, held, rfl⟩ | earlier
  · rcases Buffer.mem_stored.mp held with new | stored
    · exact .inl ((Buffer.stage_block chosen).1 packet new)
    · exact .inr (mem_setBuffer.mpr (.inl ⟨packet, stored, rfl⟩))
  · exact .inr (mem_setBuffer.mpr (.inr earlier))

/-- An append that keeps packets adds their block to what overlap removal leaves. -/
theorem stored_memory (keyed : Keyed Block.name self.blocks)
    (fresh : ∀ block ∈ self.blocks, block.name ≠ upload.name) (found : self.buffers[k]? = some old)
    (chosen : old.stage readMp4 upload request = .ok (parsed, kept))
    (nonempty : kept.video ++ kept.audio ≠ []) (offset : Float) :
    (self.setBuffer k (parsed.stored kept offset)).memory =
      (self.setBuffer k (parsed.overwrite kept).1).memory +
        (old.parser.pendingBytes + upload.bytes.length) := by
  have within : ∀ block ∈ (self.setBuffer k (parsed.overwrite kept).1).blocks,
      block ∈ self.blocks := fun _ => trimmed_blocks found chosen
  have added : ∀ block, block ∈ (self.setBuffer k (parsed.stored kept offset)).blocks ↔
      block = old.block upload ∨ block ∈ (self.setBuffer k (parsed.overwrite kept).1).blocks := by
    refine fun block => ⟨mem_stored chosen offset, ?_⟩
    rintro (rfl | stored)
    · obtain ⟨packet, member⟩ := exists_mem_of_ne_nil _ nonempty
      exact mem_setBuffer.mpr
        (.inl ⟨packet, Buffer.mem_stored.mpr (.inl member), (Buffer.stage_block chosen).1 _ member⟩)
    · rcases mem_setBuffer.mp stored with ⟨packet, member, same⟩ | earlier
      · exact mem_setBuffer.mpr (.inl ⟨packet, Buffer.mem_stored.mpr (.inr member), same⟩)
      · exact mem_setBuffer.mpr (.inr earlier)
  have new : old.block upload ∉ (self.setBuffer k (parsed.overwrite kept).1).blocks :=
    fun stored => fresh _ (within _ stored) rfl
  have keyed' : Keyed Block.name (self.setBuffer k (parsed.stored kept offset)).blocks := by
    intro a member b member' same
    rcases (added a).mp member with rfl | stored <;> rcases (added b).mp member' with rfl | stored'
    · rfl
    · exact absurd same.symm (fresh _ (within _ stored'))
    · exact absurd same (fresh _ (within _ stored))
    · exact keyed a (within _ stored) b (within _ stored') same
  have pending : (self.setBuffer k (parsed.stored kept offset)).pendingTotal =
      (self.setBuffer k (parsed.overwrite kept).1).pendingTotal := by
    simp only [pendingTotal, setBuffer_buffers, total_insert]
    rfl
  have size : (old.block upload).bytes.length =
      old.parser.pendingBytes + upload.bytes.length := length_append
  rw [memory_eq, memory_eq, pending, distinctSum_insert keyed' new added, size]
  omega

theorem stored_nothing (keyed : Keyed Block.name self.blocks) (found : self.buffers[k]? = some old)
    (chosen : old.stage readMp4 upload request = .ok (parsed, kept))
    (empty : kept.video ++ kept.audio = []) (offset : Float) :
    (self.setBuffer k (parsed.stored kept offset)).memory ≤ self.memory + upload.bytes.length := by
  refine setBuffer_memory _ keyed found ?_ fun packet member => ?_
  · have tail := (Buffer.stage_block chosen).2
    rwa [← Buffer.overwrite_parser parsed kept] at tail
  · rcases Buffer.mem_stored.mp member with new | stored
    · simp [empty] at new
    · exact Buffer.trimmed_packets chosen stored

/-- The bytes that are released when `trimmed` takes the place of a buffer. -/
def released (self : Presentation) (k : Nat) (trimmed : Buffer) : Nat :=
  distinctBytes [] self.packets - distinctBytes [] (self.setBuffer k trimmed).packets

theorem trimmed_memory (keyed : Keyed Block.name self.blocks) (found : self.buffers[k]? = some old)
    (chosen : old.stage readMp4 upload request = .ok (parsed, kept)) :
    (self.setBuffer k (parsed.overwrite kept).1).memory + old.parser.pendingBytes +
        self.released k (parsed.overwrite kept).1 =
      self.memory + parsed.parser.pendingBytes := by
  have fewer : distinctSum Block.name (·.bytes.length) []
        (self.setBuffer k (parsed.overwrite kept).1).blocks ≤
      distinctSum Block.name (·.bytes.length) [] self.blocks :=
    distinctSum_le keyed fun _ => trimmed_blocks found chosen
  have before := total_erase (·.parser.pendingBytes) found
  have after := total_insert (·.parser.pendingBytes) self.buffers k (parsed.overwrite kept).1
  rw [Buffer.overwrite_parser] at after
  simp only [memory, released, distinctBytes_eq, setBuffer_buffers] at fewer ⊢
  simp only [blocks] at fewer
  omega

/-- A block is held because it was, or because an append brought it. -/
theorem operate_blocks (readMp4 : ReadMp4) (bytes : Option Block)
    (member : block ∈ (self.operate readMp4 bytes request).1.blocks) :
    block ∈ self.blocks ∨ ∃ upload old, bytes = some upload ∧
      self.buffers[request.buffer]? = some old ∧ block = old.block upload := by
  obtain ⟨k, buffer, stored, packet, held, rfl⟩ := mem_blocks.mp member
  refine operate_buffers (P := fun buffer => ∀ packet ∈ buffer.video ++ buffer.audio,
    packet.bytes ∈ self.blocks ∨ ∃ upload old, bytes = some upload ∧
      self.buffers[request.buffer]? = some old ∧ packet.bytes = old.block upload)
    ?_ ?_ ?_ ?_ ?_ k buffer stored packet held
  · intro k buffer stored packet member
    exact .inl (mem_blocks.mpr ⟨k, buffer, stored, packet, member, rfl⟩)
  · intro mime packet member
    contradiction
  · intro _ _ upload old staged changed given found all appended packet member
    rcases Buffer.append_packets appended member with earlier | ⟨parsed, kept, chosen, new⟩
    · exact all packet earlier
    · exact .inr ⟨upload, old, given, found, (Buffer.stage_block chosen).1 packet new⟩
  · exact fun _ all => all
  · exact fun _ _ _ all packet member => all packet (Buffer.remove_packets member)

end Presentation

namespace Store

/-- The name of a block is that of an upload that is gone, and of this block only. -/
structure Named (store : Store) : Prop where
  staged : ∀ id ∈ store.uploads, id ≤ store.nextUpload
  gone : ∀ (id : Nat) source, store.sources[id]? = some source → ∀ block ∈ source.blocks,
    block.name ≤ store.nextUpload ∧ block.name ∉ store.uploads
  keyed : ∀ (id : Nat) source, store.sources[id]? = some source → Keyed Block.name source.blocks

variable {handle : Option Nat} {source : Presentation} {self : Store}

theorem consume_le {id : Nat} (present : id ∈ (self.consume handle).uploads) :
    id ∈ self.uploads := by
  cases handle with
  | none => exact present
  | some handle => exact (ExtTreeMap.mem_erase.mp present).2

variable {upload : Block}

theorem staged_some (given : self.staged handle = some upload) :
    self.uploads[upload.name]? = some upload.bytes ∧
      (self.consume handle).uploads = self.uploads.erase upload.name := by
  cases handle with
  | none => contradiction
  | some handle =>
    obtain ⟨bytes, found, rfl⟩ := Option.map_eq_some_iff.mp given
    exact ⟨found, rfl⟩

theorem Named.fewer {self after : Store} (named : self.Named)
    (uploads : ∀ id ∈ after.uploads, id ∈ self.uploads) (next : after.nextUpload = self.nextUpload)
    (sources : ∀ (id : Nat) source, after.sources[id]? = some source →
      self.sources[id]? = some source ∨ source.blocks = []) : after.Named where
  staged id present := next ▸ named.staged id (uploads id present)
  gone id source present block member := by
    rcases sources id source present with found | empty
    · obtain ⟨known, absent⟩ := named.gone id source found block member
      exact ⟨next ▸ known, fun present => absent (uploads _ present)⟩
    · simp [empty] at member
  keyed id source present := by
    rcases sources id source present with found | empty
    · exact named.keyed id source found
    · intro a member
      simp [empty] at member

theorem Named.put (named : self.Named) (bytes : Bytes) (offset length : Nat) :
    (self.put bytes offset length).1.Named := by
  rcases put_cases self bytes offset length with same | ⟨_, _, _, staged⟩
  · rw [same]
    exact named
  · rw [staged]
    refine ⟨fun id present => ?_, fun id source found block member => ?_, named.keyed⟩
    · rcases ExtTreeMap.mem_insert.mp present with same | earlier
      · exact Nat.le_of_eq (Std.compare_eq_iff_eq.mp same).symm
      · exact Nat.le_succ_of_le (named.staged id earlier)
    · obtain ⟨known, absent⟩ := named.gone id source found block member
      refine ⟨Nat.le_succ_of_le known, fun present => ?_⟩
      rcases ExtTreeMap.mem_insert.mp present with same | earlier
      · exact Nat.not_succ_le_self _ (Std.compare_eq_iff_eq.mp same ▸ known)
      · exact absent earlier

variable {request : Request}

theorem Named.operate (named : self.Named)
    (found : self.sources[request.source]? = some source) : Named { self.consume request.handle with
      sources := self.sources.insert request.source
        (source.operate readMp4 (self.staged request.handle) request).1 } := by
  have staged : ∀ {upload}, self.staged request.handle = some upload →
      upload.name ≤ self.nextUpload ∧ upload.name ∈ self.uploads ∧
        upload.name ∉ (self.consume request.handle).uploads := by
    intro upload given
    obtain ⟨present, consumed⟩ := staged_some given
    have present : upload.name ∈ self.uploads := ExtTreeMap.mem_iff_isSome_getElem?.mpr (by simp [present])
    exact ⟨named.staged _ present, present, by simp [consumed]⟩
  refine ⟨fun id present => ?_, fun id after present block member => ?_, fun id after present => ?_⟩
  · exact (consume_nextUpload self request.handle).symm ▸ named.staged id (consume_le present)
  · have before : block.name ≤ self.nextUpload ∧ block.name ∉ (self.consume request.handle).uploads := by
      simp only [ExtTreeMap.getElem?_insert] at present
      split at present
      · cases present
        rcases Presentation.operate_blocks readMp4 _ member with earlier | ⟨upload, _, given, _, rfl⟩
        · obtain ⟨known, absent⟩ := named.gone _ source found block earlier
          exact ⟨known, fun present => absent (consume_le present)⟩
        · exact ⟨(staged given).1, (staged given).2.2⟩
      · obtain ⟨known, absent⟩ := named.gone id after present block member
        exact ⟨known, fun present => absent (consume_le present)⟩
    exact (consume_nextUpload self request.handle).symm ▸ before
  · simp only [ExtTreeMap.getElem?_insert] at present
    split at present
    · cases present
      intro a member b member' same
      rcases Presentation.operate_blocks readMp4 _ member with earlier | ⟨upload, old, given, at', rfl⟩ <;>
        rcases Presentation.operate_blocks readMp4 _ member' with
          earlier' | ⟨upload', old', given', at'', rfl⟩
      · exact named.keyed _ source found a earlier b earlier' same
      · exact absurd (same ▸ (staged given').2.1) (named.gone _ source found a earlier).2
      · exact absurd (same ▸ (staged given).2.1) (named.gone _ source found b earlier').2
      · rw [given] at given'
        rw [at'] at at''
        cases given'
        cases at''
        rfl
    · exact named.keyed id after present

theorem reached_named {store : Store} (run : Reached readMp4 store) : store.Named := by
  refine Reachable.invariant (P := Named) ?_ ?_ run
  · rintro _ rfl
    exact ⟨by simp, by simp, by simp⟩
  · rintro before label _ _ named rfl
    cases label with
    | put bytes offset length =>
      rw [call_put]
      exact named.put bytes offset length
    | release id =>
      exact named.fewer (fun _ present => (ExtTreeMap.mem_erase.mp present).2) rfl
        fun _ _ found => .inl found
    | control request =>
      rw [call_control]
      generalize result : before.control readMp4 request = final
      have outcome := controlled readMp4 before request
      rw [result] at outcome
      cases outcome with
      | refused error =>
        exact named.fewer (fun _ => consume_le) (consume_nextUpload _ _)
          fun _ _ found => .inl (by rwa [consume_sources] at found)
      | opened absent =>
        refine named.fewer (fun _ => consume_le) (consume_nextUpload _ _) fun id source found => ?_
        simp only [ExtTreeMap.getElem?_insert] at found
        split at found
        · cases found
          exact .inr rfl
        · exact .inl found
      | closed =>
        refine named.fewer (fun _ => consume_le) (consume_nextUpload _ _) fun id source found => ?_
        simp only [ExtTreeMap.getElem?_erase] at found
        split at found
        · contradiction
        · exact .inl found
      | operated source found => exact named.operate found

/-- When an append that keeps packets is accepted, the bytes that it leaves pending
fit next to everything stored, less what overlap removal releases. -/
def FitsCall (readMp4 : ReadMp4) (self : Store) (call : Call) : Prop :=
  ∀ request source old upload parsed kept staged changed, call = .control request →
    request.op = .append → self.sources[request.source]? = some source → source.ended = false →
    source.buffers[request.buffer]? = some old → self.staged request.handle = some upload →
    old.append readMp4 upload request = .ok (staged, changed) →
    (source.setBuffer request.buffer staged).memory ≤ sourceLimit →
    old.stage readMp4 upload request = .ok (parsed, kept) → kept.video ++ kept.audio ≠ [] →
    self.memory + parsed.parser.pendingBytes ≤
      documentLimit + source.released request.buffer (parsed.overwrite kept).1

theorem append_memory (named : self.Named) {old staged : Buffer}
    {changed : Bool} (found : self.sources[request.source]? = some source)
    (stored : source.buffers[request.buffer]? = some old)
    (given : self.staged request.handle = some upload)
    (appended : old.append readMp4 upload request = .ok (staged, changed)) :
    ∃ parsed kept, old.stage readMp4 upload request = .ok (parsed, kept) ∧
      (kept.video ++ kept.audio = [] →
        (source.setBuffer request.buffer staged).memory ≤ source.memory + upload.bytes.length) ∧
      (kept.video ++ kept.audio ≠ [] →
        (source.setBuffer request.buffer staged).memory +
            source.released request.buffer (parsed.overwrite kept).1 =
          source.memory + upload.bytes.length + parsed.parser.pendingBytes) := by
  obtain ⟨parsed, kept, chosen, rfl, _⟩ := Buffer.append_ok appended
  have keyed := named.keyed _ source found
  have fresh : ∀ block ∈ source.blocks, block.name ≠ upload.name := by
    intro block member same
    refine (named.gone _ source found block member).2 (same ▸ ?_)
    rw [ExtTreeMap.mem_iff_isSome_getElem?, (staged_some given).1]
    rfl
  refine ⟨parsed, kept, chosen, fun empty => ?_, fun nonempty => ?_⟩
  · exact Presentation.stored_nothing keyed stored chosen empty _
  · have added := Presentation.stored_memory keyed fresh stored chosen nonempty
      (Buffer.nextOffset request kept)
    have trimmed := Presentation.trimmed_memory keyed stored chosen
    change (source.setBuffer _ (parsed.stored kept _)).memory + _ = _
    omega

/-- The memory of a document while one of its sources and one upload are replaced. -/
theorem replaced_memory
    (found : self.sources[request.source]? = some source) (after : Presentation) :
    memory { self.consume request.handle with
      sources := self.sources.insert request.source after } + source.memory =
    (self.consume request.handle).memory + after.memory := by
  have before := total_erase Presentation.memory found
  simp only [memory, total_insert, consume_sources, before]
  omega

theorem consume_memory (self : Store) (handle : Option Nat) :
    (self.consume handle).memory ≤ self.memory := by
  cases handle with
  | none => exact Nat.le_refl _
  | some handle => exact Nat.add_le_add_right (total_erase_le _ _ _) _

theorem consumed_memory (given : self.staged handle = some upload) :
    (self.consume handle).memory + upload.bytes.length = self.memory := by
  obtain ⟨present, consumed⟩ := staged_some given
  have before := total_erase List.length present
  simp only [memory, consume_sources, consumed, before]
  omega

theorem put_memory (within : self.memory ≤ documentLimit) (bytes : Bytes)
    (offset length : Nat) : (self.put bytes offset length).1.memory ≤ documentLimit := by
  rcases put_cases self bytes offset length with same | ⟨_, _, fits, staged⟩
  · rwa [same]
  · have kept := total_erase_le List.length self.uploads (self.nextUpload + 1)
    have short : (slice bytes offset (offset + length)).length ≤ length := by
      simp [slice]
    rw [staged]
    simp only [memory, total_insert] at fits ⊢
    omega

theorem control_memory (named : self.Named) (within : self.memory ≤ documentLimit)
    (fits : self.FitsCall readMp4 (.control request)) :
    (self.control readMp4 request).1.memory ≤ documentLimit := by
  have shrunk := consume_memory self request.handle
  generalize result : self.control readMp4 request = final
  have outcome := controlled readMp4 self request
  rw [result] at outcome
  cases outcome with
  | refused error => exact Nat.le_trans shrunk within
  | opened absent =>
    have same : memory { self.consume request.handle with
        sources := self.sources.insert request.source {} } = (self.consume request.handle).memory := by
      simp only [memory, total_insert, consume_sources,
        erase_of_absent (by simpa using absent : self.sources[request.source]? = none)]
      rw [show Presentation.memory {} = 0 from rfl, Nat.zero_add]
    exact same ▸ Nat.le_trans shrunk within
  | closed =>
    have fewer := total_erase_le Presentation.memory self.sources request.source
    simp only [memory, consume_sources] at shrunk within ⊢
    omega
  | operated source found =>
    have replaced := replaced_memory found
      (source.operate readMp4 (self.staged request.handle) request).1
    rcases Presentation.operate_memory readMp4 (self.staged request.handle) request
      (named.keyed _ source found) with
      smaller | ⟨upload, old, staged, changed, op, notEnded, given, stored, appended, limit, same⟩
    · simp only at replaced ⊢
      omega
    · obtain ⟨parsed, kept, chosen, nothing, more⟩ :=
        append_memory named found stored given appended
      have consumed := consumed_memory given
      by_cases empty : kept.video ++ kept.audio = []
      · have bound := nothing empty
        simp only at replaced ⊢
        omega
      · have exactly := more empty
        have room := fits request source old upload parsed kept staged changed rfl op found notEnded
          stored given appended limit chosen empty
        simp only at replaced ⊢
        omega

theorem reached_limited {store : Store} (run : Reached readMp4 store) (id : Nat)
    (source : Presentation) (present : store.sources[id]? = some source) :
    source.memory ≤ sourceLimit := by
  refine sources_always (P := fun source => source.memory ≤ sourceLimit) (Nat.zero_le _) ?_ run id
    source present
  intro store request source reached within found
  rcases Presentation.operate_memory readMp4 (store.staged request.handle) request
    ((reached_named reached).keyed _ source found) with
    smaller | ⟨_, _, _, _, _, _, _, _, _, limit, same⟩
  · exact Nat.le_trans smaller within
  · exact same ▸ limit

theorem fits_of_room {call : Call} (room : self.memory + maxBox ≤ documentLimit) :
    self.FitsCall readMp4 call := by
  intro request source old upload parsed kept _ _ _ _ _ _ _ _ _ _ chosen _
  obtain ⟨parser, packets, _, read, _, rfl⟩ := Buffer.stage_ok chosen
  have tail : parser.pendingBytes < maxBox := Fragments.append_pending read
  simp only
  omega

theorem fits_unless_append {call : Call}
    (other : ∀ request, call = .control request → request.op ≠ .append) :
    self.FitsCall readMp4 call :=
  fun request _ _ _ _ _ _ _ same op => absurd op (other request same)

/-- The clip and one frame, followed by the first bytes of another box. -/
def partialClip : Bytes :=
  clipInit ++ fragment 1 0 600 [([1], true)] ++ be 4 20 ++ fourCC 'f' 'r' 'e' 'e'

def partialStaged : List Call := attachClip ++ (appendClip 1 partialClip).take 1

def appendPartial : Request := { op := .append, source := 1, buffer := 1, handle := some 1 }

/-- Staging that many zero bytes. -/
def zeros (length : Nat) : Call := .put (List.replicate length 0) 0 length

theorem put_zeros (readMp4 : ReadMp4) (named : self.Named) {length : Nat} (short : length ≤ uploadLimit)
    (few : (values self.uploads).length < 128) (fits : self.memory + length ≤ documentLimit)
    (ids : self.nextUpload < maxId) :
    ∃ staged, (self.call readMp4 (zeros length)).1 = staged ∧ staged.sources = self.sources ∧
      staged.nextUpload = self.nextUpload + 1 ∧ staged.memory = self.memory + length ∧
      (values staged.uploads).length = (values self.uploads).length + 1 ∧
      ∀ id ≤ self.nextUpload, staged.uploads[id]? = self.uploads[id]? := by
  have absent : self.uploads[self.nextUpload + 1]? = none :=
    ExtTreeMap.getElem?_eq_none fun present => Nat.not_succ_le_self _ (named.staged _ present)
  have accepted : (self.call readMp4 (zeros length)).1 =
      { self with
        nextUpload := self.nextUpload + 1
        uploads := self.uploads.insert (self.nextUpload + 1)
          (slice (List.replicate length 0) 0 (0 + length)) } := by
    rw [zeros, call_put, put]
    simp only [length_replicate, Nat.zero_add, gt_iff_lt, Nat.lt_irrefl, if_false]
    rw [if_neg (by omega)]
  have size : (slice (List.replicate length (0 : UInt8)) 0 (0 + length)).length = length := by
    simp [slice]
  refine ⟨_, accepted, rfl, rfl, ?_, ?_, fun id earlier => ?_⟩
  · simp only [memory, total_insert, erase_of_absent absent, size]
    omega
  · simp only [(values_insert _ _ _).length_eq, erase_of_absent absent, length_cons]
  · simp only [ExtTreeMap.getElem?_insert]
    rw [if_neg]
    intro same
    have same := Std.compare_eq_iff_eq.mp same
    omega

theorem run_zeros (lengths : List Nat) (reached : Reached readMp4 self)
    (short : ∀ length ∈ lengths, length ≤ uploadLimit)
    (few : (values self.uploads).length + lengths.length ≤ 128)
    (fits : self.memory + lengths.sum ≤ documentLimit)
    (ids : self.nextUpload + lengths.length ≤ maxId) :
    (self.run readMp4 (lengths.map zeros)).sources = self.sources ∧
      (self.run readMp4 (lengths.map zeros)).memory = self.memory + lengths.sum ∧
      ∀ id ≤ self.nextUpload,
        (self.run readMp4 (lengths.map zeros)).uploads[id]? = self.uploads[id]? := by
  induction lengths generalizing self with
  | nil => exact ⟨rfl, rfl, fun _ _ => rfl⟩
  | cons length rest ih =>
    simp only [length_cons, sum_cons, mem_cons, forall_eq_or_imp] at short few fits ids
    obtain ⟨staged, called, sources, next, memory, count, uploads⟩ :=
      put_zeros readMp4 (reached_named reached) short.1 (by omega) (by omega) (by omega)
    obtain ⟨sources', memory', uploads'⟩ := ih (.next reached called) short.2 (by omega) (by omega)
      (by omega)
    simp only [map_cons, run, foldl_cons, called, sum_cons] at *
    refine ⟨sources'.trans sources, by omega, fun id earlier => ?_⟩
    rw [uploads' id (by omega), uploads id earlier]

/-- What a request does to the sources depends on the named upload only. -/
theorem control_sources (readMp4 : ReadMp4) {self other : Store} (request : Request)
    (sources : self.sources = other.sources)
    (staged : self.staged request.handle = other.staged request.handle) :
    (self.control readMp4 request).1.sources = (other.control readMp4 request).1.sources := by
  simp only [control, openSource, closeSource, consume_sources, sources, staged]
  repeat' split
  all_goals simp only [consume_sources, sources]

theorem control_uploads (readMp4 : ReadMp4) (self : Store) (request : Request) :
    (self.control readMp4 request).1.uploads = (self.consume request.handle).uploads := by
  have outcome := controlled readMp4 self request
  generalize self.control readMp4 request = final at outcome ⊢
  cases outcome <;> rfl

/-- Fifteen uploads of the largest size and one that fills the document. -/
def fillers : List Nat := List.replicate 15 uploadLimit ++ [uploadLimit - partialClip.length]

def filledDocument : List Call := partialStaged ++ fillers.map zeros

theorem run_append (readMp4 : ReadMp4) (self : Store) (first second : List Call) :
    self.run readMp4 (first ++ second) = (self.run readMp4 first).run readMp4 second :=
  foldl_append

theorem partialStaged_facts :
    (∀ length ∈ fillers, length ≤ uploadLimit) ∧
    (values (run readClip {} partialStaged).uploads).length + fillers.length ≤ 128 ∧
    (run readClip {} partialStaged).memory + fillers.sum = documentLimit ∧
    (run readClip {} partialStaged).nextUpload = 1 ∧
    (run readClip {} partialStaged).staged (some 1) = some ⟨1, partialClip⟩ ∧
    total Presentation.memory (run readClip {} partialStaged).sources + partialClip.length <
      total Presentation.memory
        ((run readClip {} partialStaged).control readClip appendPartial).1.sources := by
  decide +kernel

theorem consumed_bytes {id : Nat} {bytes : Bytes} (given : self.staged handle = some ⟨id, bytes⟩) :
    (self.consume handle).memory + bytes.length = self.memory :=
  consumed_memory given

theorem staged_congr {self other : Store} {id : Nat}
    (same : self.uploads[id]? = other.uploads[id]?) :
    self.staged (some id) = other.staged (some id) :=
  congrArg (Option.map (Block.mk id)) same

end Store
end Chuzz.Video
