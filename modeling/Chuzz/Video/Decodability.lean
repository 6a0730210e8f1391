import Chuzz.Video.Storage
import Chuzz.Video.Writing

/-! Decodability of stored video. Packets are numbered in the order in which the
parser emits them; a delta frame needs the packet before it. Removal drops the
rest of a group only among stored packets and does not make later appends wait
for a sync frame, so an append can continue a group whose tail is gone. -/
namespace Chuzz.Video
open Std Library.TreeMapValues List

/-- The numbers of the packets since the last sync packet, after one more. -/
def nextRun (run : List Nat) (packet : Encoded) : List Nat :=
  if packet.sample.sync then [packet.serial] else packet.serial :: run

/-- The packet emitted right before `packet` is among `numbers`. -/
def Continues (numbers : List Nat) (packet : Encoded) : Prop :=
  ∃ number ∈ numbers, number + 1 = packet.serial

instance (numbers : List Nat) (packet : Encoded) : Decidable (Continues numbers packet) :=
  inferInstanceAs (Decidable (∃ number ∈ numbers, _))

/-- Every delta frame follows its predecessor with no sync frame in between. -/
def Grouped : (run : List Nat) → List Encoded → Prop
  | _, [] => True
  | run, packet :: rest =>
    (packet.sample.sync = false → Continues run packet) ∧ Grouped (nextRun run packet) rest

/-- Every delta frame whose predecessor is stored at all follows it with no sync
frame in between: no group is interleaved with another one. -/
def Unbroken (stored : List Nat) : (run : List Nat) → List Encoded → Prop
  | _, [] => True
  | run, packet :: rest =>
    (packet.sample.sync = false → Continues stored packet → Continues run packet) ∧
      Unbroken stored (nextRun run packet) rest

instance : (stored run : List Nat) → (packets : List Encoded) →
    Decidable (Unbroken stored run packets)
  | _, _, [] => isTrue trivial
  | stored, run, packet :: rest =>
    have := instDecidableUnbroken stored (nextRun run packet) rest
    inferInstanceAs (Decidable (_ ∧ _))

def serials (packets : List Encoded) : List Nat := packets.map (·.serial)

theorem Continues.mono {fewer more : List Nat} {packet : Encoded} (found : Continues fewer packet)
    (sub : fewer ⊆ more) : Continues more packet := by
  obtain ⟨number, member, next⟩ := found
  exact ⟨number, sub member, next⟩

theorem nextRun_mono {fewer more : List Nat} (sub : fewer ⊆ more) (packet : Encoded) :
    nextRun fewer packet ⊆ nextRun more packet := by
  simp only [nextRun]
  split
  · exact List.Subset.refl _
  · exact cons_subset_cons _ sub

theorem grouped_of_unbroken {stored run : List Nat} {packets : List Encoded}
    (unbroken : Unbroken stored run packets)
    (continued : ∀ packet ∈ packets, packet.sample.sync = false → Continues stored packet) :
    Grouped run packets := by
  induction packets generalizing run with
  | nil => trivial
  | cons packet rest ih =>
    exact ⟨fun delta => unbroken.1 delta (continued packet mem_cons_self delta),
      ih unbroken.2 fun later member => continued later (mem_cons_of_mem _ member)⟩

/-- Once a packet is dropped, everything that depends on it is dropped as well:
the induction carries the run since the last sync frame, which only has to be
complete while nothing of the group is missing. -/
theorem grouped_retainVideo {start stop : Float} {dependent : Bool} {run kept : List Nat}
    {packets : List Encoded} (grouped : Grouped run packets)
    (complete : dependent = false → run ⊆ kept) :
    Grouped kept (retainVideo start stop dependent packets) := by
  induction packets generalizing dependent run kept with
  | nil => trivial
  | cons packet rest ih =>
    obtain ⟨first, grouped⟩ := grouped
    simp only [retainVideo]
    by_cases overlaps : packet.sample.pts < stop ∧ packet.sample.endTime > start
    · simp only [overlaps, and_self, decide_true, Bool.true_or, if_true]
      exact ih grouped fun impossible => absurd impossible (by simp)
    · simp only [overlaps, decide_false, Bool.false_or]
      by_cases missing : (dependent && !decide (packet.sample.sync = true ∧ packet.sample.pts ≥ stop)) =
          true
      · simp only [missing, if_true]
        exact ih grouped fun impossible => absurd impossible (by simp)
      · simp only [missing, Bool.false_eq_true, if_false]
        cases sync : packet.sample.sync with
        | true =>
          refine ⟨fun delta => absurd (sync.symm.trans delta) (by simp), ih grouped fun _ => ?_⟩
          simp [nextRun, sync]
        | false =>
          have whole : dependent = false := by simpa [sync] using missing
          exact ⟨fun delta => (first delta).mono (complete whole),
            ih grouped fun _ => nextRun_mono (complete whole) packet⟩

section
variable {request : Request} {tracks : List Track} {shift : Float} {needSync : Bool} {emitted : Nat}
  {packets : List Encoded} {kept : Kept}

/-- A delta frame that an append keeps first was not waited for, and it is the
first video packet of the append. -/
theorem accept_head {first : Encoded}
    (accepted : accept request tracks shift needSync emitted packets = .ok kept)
    (head : kept.video.head? = some first) (delta : first.sample.sync = false) :
    needSync = false ∧ first.serial = emitted := by
  induction packets generalizing needSync emitted kept with
  | nil =>
    cases accepted
    contradiction
  | cons packet rest ih =>
    cases accept_cons accepted with
    | skippedVideo _ later => exact absurd (ih later head).1 (by simp)
    | skippedAudio _ later => exact ih later head
    | keptVideo tail inside synced later =>
      cases head
      refine ⟨?_, rfl⟩
      cases needSync with
      | false => rfl
      | true => exact absurd ((synced rfl).symm.trans delta) (by simp)
    | keptAudio tail inside later => exact ih later head

/-- Every other delta frame that an append keeps follows its predecessor. -/
theorem accept_continues (accepted : accept request tracks shift needSync emitted packets = .ok kept) :
    ∀ packet ∈ kept.video, packet.sample.sync = false →
      kept.video.head? = some packet ∨ Continues (serials kept.video) packet := by
  induction packets generalizing needSync emitted kept with
  | nil =>
    cases accepted
    simp
  | cons packet rest ih =>
    cases accept_cons accepted with
    | skippedVideo _ later | skippedAudio _ later => exact ih later
    | keptVideo tail inside synced later =>
      intro other member delta
      rcases mem_cons.mp member with rfl | member
      · exact .inl rfl
      · right
        rcases ih later other member delta with first | found
        · exact ⟨emitted, mem_cons_self, (accept_head later first delta).2.symm⟩
        · exact found.mono (subset_cons_self _ _)
    | keptAudio tail inside later =>
      intro other member delta
      exact ih later other member delta

end

theorem grouped_continues {run : List Nat} {packets : List Encoded} (grouped : Grouped run packets) :
    ∀ packet ∈ packets, packet.sample.sync = false →
      Continues (run ++ serials packets) packet := by
  induction packets generalizing run with
  | nil => simp
  | cons head rest ih =>
    intro packet member delta
    rcases mem_cons.mp member with rfl | member
    · exact (grouped.1 delta).mono (subset_append_left _ _)
    · refine (ih grouped.2 packet member delta).mono ?_
      intro number found
      simp only [serials, nextRun, map_cons, mem_append, mem_cons] at found ⊢
      rcases found with found | found
      · split at found
        · exact .inr (.inl (mem_singleton.mp found))
        · rcases mem_cons.mp found with rfl | found
          · exact .inr (.inl rfl)
          · exact .inl found
      · exact .inr (.inr found)

namespace Buffer

/-- Every stored delta frame is stored together with its predecessor. -/
def Decodable (self : Buffer) : Prop :=
  ∀ packet ∈ self.video, packet.sample.sync = false →
    ∃ earlier ∈ self.video, earlier.serial + 1 = packet.serial

/-- An append continues a group only behind the frame emitted right before, and
the packets that it leaves in decode order do not interleave groups. -/
def Continued (readMp4 : ReadMp4) (self : Buffer) (bytes : Block) (request : Request) : Prop :=
  ∀ parsed kept, self.stage readMp4 bytes request = .ok (parsed, kept) →
    (∀ first ∈ kept.video.head?, first.sample.sync = false →
      Continues (serials (parsed.overwrite kept).1.video) first) ∧
    Unbroken (serials ((parsed.overwrite kept).1.video ++ kept.video)) []
      (((parsed.overwrite kept).1.video ++ kept.video).insertionSort decodeOrder)

instance (self : Buffer) : Decidable self.Decodable :=
  inferInstanceAs (Decidable (∀ packet ∈ self.video, _))

instance (readMp4 : ReadMp4) (self : Buffer) (bytes : Block) (request : Request) :
    Decidable (self.Continued readMp4 bytes request) :=
  match chosen : self.stage readMp4 bytes request with
  | .error _ => isTrue fun _ _ same => by
    rw [chosen] at same
    contradiction
  | .ok (parsed, kept) =>
    decidable_of_iff
      ((∀ first ∈ kept.video.head?, first.sample.sync = false →
        Continues (serials (parsed.overwrite kept).1.video) first) ∧
      Unbroken (serials ((parsed.overwrite kept).1.video ++ kept.video)) []
        (((parsed.overwrite kept).1.video ++ kept.video).insertionSort decodeOrder))
      ⟨fun holds _ _ same => by
        rw [chosen] at same
        cases same
        exact holds, fun continued => continued parsed kept chosen⟩

theorem decodable_of_grouped {self : Buffer} (grouped : Grouped [] self.video) :
    self.Decodable ∧ ∀ first, self.video.head? = some first → first.sample.sync = true := by
  constructor
  · intro packet member delta
    obtain ⟨number, found, next⟩ := grouped_continues grouped packet member delta
    obtain ⟨earlier, stored, rfl⟩ := mem_map.mp found
    exact ⟨earlier, stored, next⟩
  · intro first head
    cases stored : self.video with
    | nil =>
      rw [stored] at head
      contradiction
    | cons packet rest =>
      rw [stored] at head grouped
      cases head
      cases sync : first.sample.sync with
      | true => rfl
      | false =>
        obtain ⟨_, none, _⟩ := grouped.1 sync
        simp at none

theorem append_grouped {self staged : Buffer} {bytes : Block} {changed : Bool}
    (grouped : Grouped [] self.video) (continued : self.Continued readMp4 bytes request)
    (appended : self.append readMp4 bytes request = .ok (staged, changed)) :
    Grouped [] staged.video := by
  obtain ⟨parsed, kept, chosen, rfl, _⟩ := append_ok appended
  obtain ⟨behind, unbroken⟩ := continued parsed kept chosen
  obtain ⟨parser, packets, _, _, accepted, same⟩ := stage_ok chosen
  have trimmed : Grouped [] (parsed.overwrite kept).1.video :=
    overwrite_induct (P := fun buffer => Grouped [] buffer.video) (by rw [same]; exact grouped)
      (fun _ _ _ before => grouped_retainVideo before fun _ => List.Subset.refl _) kept
  refine grouped_of_unbroken unbroken fun packet member delta => ?_
  have split : serials ((parsed.overwrite kept).1.video ++ kept.video) =
      serials (parsed.overwrite kept).1.video ++ serials kept.video := map_append
  replace member := (mem_insertionSort decodeOrder).mp member
  rw [split]
  rcases mem_append.mp member with member | member
  · exact (grouped_continues trimmed packet member delta).mono (subset_append_left _ _)
  · rcases accept_continues accepted packet member delta with first | found
    · exact (behind packet first delta).mono (subset_append_left _ _)
    · exact found.mono (subset_append_right _ _)

end Buffer

namespace Store

/-- An append on an open source, if the call is one, is a continued one. -/
def ContinuedCall (readMp4 : ReadMp4) (self : Store) (call : Call) : Prop :=
  ∀ request source buffer block, call = .control request → request.op = .append →
    self.sources[request.source]? = some source → source.ended = false →
    source.buffers[request.buffer]? = some buffer → self.staged request.handle = some block →
    buffer.Continued readMp4 block request

/-- A sync frame and the delta frame after it, staged for an append. -/
def groupStaged : List Call :=
  attachClip ++ (appendClip 1 (clipInit ++ fragment 1 0 600 [([1], true), ([2], false)])).take 1

def appendGroup : Request := { op := .append, source := 1, buffer := 1, handle := some 1 }

theorem groupStaged_continued : ∀ source ∈ (run readClip {} groupStaged).sources[1]?,
    ∀ buffer ∈ source.buffers[1]?, ∀ block ∈ (run readClip {} groupStaged).staged (some 1),
      buffer.Continued readClip block appendGroup := by
  decide +kernel

example : groupStaged.length = 3 := by decide +kernel

example : Buffer.Decodable { mime := ⟨true, true⟩ } := by decide +kernel

/-- The delta frame at 1 s is removed, and the one at 2 s is appended. -/
def continuedGroup : List Call :=
  attachClip ++ appendClip 1 (clipInit ++ fragment 1 0 600 [([1], true), ([2], false)]) ++
  [.control { op := .remove, source := 1, buffer := 1, start := 1, stop := some 2 }] ++
  appendClip 2 (fragment 1 1200 600 [([3], false)])

end Store
end Chuzz.Video
