import Chuzz.Library.StableSort
import Chuzz.Video.Operations

/-! The packet lists of a buffer: removal keeps a sublist, storage keeps decode
order, and what an append removes and adds. -/
namespace Chuzz.Video
open Library.StableSort Library.Fallible List

instance : Std.Total decodeOrder := ⟨fun a b => le_total (totalKey a.decodeTime) (totalKey b.decodeTime)⟩

instance : IsTrans Encoded decodeOrder := ⟨fun _ _ _ first second => le_trans (α := Int) first second⟩

theorem retainVideo_sublist (start stop : Float) (dependent : Bool) (packets : List Encoded) :
    (retainVideo start stop dependent packets).Sublist packets := by
  induction packets generalizing dependent with
  | nil => exact .slnil
  | cons packet rest ih =>
    simp only [retainVideo]
    split
    · exact (ih _).cons _
    · exact (ih _).cons_cons _

/-- A packet that a video removal keeps does not overlap the removed range. -/
theorem retainVideo_outside {start stop : Float} {dependent : Bool} {packets : List Encoded}
    {packet : Encoded} (kept : packet ∈ retainVideo start stop dependent packets) :
    ¬ (packet.sample.pts < stop ∧ packet.sample.endTime > start) := by
  induction packets generalizing dependent with
  | nil => simp [retainVideo] at kept
  | cons head rest ih =>
    simp only [retainVideo] at kept
    split at kept
    · exact ih kept
    · rename_i outside
      rcases mem_cons.mp kept with rfl | kept
      · simp only [Bool.or_eq_true, decide_eq_true_eq, not_or] at outside
        exact outside.1
      · exact ih kept

/-- What the loop of an append can do with its next packet. -/
inductive Accepting (request : Request) (tracks : List Track) (shift : Float) (needSync : Bool)
    (emitted : Nat) (head : Encoded) (rest : List Encoded) : Kept → Prop where
  | skippedVideo (kept) : accept request tracks shift true (emitted + 1) rest = .ok kept →
      Accepting request tracks shift needSync emitted head rest kept
  | skippedAudio (kept) : accept request tracks shift needSync emitted rest = .ok kept →
      Accepting request tracks shift needSync emitted head rest kept
  | keptVideo (tail) : request.outside (head.shift shift) = false →
      (needSync = true → head.sample.sync = true) →
      accept request tracks shift false (emitted + 1) rest = .ok tail →
      Accepting request tracks shift needSync emitted head rest
        { tail with video := { head.shift shift with serial := emitted } :: tail.video }
  | keptAudio (tail) : request.outside (head.shift shift) = false →
      accept request tracks shift needSync emitted rest = .ok tail →
      Accepting request tracks shift needSync emitted head rest
        { tail with audio := head.shift shift :: tail.audio }

section
variable {request : Request} {tracks : List Track} {shift : Float} {needSync : Bool} {emitted : Nat}

theorem accept_cons {head : Encoded} {rest : List Encoded} {kept : Kept}
    (accepted : accept request tracks shift needSync emitted (head :: rest) = .ok kept) :
    Accepting request tracks shift needSync emitted head rest kept := by
  simp only [accept] at accepted
  split at accepted
  · contradiction
  · split at accepted
    · split at accepted
      · exact .skippedVideo _ accepted
      · rename_i inside
        split at accepted
        · rename_i waiting
          rw [(Bool.and_eq_true_iff.mp waiting).1] at accepted
          exact .skippedVideo _ accepted
        · rename_i admitted
          obtain ⟨tail, earlier, final⟩ := bind_ok accepted
          cases final
          refine .keptVideo tail (eq_false_of_ne_true inside) (fun waiting => ?_) earlier
          simpa [waiting, Encoded.shift] using admitted
    · split at accepted
      · exact .skippedAudio _ accepted
      · rename_i inside
        obtain ⟨tail, earlier, final⟩ := bind_ok accepted
        cases final
        exact .keptAudio tail (eq_false_of_ne_true inside) earlier

/-- What is kept lies in the append window and comes from the packets read. -/
theorem accept_kept {packets : List Encoded} {kept : Kept}
    (accepted : accept request tracks shift needSync emitted packets = .ok kept) :
    ∀ packet ∈ kept.video ++ kept.audio, request.outside packet = false ∧
      ∃ original ∈ packets, packet.bytes = original.bytes := by
  induction packets generalizing needSync emitted kept with
  | nil =>
    cases accepted
    simp
  | cons head rest ih =>
    have later {needSync : Bool} {emitted : Nat} {kept : Kept}
        (accepted : accept request tracks shift needSync emitted rest = .ok kept) (packet : Encoded)
        (member : packet ∈ kept.video ++ kept.audio) : request.outside packet = false ∧
          ∃ original ∈ head :: rest, packet.bytes = original.bytes := by
      obtain ⟨inside, original, earlier, same⟩ := ih accepted packet member
      exact ⟨inside, original, mem_cons_of_mem _ earlier, same⟩
    cases accept_cons accepted with
    | skippedVideo _ accepted | skippedAudio _ accepted => exact later accepted
    | keptVideo tail inside _ earlier =>
      intro packet member
      rcases mem_cons.mp member with rfl | member
      · exact ⟨inside, head, mem_cons_self, rfl⟩
      · exact later earlier packet member
    | keptAudio tail inside earlier =>
      intro packet member
      rcases mem_append.mp member with member | member
      · exact later earlier packet (mem_append_left _ member)
      · rcases mem_cons.mp member with rfl | member
        · exact ⟨inside, head, mem_cons_self, rfl⟩
        · exact later earlier packet (mem_append_right _ member)

end

namespace Buffer

/-- Both lists are in the order in which `store` leaves them. -/
def Ordered (self : Buffer) : Prop :=
  self.video.Pairwise decodeOrder ∧ self.audio.Pairwise decodeOrder

theorem remove_video (self : Buffer) (start stop : Float) :
    (self.remove start stop).1.video.Sublist self.video := retainVideo_sublist _ _ _ _

theorem remove_audio (self : Buffer) (start stop : Float) :
    (self.remove start stop).1.audio.Sublist self.audio := filter_sublist

variable {self : Buffer}

theorem remove_packets {start stop : Float} {packet : Encoded}
    (member : packet ∈ (self.remove start stop).1.video ++ (self.remove start stop).1.audio) :
    packet ∈ self.video ++ self.audio := by
  rcases mem_append.mp member with member | member
  · exact mem_append_left _ ((self.remove_video start stop).mem member)
  · exact mem_append_right _ ((self.remove_audio start stop).mem member)

theorem remove_nothing {start stop : Float}
    (unchanged : (self.remove start stop).2 = false) : (self.remove start stop).1 = self := by
  have video := self.remove_video start stop
  have audio := self.remove_audio start stop
  have same : self.count = (self.remove start stop).1.count := by
    simpa [remove] using unchanged
  have shorter := video.length_le
  have shorter' := audio.length_le
  simp only [count] at same
  have sameVideo := video.eq_of_length (by omega)
  have sameAudio := audio.eq_of_length (by omega)
  calc (self.remove start stop).1
      = { self with video := (self.remove start stop).1.video,
                    audio := (self.remove start stop).1.audio } := rfl
    _ = self := by rw [sameVideo, sameAudio]

theorem overwrite_sublist (self : Buffer) (kept : Kept) :
    (self.overwrite kept).1.video.Sublist self.video ∧
      (self.overwrite kept).1.audio.Sublist self.audio :=
  overwrite_induct (P := fun buffer => buffer.video.Sublist self.video ∧
      buffer.audio.Sublist self.audio) ⟨.refl _, .refl _⟩
    (fun buffer start stop within =>
      ⟨(buffer.remove_video start stop).trans within.1,
        (buffer.remove_audio start stop).trans within.2⟩) kept

theorem makeRoom_nothing {state : Buffer × Bool} {range : Range}
    (unchanged : (makeRoom state range).2 = false) : makeRoom state range = state := by
  obtain ⟨before, removed⟩ := Bool.or_eq_false_iff.mp unchanged
  exact Prod.ext (remove_nothing removed) (unchanged.trans before.symm)

theorem overwrite_nothing {kept : Kept}
    (unchanged : (self.overwrite kept).2 = false) : (self.overwrite kept).1 = self := by
  have steps : ∀ (ranges : List Range) (state : Buffer × Bool),
      (ranges.foldl makeRoom state).2 = false → ranges.foldl makeRoom state = state := by
    intro ranges
    induction ranges with
    | nil => exact fun _ _ => rfl
    | cons range rest ih =>
      intro state flag
      have tail := ih (makeRoom state range) flag
      rw [foldl_cons, tail] at flag ⊢
      exact makeRoom_nothing flag
  exact congrArg Prod.fst (steps _ _ unchanged)

theorem store_ordered (self : Buffer) (kept : Kept) : (self.store kept).Ordered :=
  ⟨pairwise_insertionSort _ _, pairwise_insertionSort _ _⟩

theorem append_packets {self staged : Buffer} {bytes : Block} {changed : Bool} {packet : Encoded}
    (appended : self.append readMp4 bytes request = .ok (staged, changed))
    (member : packet ∈ staged.video ++ staged.audio) :
    packet ∈ self.video ++ self.audio ∨
    ∃ parsed kept, self.stage readMp4 bytes request = .ok (parsed, kept) ∧
      packet ∈ kept.video ++ kept.audio := by
  obtain ⟨parsed, kept, chosen, rfl, _⟩ := append_ok appended
  obtain ⟨_, _, _, _, _, rfl⟩ := stage_ok chosen
  obtain ⟨video, audio⟩ := overwrite_sublist
    { self with parser := _, needSync := kept.needSync, emitted := kept.emitted } kept
  simp only [store, mem_append, mem_insertionSort] at member ⊢
  rcases member with (member | member) | (member | member)
  · exact .inl (.inl (video.mem member))
  · exact .inr ⟨_, kept, chosen, .inl member⟩
  · exact .inl (.inr (audio.mem member))
  · exact .inr ⟨_, kept, chosen, .inr member⟩

theorem append_ordered {self staged : Buffer} {bytes : Block} {changed : Bool}
    (appended : self.append readMp4 bytes request = .ok (staged, changed)) : staged.Ordered := by
  obtain ⟨parsed, kept, _, rfl, _⟩ := append_ok appended
  exact store_ordered _ _

end Buffer

theorem reached_sorted {store : Store} {id : Nat} {source : Presentation}
    (reached : Store.Reached readMp4 store) (present : store.sources[id]? = some source) (k : Nat)
    (buffer : Buffer) (stored : source.buffers[k]? = some buffer) : buffer.Ordered := by
  refine Store.sources_always (P := fun source => ∀ (k : Nat) (buffer : Buffer),
    source.buffers[k]? = some buffer → buffer.Ordered) ?_ ?_ reached id source present k buffer stored
  · intro k buffer stored
    simp at stored
  · intro store request source _ all _
    apply Presentation.operate_buffers all
    · exact fun _ => ⟨.nil, .nil⟩
    · exact fun _ _ _ _ _ _ _ _ _ appended => Buffer.append_ordered appended
    · exact fun _ ordered => ordered
    · exact fun buffer start stop ordered =>
        ⟨ordered.1.sublist (buffer.remove_video start stop),
          ordered.2.sublist (buffer.remove_audio start stop)⟩

end Chuzz.Video
