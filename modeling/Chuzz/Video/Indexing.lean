import Chuzz.Video.Storage
import Chuzz.Video.Writing

/-! Playback holds positions in the packet lists of a presentation and gives
them up only when its epoch changes. A request that keeps the epoch keeps every
indexed packet in its place, except an append whose later packets sort before
stored ones while its first packet does not. -/
namespace Chuzz.Video
open Std Library.TreeMapValues Library.StableSort ExtTreeMap

namespace Presentation

/-- Positions taken in `before` are still good in `after`. -/
def Indexed (before after : Presentation) : Prop :=
  after.epoch = before.epoch → ∀ (k : Nat) old new,
    before.buffers[k]? = some old → after.buffers[k]? = some new →
    old.video <+: new.video ∧ old.audio <+: new.audio

/-- Some new packet sorts before some stored one. -/
def outOfOrder (old new : List Encoded) : Prop := ∃ a ∈ old, ∃ b ∈ new, ¬ decodeOrder a b

/-- An accepted append that overlaps no stored packet and whose first packets
come last, but which has a later packet that belongs before a stored one. -/
def reorders (readMp4 : ReadMp4) (self : Presentation) (bytes : Option Block) (request : Request) :
    Prop :=
  request.op = .append ∧ self.ended = false ∧ ∃ block old parsed kept,
    bytes = some block ∧ self.buffers[request.buffer]? = some old ∧
    old.stage readMp4 block request = .ok (parsed, kept) ∧
    (parsed.overwrite kept).2 = false ∧ (parsed.store kept).count ≤ 1000000 ∧
    (self.setBuffer request.buffer
      { parsed.store kept with offset := Buffer.nextOffset request kept }).memory ≤ sourceLimit ∧
    startsBefore kept.video old.video = false ∧ startsBefore kept.audio old.audio = false ∧
    (outOfOrder old.video kept.video ∨ outOfOrder old.audio kept.audio)

variable {before after : Presentation}

theorem indexed_same (same : after.buffers = before.buffers) : Indexed before after := by
  intro _ k old new found found'
  rw [same, found] at found'
  cases found'
  exact ⟨List.prefix_refl _, List.prefix_refl _⟩

theorem indexed_bump (bumped : after.epoch = before.bump.epoch) : Indexed before after := by
  intro same
  exact absurd (bumped.symm.trans same) before.bump_epoch_ne

theorem indexed_insert {k : Nat} {old new : Buffer}
    (replaced : after.buffers = before.buffers.insert k new) (found : before.buffers[k]? = some old)
    (video : old.video <+: new.video) (audio : old.audio <+: new.audio) : Indexed before after := by
  intro _ k' old' new' found' found''
  rw [replaced, getElem?_insert] at found''
  split at found''
  · rename_i same
    rw [← LawfulEqCmp.eq_of_compare same, found] at found'
    cases found'
    cases found''
    exact ⟨video, audio⟩
  · rw [found'] at found''
    cases found''
    exact ⟨List.prefix_refl _, List.prefix_refl _⟩

theorem not_outOfOrder {old new : List Encoded} (inOrder : ¬ outOfOrder old new) :
    ∀ a ∈ old, ∀ b ∈ new, decodeOrder a b := by
  intro a ha b hb
  by_contra misplaced
  exact inOrder ⟨a, ha, b, hb, misplaced⟩

theorem stage_lists {old parsed : Buffer} {block : Block} {kept : Kept}
    (chosen : old.stage readMp4 block request = .ok (parsed, kept)) :
    parsed.video = old.video ∧ parsed.audio = old.audio := by
  obtain ⟨_, _, _, _, _, rfl⟩ := Buffer.stage_ok chosen
  exact ⟨rfl, rfl⟩

variable {self : Presentation} {bytes : Option Block} {request : Request}

/-- An append without a reported change only adds packets behind the stored ones,
or it reorders. -/
theorem appended_prefix {block : Block} {old staged : Buffer}
    (ordered : old.Ordered) (proper : ¬ self.reorders readMp4 bytes request)
    (op : request.op = .append) (notEnded : self.ended = false) (given : bytes = some block)
    (found : self.buffers[request.buffer]? = some old)
    (appended : old.append readMp4 block request = .ok (staged, false))
    (within : (self.setBuffer request.buffer staged).memory ≤ sourceLimit) :
    old.video <+: staged.video ∧ old.audio <+: staged.audio := by
  obtain ⟨parsed, kept, chosen, rfl, unchanged, limit⟩ := Buffer.append_ok appended
  simp only [Bool.false_eq, Bool.or_eq_false_iff] at unchanged
  obtain ⟨⟨untouched, videoLast⟩, audioLast⟩ := unchanged
  obtain ⟨sameVideo, sameAudio⟩ := stage_lists chosen
  rw [Buffer.overwrite_nothing untouched] at videoLast audioLast limit within ⊢
  rw [sameVideo] at videoLast
  rw [sameAudio] at audioLast
  have inOrder : ¬ (outOfOrder old.video kept.video ∨ outOfOrder old.audio kept.audio) :=
    fun misplaced => proper ⟨op, notEnded, block, old, parsed, kept, given, found, chosen,
      untouched, limit, within, videoLast, audioLast, misplaced⟩
  rw [not_or] at inOrder
  simp only [Buffer.store, sameVideo, sameAudio]
  exact ⟨(prefix_insertionSort_iff ordered.1).mpr (not_outOfOrder inOrder.1),
    (prefix_insertionSort_iff ordered.2).mpr (not_outOfOrder inOrder.2)⟩

theorem operate_indexed
    (ordered : ∀ (k : Nat) buffer, self.buffers[k]? = some buffer → buffer.Ordered)
    (proper : ¬ self.reorders readMp4 bytes request) :
    Indexed self (self.operate readMp4 bytes request).1 := by
  generalize result : self.operate readMp4 bytes request = final
  have outcome := operated readMp4 self bytes request
  rw [result] at outcome
  cases outcome with
  | refused | unchanged | lived | ended | misended => exact indexed_same rfl
  | added | deleted | reopened => exact indexed_bump rfl
  | appended block old staged changed op notEnded given found success within =>
    cases changed with
    | true => exact indexed_bump (extendDuration_epoch _)
    | false =>
      have placed := appended_prefix (ordered _ _ found) proper op notEnded given found success within
      exact indexed_insert (extendDuration_buffers _) found placed.1 placed.2
  | aborted old found =>
    exact indexed_insert rfl found (List.prefix_refl _) (List.prefix_refl _)
  | removed old stop found =>
    split
    · exact indexed_bump rfl
    · rename_i untouched
      rw [Buffer.remove_nothing (by simpa using untouched)]
      exact indexed_same (insert_same found)
  | resized duration =>
    by_cases shorter : duration < self.duration
    · simp only [if_pos shorter]
      exact indexed_bump rfl
    · simp only [if_neg shorter]
      exact indexed_same rfl

theorem reorders_operate
    (ordered : ∀ (k : Nat) buffer, self.buffers[k]? = some buffer → buffer.Ordered)
    (reordered : self.reorders readMp4 bytes request) :
    ¬ Indexed self (self.operate readMp4 bytes request).1 := by
  obtain ⟨op, notEnded, block, old, parsed, kept, rfl, found, chosen, untouched, limit, within,
    videoLast, audioLast, misplaced⟩ := reordered
  obtain ⟨sameVideo, sameAudio⟩ := stage_lists chosen
  have success := Buffer.append_of_stage chosen (by rwa [Buffer.overwrite_nothing untouched])
  rw [Buffer.overwrite_nothing untouched, untouched, sameVideo, sameAudio, videoLast, audioLast]
    at success
  have result : (self.operate readMp4 (some block) request).1 =
      (self.setBuffer request.buffer
        { parsed.store kept with offset := Buffer.nextOffset request kept }).extendDuration := by
    simp only [operate, op, append, notEnded, found, success, if_neg (Nat.not_lt.mpr within)]
    rfl
  intro indexed
  rw [result] at indexed
  have placed := indexed (extendDuration_epoch _) request.buffer old _ found
    (by rw [extendDuration_buffers, setBuffer_buffers, getElem?_insert_self])
  simp only [Buffer.store, sameVideo, sameAudio] at placed
  obtain ⟨sortedVideo, sortedAudio⟩ := ordered _ _ found
  rcases misplaced with ⟨a, ha, b, hb, wrong⟩ | ⟨a, ha, b, hb, wrong⟩
  · exact wrong ((prefix_insertionSort_iff sortedVideo).mp placed.1 a ha b hb)
  · exact wrong ((prefix_insertionSort_iff sortedAudio).mp placed.2 a ha b hb)

end Presentation

namespace Store

/-- The request keeps the packet positions of every presentation. -/
def KeepsIndices (readMp4 : ReadMp4) (self : Store) (request : Request) : Prop :=
  ∀ (id : Nat) before after, self.sources[id]? = some before →
    (self.control readMp4 request).1.sources[id]? = some after → before.Indexed after

theorem reorders_control {store : Store} {request : Request} {source : Presentation}
    (reached : Reached readMp4 store) (present : store.sources[request.source]? = some source)
    (reordered : source.reorders readMp4 (store.staged request.handle) request) :
    ¬ store.KeepsIndices readMp4 request := by
  intro kept
  have op := reordered.1
  refine Presentation.reorders_operate (reached_sorted reached present) reordered
    (kept request.source source _ present ?_)
  simp only [control, op, consume_sources, present, getElem?_insert_self]

theorem keepsIndices_iff {readMp4 : ReadMp4} {store : Store} (reached : Reached readMp4 store)
    (request : Request) :
    store.KeepsIndices readMp4 request ↔
      ¬ ∃ source, store.sources[request.source]? = some source ∧
        source.reorders readMp4 (store.staged request.handle) request := by
  constructor
  · rintro kept ⟨source, present, reordered⟩
    exact reorders_control reached present reordered kept
  · intro proper id before after present present'
    generalize result : store.control readMp4 request = final at present'
    have outcome := controlled readMp4 store request
    rw [result] at outcome
    have elsewhere {other : Presentation} (same : store.sources[id]? = some other)
        (same' : other = after) : before.Indexed after := by
      rw [present] at same
      cases same
      exact same' ▸ Presentation.indexed_same rfl
    cases outcome with
    | refused => exact elsewhere (by simpa using present') rfl
    | opened absent =>
      simp only [getElem?_insert] at present'
      split at present'
      · rename_i here
        rw [← LawfulEqCmp.eq_of_compare here] at present
        exact absurd (mem_iff_isSome_getElem?.mpr (by rw [present]; rfl)) absent
      · exact elsewhere present' rfl
    | closed =>
      simp only [getElem?_erase] at present'
      split at present'
      · contradiction
      · exact elsewhere present' rfl
    | operated source found =>
      simp only [getElem?_insert] at present'
      split at present'
      · rename_i here
        rw [← LawfulEqCmp.eq_of_compare here, found] at present
        cases present
        cases present'
        exact Presentation.operate_indexed (reached_sorted reached found)
          fun reordered => proper ⟨before, found, reordered⟩
      · exact elsewhere present' rfl

/-- Epoch and video decode times, in ticks, of the first buffer of the first source. -/
def videoTimes (self : Store) : Option (Nat × List Nat) := do
  let source ← self.sources[1]?
  let buffer ← source.buffers[1]?
  return (source.epoch, buffer.video.map (·.sample.dts))

theorem videoTimes_kept {self : Store} {request : Request} {old new : List Nat}
    (kept : self.KeepsIndices readMp4 request) (before : self.videoTimes = some (epoch, old))
    (after : (self.control readMp4 request).1.videoTimes = some (epoch, new)) : old <+: new := by
  simp only [videoTimes, Option.bind_eq_bind, Option.bind_eq_some_iff, Option.pure_def,
    Option.some.injEq, Prod.mk.injEq] at before after
  obtain ⟨source, present, buffer, stored, same, rfl⟩ := before
  obtain ⟨source', present', buffer', stored', same', rfl⟩ := after
  have placed := kept 1 source source' present present' (same'.trans same.symm) 1 buffer buffer'
    stored stored'
  exact placed.1.map _

/-- The frames at 0 s and 5 s are stored, and one more upload is staged: it brings
the frame at 10 s and then the one at 2 s. -/
def backwards : List Call :=
  attachClip ++ appendClip 1
    (clipInit ++ fragment 1 0 600 [([1], true)] ++ fragment 1 3000 600 [([2], true)]) ++
  (appendClip 2
    (fragment 1 6000 600 [([3], true)] ++ fragment 1 1200 600 [([4], true)])).take 1

theorem keepsIndices_backwards :
    (run readClip {} backwards).KeepsIndices readClip { op := .info, source := 1 } ↔
      ¬ ∃ source, (run readClip {} backwards).sources[1]? = some source ∧
        source.reorders readClip none { op := .info, source := 1 } :=
  keepsIndices_iff (run_reached readClip backwards (.start rfl)) _

set_option maxRecDepth 20000 in
/-- The frame at 2 s takes the place of the one at 5 s in the same epoch. -/
theorem backwards_append_moves :
    ¬ ∀ (readMp4 : ReadMp4) (store : Store) (request : Request),
      Reached readMp4 store → store.KeepsIndices readMp4 request := by
  intro all
  have kept := all readClip (run readClip {} backwards)
    { op := .append, source := 1, buffer := 1, handle := some 2 }
    (run_reached readClip _ (.start rfl))
  have before : (run readClip {} backwards).videoTimes = some (1, [0, 3000]) := by decide
  have after : ((run readClip {} backwards).control readClip
      { op := .append, source := 1, buffer := 1, handle := some 2 }).1.videoTimes =
        some (1, [0, 1200, 3000, 6000]) := by decide
  exact absurd (videoTimes_kept kept before after) (by decide)

end Store
end Chuzz.Video
