import Chuzz.Library.Fallible
import Chuzz.Video.Coverage

/-! What an append takes away, with exact times. Removed packets stay in the list with a mark, so that
each has its place and its reason. -/
namespace Chuzz.Video.Timeline
open Library.Intervals Library.Fallible List Bool

/-- A packet, and whether it is still stored. -/
abbrev Marked := Packet ℚ × Bool

def stored (marked : List Marked) : List (Packet ℚ) := (marked.filter (·.2)).map (·.1)

/-- Each removed packet was hit itself, or it comes after a removed packet that was hit, with no
stored sync sample in between. `due` says that there is such a packet before the list. -/
def Justified (hit : Packet ℚ → Prop) : (due : Prop) → List Marked → Prop
  | _, [] => True
  | due, (packet, here) :: rest =>
    (here = false → hit packet ∨ due) ∧
      Justified hit ((here = false ∧ hit packet) ∨ (due ∧ ¬ (here = true ∧ packet.sync = true))) rest

/-- `retainVideo`, as marks. -/
def markVideo (start stop : ℚ) : (dependent : Bool) → List Marked → List Marked
  | _, [] => []
  | dependent, (packet, false) :: rest => (packet, false) :: markVideo start stop dependent rest
  | dependent, (packet, true) :: rest =>
    let restarts := packet.sync && decide (stop ≤ packet.pts)
    let dependent := overlaps packet start stop || (dependent && !restarts)
    (packet, !(overlaps packet start stop || dependent)) :: markVideo start stop dependent rest

def markAudio (start stop : ℚ) (marked : List Marked) : List Marked :=
  marked.map fun entry => (entry.1, entry.2 && !overlaps entry.1 start stop)

section
variable {hit hit' : Packet ℚ → Prop} {start stop : ℚ} {dependent : Bool} {marked : List Marked}

theorem markVideo_packets : (markVideo start stop dependent marked).map (·.1) = marked.map (·.1) := by
  fun_induction markVideo start stop dependent marked with
  | case1 => rfl
  | case2 dependent packet rest ih => simp [ih]
  | case3 dependent packet rest restarts later ih => simp [ih]

theorem markVideo_stored : stored (markVideo start stop dependent marked) =
    retainVideo start stop dependent (stored marked) := by
  fun_induction markVideo start stop dependent marked with
  | case1 => rfl
  | case2 dependent packet rest ih => simpa [stored] using ih
  | case3 dependent packet rest restarts later ih =>
    have tail : stored ((packet, true) :: rest) = packet :: stored rest := rfl
    rw [tail, retainVideo]
    split
    · next gone =>
      have mark : (!(overlaps packet start stop || later)) = false := by
        rw [not_eq_false']
        exact gone
      rw [mark]
      exact ih
    · next stays =>
      have mark : (!(overlaps packet start stop || later)) = true := by
        rw [not_eq_true']
        exact eq_false_iff.mpr stays
      rw [mark]
      exact congrArg (packet :: ·) ih

/-- A removal keeps the reasons there were, and has one for each packet it removes. -/
theorem markVideo_justified {due due' : Prop} (justified : Justified hit due marked)
    (more : ∀ packet, hit packet → hit' packet)
    (now : ∀ packet, overlaps packet start stop = true → hit' packet) (still : due → due')
    (depends : dependent = true → due') :
    Justified hit' due' (markVideo start stop dependent marked) := by
  induction marked generalizing dependent due due' with
  | nil => trivial
  | cons entry rest ih =>
    obtain ⟨packet, here⟩ := entry
    obtain ⟨reason, rested⟩ := justified
    cases here with
    | false =>
      refine ⟨fun gone => (reason gone).imp (more packet) still, ih rested ?_ fun runs =>
        .inr ⟨depends runs, by simp⟩⟩
      rintro (⟨gone, was⟩ | ⟨was, open'⟩)
      · exact .inl ⟨gone, more packet was⟩
      · exact .inr ⟨still was, open'⟩
    | true =>
      set later := overlaps packet start stop ||
        (dependent && !(packet.sync && decide (stop ≤ packet.pts))) with defined
      have reason : later = true → hit' packet ∨ due' := fun runs => by
        rcases or_eq_true_iff.mp runs with here | depended
        · exact .inl (now packet here)
        · exact .inr (depends (and_eq_true_iff.mp depended).1)
      have same : (overlaps packet start stop || later) = later := by
        cases here : overlaps packet start stop <;> simp [defined, here]
      change Justified hit' due' ((packet, !(overlaps packet start stop || later)) ::
        markVideo start stop later rest)
      rw [same]
      refine ⟨fun gone => reason (by simpa using gone), ih rested ?_ fun runs => ?_⟩
      · rintro (⟨gone, _⟩ | ⟨was, open'⟩)
        · contradiction
        · exact .inr ⟨still was, fun ⟨_, sync⟩ => open' ⟨rfl, sync⟩⟩
      · rcases reason runs with here | depended
        · exact .inl ⟨by simp [runs], here⟩
        · exact .inr ⟨depended, by simp [runs]⟩

theorem overlaps_iff {packet : Packet ℚ} : overlaps packet start stop = true ↔
    packet.pts < stop ∧ start < packet.endTime := by simp [overlaps]

theorem markAudio_stored :
    stored (markAudio start stop marked) = retainAudio start stop (stored marked) := by
  induction marked with
  | nil => rfl
  | cons entry rest ih =>
    obtain ⟨packet, here⟩ := entry
    have keeps : (decide (stop ≤ packet.pts) || decide (packet.endTime ≤ start)) =
        !overlaps packet start stop := by
      rw [Bool.eq_iff_iff]
      simp [overlaps, not_lt, imp_iff_not_or]
    cases here with
    | false => simpa [markAudio, stored] using ih
    | true =>
      simp only [stored, markAudio, retainAudio] at ih
      cases gone : overlaps packet start stop <;>
        simp [stored, markAudio, retainAudio, gone, keeps, ih]

end

/-- The packet is presented at a time of one of these ranges. -/
def Hit (ranges : List (Span ℚ)) (packet : Packet ℚ) : Prop :=
  ∃ m ∈ ranges, packet.pts < m.stop ∧ m.start < packet.endTime

/-- No sync sample that is still stored. -/
def Unbroken (marked : List Marked) : Prop := ∀ entry ∈ marked, entry.1.sync = true → entry.2 = false

/-- Each removed packet was hit, or one before it was and no stored sync sample lies in between. -/
def Reasoned (hit : Packet ℚ → Prop) (marked : List Marked) : Prop :=
  ∀ before packet after, marked = before ++ (packet, false) :: after → hit packet ∨
    ∃ front first between, before = front ++ (first, false) :: between ∧ hit first ∧ Unbroken between

section
variable {hit : Packet ℚ → Prop} {marked : List Marked}

theorem Justified.reason {due : Prop} {before after : List Marked} {packet : Packet ℚ}
    (justified : Justified hit due (before ++ (packet, false) :: after)) :
    hit packet ∨ (due ∧ Unbroken before) ∨ ∃ front first between,
      before = front ++ (first, false) :: between ∧ hit first ∧ Unbroken between := by
  induction before generalizing due with
  | nil => exact (justified.1 rfl).imp_right fun open' => .inl ⟨open', nofun⟩
  | cons entry before ih =>
    obtain ⟨earlier, here⟩ := entry
    rcases ih justified.2 with was | ⟨⟨gone, was⟩ | ⟨was, still⟩, unbroken⟩ | found
    · exact .inl was
    · cases gone
      exact .inr (.inr ⟨[], earlier, before, rfl, was, unbroken⟩)
    · refine .inr (.inl ⟨was, fun entry member sync => ?_⟩)
      rcases mem_cons.mp member with rfl | later
      · exact eq_false_iff.mpr fun stays => still ⟨stays, sync⟩
      · exact unbroken entry later sync
    · obtain ⟨front, first, between, rfl, was, unbroken⟩ := found
      exact .inr (.inr ⟨(earlier, here) :: front, first, between, rfl, was, unbroken⟩)

theorem Justified.reasoned (justified : Justified hit False marked) : Reasoned hit marked := by
  rintro before packet after rfl
  exact justified.reason.imp_right fun open' => open'.resolve_left fun ⟨never, _⟩ => never

theorem justified_kept (packets : List (Packet ℚ)) :
    Justified hit False (packets.map fun packet => (packet, true)) := by
  induction packets with
  | nil => trivial
  | cons packet packets ih => exact ⟨nofun, by simpa using ih⟩

theorem map_kept (packets : List (Packet ℚ)) :
    (packets.map fun packet => (packet, true)).map (·.1) = packets := by
  rw [map_map]
  exact map_id packets

theorem stored_kept (packets : List (Packet ℚ)) :
    stored (packets.map fun packet => (packet, true)) = packets := by
  simp [stored, filter_map, Function.comp_def]

end

/-- What the removals of some ranges left of a buffer. -/
structure Cleared (before after : Buffer ℚ) (ranges : List (Span ℚ)) (video audio : List Marked) :
    Prop where
  ofVideo : video.map (·.1) = before.video
  ofAudio : audio.map (·.1) = before.audio
  storedVideo : stored video = after.video
  storedAudio : stored audio = after.audio
  chained : Justified (Hit ranges) False video
  direct : ∀ entry ∈ audio, entry.2 = false → Hit ranges entry.1

namespace Cleared
variable {before after : Buffer ℚ} {ranges : List (Span ℚ)} {video audio : List Marked}

theorem start : Cleared before before [] (before.video.map (·, true)) (before.audio.map (·, true)) where
  ofVideo := map_kept before.video
  ofAudio := map_kept before.audio
  storedVideo := stored_kept before.video
  storedAudio := stored_kept before.audio
  chained := justified_kept before.video
  direct := by simp

theorem remove (cleared : Cleared before after ranges video audio) (range : Span ℚ) :
    Cleared before (after.remove range.start range.stop).1 (ranges ++ [range])
      (markVideo range.start range.stop false video)
      (markAudio range.start range.stop audio) where
  ofVideo := markVideo_packets.trans cleared.ofVideo
  ofAudio := by simpa [markAudio, Function.comp_def] using cleared.ofAudio
  storedVideo := markVideo_stored.trans (congrArg _ cleared.storedVideo)
  storedAudio := markAudio_stored.trans (congrArg _ cleared.storedAudio)
  chained := markVideo_justified cleared.chained
    (fun _ ⟨m, member, meets⟩ => ⟨m, mem_append_left _ member, meets⟩)
    (fun _ meets => ⟨range, mem_append_right _ mem_cons_self, overlaps_iff.mp meets⟩)
    id nofun
  direct := by
    rintro _ member gone
    obtain ⟨entry, was, rfl⟩ := mem_map.mp member
    rcases and_eq_false_iff.mp gone with earlier | now
    · obtain ⟨m, among, meets⟩ := cleared.direct entry was earlier
      exact ⟨m, mem_append_left _ among, meets⟩
    · exact ⟨range, mem_append_right _ mem_cons_self,
        overlaps_iff.mp (by simpa using now)⟩

theorem fold (cleared : Cleared before after ranges video audio) (next : List (Span ℚ))
    (changed : Bool) : ∃ video audio,
      Cleared before (next.foldl Buffer.makeRoom (after, changed)).1 (ranges ++ next) video audio := by
  induction next generalizing after ranges video audio changed with
  | nil => exact ⟨video, audio, by simpa using cleared⟩
  | cons range next ih =>
    rw [append_cons]
    exact ih (cleared.remove range) _

end Cleared

theorem Buffer.overwrite_cleared (self : Buffer ℚ) (kept : Kept ℚ) : ∃ video audio,
    Cleared self (self.overwrite kept).1
      (merge ((kept.video ++ kept.audio).map Packet.range)) video audio := by
  simpa [overwrite] using Cleared.start.fold (merge ((kept.video ++ kept.audio).map Packet.range)) false

variable {parsed : Except MediaError (List Track × List (Packet ℚ))}

theorem Buffer.stage_stored {self staged : Buffer ℚ} {kept : Kept ℚ} {request : Request ℚ}
    (done : self.stage parsed request = .ok (staged, kept)) :
    staged.video = self.video ∧ staged.audio = self.audio := by
  obtain ⟨_, done⟩ := guard_ok done
  obtain ⟨⟨tracks, packets⟩, _, done⟩ := bind_ok done
  obtain ⟨_, done⟩ := guard_ok done
  obtain ⟨kept', _, done⟩ := bind_ok done
  cases done
  exact ⟨rfl, rfl⟩

/-- An append sorts what it left of the stored packets and the new ones into one list. -/
theorem Buffer.append_cleared {self after : Buffer ℚ} {request : Request ℚ} {changed : Bool}
    (done : self.append parsed request = .ok (after, changed)) : ∃ staged kept video audio,
      self.stage parsed request = .ok (staged, kept) ∧
      Cleared self (staged.overwrite kept).1
        (merge ((kept.video ++ kept.audio).map Packet.range)) video audio ∧
      after.video = (stored video ++ kept.video).insertionSort decodeOrder ∧
      after.audio = (stored audio ++ kept.audio).insertionSort decodeOrder := by
  obtain ⟨⟨staged, kept⟩, parsed, done⟩ := bind_ok done
  obtain ⟨_, done⟩ := guard_ok done
  obtain ⟨sameVideo, sameAudio⟩ := stage_stored parsed
  obtain ⟨video, audio, cleared⟩ := staged.overwrite_cleared kept
  cases done
  refine ⟨staged, kept, video, audio, parsed, ?_, ?_, ?_⟩
  · exact { cleared with
      ofVideo := cleared.ofVideo.trans sameVideo, ofAudio := cleared.ofAudio.trans sameAudio }
  · exact congrArg (fun packets => (packets ++ kept.video).insertionSort decodeOrder)
      cleared.storedVideo.symm
  · exact congrArg (fun packets => (packets ++ kept.audio).insertionSort decodeOrder)
      cleared.storedAudio.symm

/-- An append takes away a stored packet only where the new packets of both tracks are presented, and
the video packets that depend on such a one. -/
theorem append_removes {self after : Buffer ℚ} {request : Request ℚ} {changed : Bool}
    {parsed : Except MediaError (List Track × List (Packet ℚ))}
    (done : self.append parsed request = .ok (after, changed)) : ∃ staged kept,
      self.stage parsed request = .ok (staged, kept) ∧ ∃ video audio : List Marked,
        video.map (·.1) = self.video ∧ audio.map (·.1) = self.audio ∧
        after.video = (stored video ++ kept.video).insertionSort decodeOrder ∧
        after.audio = (stored audio ++ kept.audio).insertionSort decodeOrder ∧
        Reasoned (Hit (merge ((kept.video ++ kept.audio).map Packet.range))) video ∧
        ∀ entry ∈ audio, entry.2 = false →
          Hit (merge ((kept.video ++ kept.audio).map Packet.range)) entry.1 := by
  obtain ⟨staged, kept, video, audio, staging, cleared, newVideo, newAudio⟩ :=
    Buffer.append_cleared done
  exact ⟨staged, kept, staging, video, audio, cleared.ofVideo, cleared.ofAudio, newVideo, newAudio,
    cleared.chained.reasoned, cleared.direct⟩

example : merge [⟨2, 3⟩, ⟨0, 1⟩] = [(⟨0, 1⟩ : Span ℚ), ⟨2, 3⟩] := by decide +kernel

/-- A buffer of two tracks that stores a second second of video. -/
def second : Buffer ℚ where
  mime := ⟨true, true⟩
  tracks := [⟨1, 1, .video [] 1 1⟩, ⟨2, 1, .audio [] 1⟩]
  video := [{ track := 1, pts := 1, duration := 1, sync := true, decodeTime := 1 }]
  audio := []
  offset := 0
  needSync := false

/-- The first second of video, with half a second more of audio. -/
def first : List (Packet ℚ) :=
  [{ track := 1, pts := 0, duration := 1, sync := true, decodeTime := 0 },
    { track := 2, pts := 0, duration := 3 / 2, sync := true, decodeTime := 0 }]

def plainRequest : Request ℚ where
  timestampOffset := 0
  appendWindowStart := 0
  appendWindowEnd := none
  sequence := false

def firstKept : Kept ℚ := ⟨false, first.take 1, first.drop 1⟩

theorem append_removes_second : ∃ staged kept,
    second.stage (.ok (second.tracks, first)) plainRequest = .ok (staged, kept) ∧
      ∃ video audio : List Marked,
        video.map (·.1) = second.video ∧ audio.map (·.1) = [] ∧
        first.take 1 = (stored video ++ kept.video).insertionSort decodeOrder ∧
        first.drop 1 = (stored audio ++ kept.audio).insertionSort decodeOrder ∧
        Reasoned (Hit (merge ((kept.video ++ kept.audio).map Packet.range))) video ∧
        ∀ entry ∈ audio, entry.2 = false →
          Hit (merge ((kept.video ++ kept.audio).map Packet.range)) entry.1 :=
  @append_removes second { second with video := first.take 1, audio := first.drop 1 } plainRequest
    true (.ok (second.tracks, first)) (by decide +kernel)

example : merge [(⟨1, 1⟩ : Span ℚ)] = [] := by decide +kernel

/-- The audio that reaches into the next second takes the video there away, although no new video is
presented in that second. -/
theorem append_removes_across : ¬ ∀ (self after : Buffer ℚ) (request : Request ℚ) (changed : Bool)
    (parsed : Except MediaError (List Track × List (Packet ℚ))) (staged : Buffer ℚ) (kept : Kept ℚ),
    self.append parsed request = .ok (after, changed) →
    self.stage parsed request = .ok (staged, kept) → ∃ video audio : List Marked,
      video.map (·.1) = self.video ∧ audio.map (·.1) = self.audio ∧
      after.video = (stored video ++ kept.video).insertionSort decodeOrder ∧
      after.audio = (stored audio ++ kept.audio).insertionSort decodeOrder ∧
      Reasoned (Hit (merge (kept.video.map Packet.range))) video ∧
      ∀ entry ∈ audio, entry.2 = false → Hit (merge (kept.audio.map Packet.range)) entry.1 := by
  intro claim
  obtain ⟨video, audio, ofVideo, _, newVideo, _, reasoned, _⟩ := claim second
    { second with video := first.take 1, audio := first.drop 1 } plainRequest true
    (.ok (second.tracks, first)) second firstKept (by decide +kernel) (by decide +kernel)
  have one : (stored video).length = 0 := by
    have sizes := congrArg List.length newVideo
    simpa [firstKept, first] using sizes.symm
  have gone : video = [(second.video.head (by decide), false)] := by
    match video, ofVideo, one with
    | [(packet, false)], ofVideo, _ => simpa [second] using ofVideo
    | [(packet, true)], _, one => simp [stored] at one
  rcases reasoned [] _ [] gone with ⟨m, member, meets⟩ | ⟨front, _, between, split, _⟩
  · have ranges : merge (firstKept.video.map Packet.range) = [⟨0, 1⟩] := by decide +kernel
    rw [ranges, mem_singleton] at member
    subst member
    exact absurd meets.1 (by decide)
  · simp at split

end Chuzz.Video.Timeline
