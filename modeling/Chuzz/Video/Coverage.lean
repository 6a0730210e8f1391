import Chuzz.Video.Timeline

/-! What `buffered` says, with exact times: the ranges of a track are its packets joined over small
gaps, and those of a presentation are common to all declared tracks. -/
namespace Chuzz.Video.Timeline
open Library.Intervals List

/-- The gaps that are joined. -/
def slack : ℚ := 1 / 1000000

theorem slack_nonneg : 0 ≤ slack := by norm_num [slack]

section
variable {ranges left right done found : List (Span ℚ)} {range : Span ℚ}

theorem mergeNext_joins (joins : Joins slack done found) (forward : range.start < range.stop)
    (order : ∀ m ∈ found, m.start ≤ range.start) :
    Joins slack (done ++ [range]) (mergeNext found range) ∧
      ∀ m ∈ mergeNext found range, m.start ≤ range.start := by
  rcases eq_nil_or_concat found with rfl | ⟨front, last, rfl⟩
  · exact ⟨joins.push forward nofun, fun m single => by
      rw [mem_singleton.mp single]⟩
  · have known : last ∈ front ++ [last] := mem_append_right _ mem_cons_self
    rw [concat_eq_append] at joins order ⊢
    simp only [mergeNext, getLast?_append, getLast?_singleton, Option.some_or,
      dropLast_concat]
    split
    · next close =>
      refine ⟨joins.extend forward (order last known) close, fun m member => ?_⟩
      rcases mem_append.mp member with before | single
      · exact order m (mem_append_left _ before)
      · rw [mem_singleton.mp single]
        exact order last known
    · next apart =>
      have beyond : last.stop + slack < range.start := not_le.mp apart
      refine ⟨joins.push forward fun m member => ?_, fun m member => ?_⟩
      · rcases mem_append.mp member with before | single
        · have ordered := (pairwise_append.mp joins.apart).2.2 m before last
            mem_cons_self
          exact ordered.trans ((joins.forwards last known).trans_le
            ((le_add_of_nonneg_right slack_nonneg).trans beyond.le))
        · rwa [mem_singleton.mp single]
      · rcases mem_append.mp member with before | single
        · exact order m before
        · rw [mem_singleton.mp single]

theorem foldl_joins (sorted : ranges.Pairwise (·.start ≤ ·.start))
    (forward : ∀ r ∈ ranges, r.start < r.stop) (joins : Joins slack done found)
    (order : ∀ m ∈ found, ∀ r ∈ ranges, m.start ≤ r.start) :
    Joins slack (done ++ ranges) (ranges.foldl mergeNext found) := by
  induction ranges generalizing done found with
  | nil => simpa using joins
  | cons first rest ih =>
    obtain ⟨least, sorted⟩ := pairwise_cons.mp sorted
    obtain ⟨joins, order⟩ := mergeNext_joins joins (forward first mem_cons_self) fun m member =>
      order m member first mem_cons_self
    have rested := ih sorted (fun r member => forward r (mem_cons_of_mem _ member)) joins
      fun m member r later => (order m member).trans (least r later)
    rwa [append_assoc] at rested

/-- Merging joins the intervals that are not empty over gaps of at most a microsecond. -/
theorem merge_joins (ranges : List (Span ℚ)) :
    Joins slack (ranges.filter fun r => r.start < r.stop) (merge ranges) := by
  have kept : (ranges.filter fun r => Time.isFinite r.start && Time.isFinite r.stop &&
      decide (r.start < r.stop)) = ranges.filter fun r => r.start < r.stop := rfl
  unfold merge
  set forward := ranges.filter fun r => r.start < r.stop with defined
  have sorted : (forward.insertionSort fun left right =>
      Time.ordered left.start right.start = true).Pairwise (·.start ≤ ·.start) := by
    exact (pairwise_insertionSort _ forward).imp fun ordered => by
      simpa [Time.ordered] using ordered
  have joined := foldl_joins sorted (fun r member => by
    simpa using (mem_filter.mp ((mem_insertionSort _).mp member)).2) Joins.nil nofun
  exact joined.congr fun r => by simp [mem_insertionSort]

theorem merge_separated (ranges : List (Span ℚ)) : Separated (merge ranges) :=
  (merge_joins ranges).separated slack_nonneg

theorem meets_next {a b : Span ℚ} {next next' : List (Span ℚ)}
    (separated : Separated (a :: left)) (separated' : Separated (b :: right))
    (here : Meets left (b :: right) next) (there : Meets (a :: left) right next') :
    Meets (a :: left) (b :: right)
      (if max a.start b.start < min a.stop b.stop then
        ⟨max a.start b.start, min a.stop b.stop⟩ :: (if a.stop < b.stop then next else next')
      else if a.stop < b.stop then next else next') := by
  by_cases first : a.stop < b.stop
  · rw [if_pos first]
    exact here.advance separated separated' first.le
  · rw [if_neg first, max_comm, min_comm]
    exact (there.symm.advance separated' separated (not_lt.mp first)).symm

theorem intersection_meets (separated : Separated left) (separated' : Separated right) :
    Meets left right (intersection left right) := by
  fun_induction intersection left right with
  | case1 right => exact Meets.nil_left
  | case2 left => exact Meets.nil_left.symm
  | case3 a as b bs start stop rest some ih ih' =>
    have next := meets_next separated separated' (ih separated.tail separated')
      (ih' separated separated'.tail)
    rwa [if_pos (show max a.start b.start < min a.stop b.stop from some)] at next
  | case4 a as b bs start stop rest none ih ih' =>
    have next := meets_next separated separated' (ih separated.tail separated')
      (ih' separated separated'.tail)
    rwa [if_neg (show ¬ max a.start b.start < min a.stop b.stop from none)] at next

end

/-- The declared tracks of a buffer, by their packets. -/
def Buffer.declared (self : Buffer ℚ) : List (List (Packet ℚ)) :=
  (if self.mime.video then [self.video] else []) ++ if self.mime.audio then [self.audio] else []

theorem Buffer.covered_separated (packets : List (Packet ℚ)) : Separated (covered packets) :=
  merge_separated _

theorem Buffer.ranges_separated (self : Buffer ℚ) : Separated (self.ranges none) := by
  unfold ranges
  split
  · exact (intersection_meets (covered_separated _) (covered_separated _)).separated
  · exact covered_separated _
  · exact covered_separated _
  · exact Separated.nil

theorem Buffer.ranges_inside (self : Buffer ℚ) (x : ℚ) : Inside (self.ranges none) x ↔
    self.declared ≠ [] ∧ ∀ packets ∈ self.declared, Inside (covered packets) x := by
  have meets := intersection_meets (covered_separated self.video) (covered_separated self.audio)
  unfold ranges declared
  cases video : self.mime.video <;> cases audio : self.mime.audio
  · simp [Inside]
  · simp [rangesOf]
  · simp [rangesOf]
  · simpa [rangesOf] using meets.inside_iff x

theorem foldl_intersection {first : List (Span ℚ)} {rest : List (List (Span ℚ))}
    (separated : Separated first) (separated' : ∀ ranges ∈ rest, Separated ranges) :
    Separated (rest.foldl intersection first) ∧ ∀ x, Inside (rest.foldl intersection first) x ↔
      ∀ ranges ∈ first :: rest, Inside ranges x := by
  induction rest generalizing first with
  | nil => simpa using separated
  | cons next rest ih =>
    have meets := intersection_meets separated (separated' next mem_cons_self)
    obtain ⟨apart, inside⟩ := ih meets.separated fun ranges member =>
      separated' ranges (mem_cons_of_mem _ member)
    refine ⟨apart, fun x => (inside x).trans ?_⟩
    simp only [forall_mem_cons, meets.inside_iff, and_assoc]

/-- A stream that has not ended is buffered where every declared track of every SourceBuffer is. -/
theorem Presentation.ranges_inside (self : Presentation ℚ) (open' : self.ended = false) :
    Separated self.ranges ∧ ∀ x, Inside self.ranges x ↔ self.buffers ≠ [] ∧
      ∀ buffer ∈ self.buffers, buffer.declared ≠ [] ∧
        ∀ packets ∈ buffer.declared, Inside (Buffer.covered packets) x := by
  unfold ranges
  rw [open']
  cases buffers : self.buffers with
  | nil => simp [Separated.nil, Inside]
  | cons first rest =>
    have separated' : ∀ ranges ∈ rest.map (·.ranges none), Separated ranges := by
      intro ranges member
      obtain ⟨buffer, _, rfl⟩ := mem_map.mp member
      exact buffer.ranges_separated
    obtain ⟨apart, inside⟩ := foldl_intersection first.ranges_separated separated'
    refine ⟨apart, fun x => (inside x).trans ?_⟩
    simp only [← Buffer.ranges_inside]
    simp

/-- Merging joins intervals that are not empty over small gaps, the sweep finds the common part of two
such lists, and so a stream that has not ended is buffered where all of its declared tracks are. -/
theorem buffered_exact :
    (∀ ranges : List (Span ℚ), Separated (merge ranges) ∧
      (merge ranges).Pairwise (fun a b => a.stop + slack < b.start) ∧
      (∀ r ∈ ranges, r.start < r.stop → ∃ m ∈ merge ranges, r.Within m) ∧
      ∀ m ∈ merge ranges, ∀ x, m.start ≤ x → x ≤ m.stop →
        (∃ r ∈ ranges, r.start < r.stop ∧ r.start ≤ x ∧ x ≤ r.stop) ∨
        ∃ r ∈ ranges, ∃ r' ∈ ranges, r.start < r.stop ∧ r'.start < r'.stop ∧
          r.stop ≤ x ∧ x ≤ r'.start ∧ r'.start ≤ r.stop + slack) ∧
    (∀ left right : List (Span ℚ), Separated left → Separated right →
      Separated (intersection left right) ∧
        ∀ x, Inside (intersection left right) x ↔ Inside left x ∧ Inside right x) ∧
    ∀ self : Presentation ℚ, self.ended = false → Separated self.ranges ∧
      ∀ x, Inside self.ranges x ↔ self.buffers ≠ [] ∧ ∀ buffer ∈ self.buffers,
        buffer.declared ≠ [] ∧ ∀ packets ∈ buffer.declared, Inside (Buffer.covered packets) x := by
  refine ⟨fun ranges => ?_, fun left right separated separated' => ?_, fun self open' =>
    self.ranges_inside open'⟩
  · have joins := merge_joins ranges
    refine ⟨merge_separated ranges, joins.apart, fun r member forward => ?_,
      fun m member x low high => ?_⟩
    · exact joins.covers r (mem_filter.mpr ⟨member, by simpa using forward⟩)
    · have given {r} (held : r ∈ ranges.filter fun r => r.start < r.stop) :
          r ∈ ranges ∧ r.start < r.stop := by simpa using held
      rcases joins.fills m member x low high with ⟨r, held, here⟩ | ⟨r, held, r', held', gap⟩
      · exact .inl ⟨r, (given held).1, (given held).2, here⟩
      · exact .inr ⟨r, (given held).1, r', (given held').1, (given held).2, (given held').2, gap⟩
  · have meets := intersection_meets separated separated'
    exact ⟨meets.separated, meets.inside_iff⟩

example : merge [⟨1, 2⟩, ⟨0, 1⟩] = [(⟨0, 2⟩ : Span ℚ)] := by decide +kernel

/-- One second of video and two of audio in one buffer. -/
def clip : Buffer ℚ where
  mime := ⟨true, true⟩
  tracks := []
  video := [{ track := 1, pts := 0, duration := 1, sync := true, decodeTime := 0 }]
  audio := [{ track := 2, pts := 0, duration := 2, sync := true, decodeTime := 0 }]
  offset := 0
  needSync := true

theorem buffered_exact_clip :
    Inside (Presentation.ranges ⟨[clip], false⟩) (1 / 2) ∧
      ¬ Inside (Presentation.ranges ⟨[clip], false⟩) (3 / 2) := by
  have inside := (buffered_exact.2.2 ⟨[clip], false⟩ rfl).2
  have video : Buffer.covered clip.video = [⟨0, 1⟩] := by decide +kernel
  have audio : Buffer.covered clip.audio = [⟨0, 2⟩] := by decide +kernel
  have declared : clip.declared = [clip.video, clip.audio] := rfl
  have within (x : ℚ) : Inside (Presentation.ranges ⟨[clip], false⟩) x ↔
      (0 < x ∧ x < 1) ∧ 0 < x ∧ x < 2 := by
    rw [inside]
    simp [declared, video, audio, Inside, Span.Inside]
  rw [within, within]
  norm_num

end Chuzz.Video.Timeline
