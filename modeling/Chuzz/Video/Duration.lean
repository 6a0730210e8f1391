import Chuzz.Library.FloatOrder
import Chuzz.Video.Storage
import Chuzz.Video.Writing

/-! The duration of a ready presentation reaches the end of its last packet.
Two requests can break this: the deletion of the only buffer without tracks
makes a presentation ready under a duration that was set before, and an
unknown duration is replaced without looking at the stored packets. -/
namespace Chuzz.Video
open Std Library.TreeMapValues Library.FloatOrder List

theorem zero_number : (0 : Float).isNaN = false := by rfl

theorem zero_zero : (0 : Float).toModel.unpack = .zero .positive := by rfl

theorem infinity_infinite : infinity.toModel.unpack = .infinity .positive := by rfl

theorem infinity_unbounded : infinity.isFinite = false := by rfl

theorem infinity_number : infinity.isNaN = false := by rfl

theorem zero_le_infinity : (0 : Float) ≤ infinity := by decide

variable {a : Float}

theorem finite_lt_infinity (finite : a.isFinite = true) : a < infinity :=
  lt_infinite finite infinity_infinite

theorem fmax_number (b : Float) (number : a.isNaN = false) : (fmax a b).isNaN = false := by
  simp only [fmax, number]
  split
  · contradiction
  · split
    · exact (lt_numbers ‹_›).2
    · exact number

theorem le_fmax_left (b : Float) (number : a.isNaN = false) : a ≤ fmax a b := by
  simp only [fmax, number, Bool.false_eq_true, if_false]
  split
  · exact le_of_lt ‹_›
  · exact le_self number

theorem fmax_le_iff {a b d : Float} (ha : a.isNaN = false) (hb : b.isNaN = false)
    (hd : d.isNaN = false) : fmax a b ≤ d ↔ a ≤ d ∧ b ≤ d := by
  simp only [fmax, ha, Bool.false_eq_true, if_false]
  split
  · rename_i less
    exact ⟨fun bound => ⟨le_transitive ha hb hd (le_of_lt less) bound, bound⟩, fun both => both.2⟩
  · rename_i notLess
    exact ⟨fun bound => ⟨bound, le_transitive hb ha hd (le_of_not_lt ha hb notLess) bound⟩,
      fun both => both.1⟩

theorem foldl_fmax_number (rest : List Float) (number : a.isNaN = false) :
    (rest.foldl fmax a).isNaN = false := by
  induction rest generalizing a with
  | nil => exact number
  | cons head tail ih => exact ih (fmax_number head number)

theorem foldl_fmax_le_iff {a d : Float} {rest : List Float} (ha : a.isNaN = false)
    (hd : d.isNaN = false) (numbers : ∀ x ∈ rest, x.isNaN = false) :
    rest.foldl fmax a ≤ d ↔ a ≤ d ∧ ∀ x ∈ rest, x ≤ d := by
  induction rest generalizing a with
  | nil => simp
  | cons head tail ih =>
    have first := numbers head mem_cons_self
    rw [foldl_cons, ih (fmax_number head ha) fun x hx => numbers x (mem_cons_of_mem _ hx),
      fmax_le_iff ha first hd, forall_mem_cons, and_assoc]

theorem le_foldl_fmax (rest : List Float) (number : a.isNaN = false) : a ≤ rest.foldl fmax a := by
  induction rest generalizing a with
  | nil => exact le_self number
  | cons head tail ih =>
    have next := fmax_number head number
    exact le_transitive number next (foldl_fmax_number tail next) (le_fmax_left head number) (ih next)

namespace Buffer

/-- Every stored packet has finite times. -/
def Finite (self : Buffer) : Prop :=
  ∀ packet ∈ self.video ++ self.audio,
    packet.sample.pts.isFinite = true ∧ packet.sample.endTime.isFinite = true

/-- Every stored packet has ended by `time`. -/
def EndedBy (self : Buffer) (time : Float) : Prop :=
  ∀ packet ∈ self.video ++ self.audio, packet.sample.endTime ≤ time

theorem endTime_number (self : Buffer) : self.endTime.isNaN = false :=
  foldl_fmax_number _ zero_number

variable {self : Buffer}

theorem endTime_le_iff {time : Float} (finite : self.Finite)
    (number : time.isNaN = false) : self.endTime ≤ time ↔ 0 ≤ time ∧ self.EndedBy time := by
  rw [endTime, foldl_fmax_le_iff zero_number number]
  · rw [forall_mem_map]
    rfl
  · intro x hx
    obtain ⟨packet, member, rfl⟩ := mem_map.mp hx
    exact finite_number (finite packet member).2

theorem remove_finite (finite : self.Finite) (start stop : Float) :
    (self.remove start stop).1.Finite :=
  fun packet member => finite packet (remove_packets member)

theorem append_finite {self staged : Buffer} {bytes : Block} {changed : Bool} (finite : self.Finite)
    (appended : self.append readMp4 bytes request = .ok (staged, changed)) : staged.Finite := by
  intro packet member
  rcases append_packets appended member with stored | ⟨parsed, kept, chosen, member⟩
  · exact finite packet stored
  · obtain ⟨_, _, _, _, accepted, _⟩ := stage_ok chosen
    have inside := (accept_kept accepted packet member).1
    simp only [Request.outside, Bool.or_eq_false_iff, Bool.not_eq_false'] at inside
    exact ⟨inside.1.1.1, inside.1.1.2⟩

theorem truncated_endedBy (finite : self.Finite) {time : Float}
    (number : time.isNaN = false) : (self.remove time infinity).1.EndedBy time := by
  intro packet member
  obtain ⟨finitePts, finiteEnd⟩ := finite packet (remove_packets member)
  have below := finite_lt_infinity finitePts
  apply le_of_not_lt number (finite_number finiteEnd)
  intro later
  rcases mem_append.mp member with member | member
  · exact retainVideo_outside member ⟨below, later⟩
  · have kept := (mem_filter.mp member).2
    simp only [decide_eq_true_eq] at kept
    rcases kept with beyond | earlier
    · exact not_lt_of_le (finite_number finitePts) infinity_number beyond below
    · exact not_lt_of_le number (finite_number finiteEnd) earlier later

end Buffer

namespace Presentation

theorem endTime_number (self : Presentation) : self.endTime.isNaN = false :=
  foldl_fmax_number _ zero_number

theorem ready_iff {self : Presentation} : self.ready = true ↔
    (∃ (k : Nat) (buffer : Buffer), self.buffers[k]? = some buffer) ∧
    ∀ (k : Nat) (buffer : Buffer), self.buffers[k]? = some buffer → buffer.parser.tracks ≠ [] := by
  simp only [ready, decide_eq_true_eq, all_eq_true, ne_eq]
  constructor
  · rintro ⟨inhabited, initialized⟩
    obtain ⟨buffer, member⟩ := exists_mem_of_ne_nil _ inhabited
    obtain ⟨k, found⟩ := mem_values.mp member
    exact ⟨⟨k, buffer, found⟩, fun k buffer found => initialized buffer (mem_values.mpr ⟨k, found⟩)⟩
  · rintro ⟨⟨k, buffer, found⟩, initialized⟩
    refine ⟨ne_nil_of_mem (mem_values.mpr ⟨k, found⟩), fun buffer member => ?_⟩
    obtain ⟨k, found⟩ := mem_values.mp member
    exact initialized k buffer found

/-- Every packet of every buffer has ended by `time`. -/
def EndedBy (self : Presentation) (time : Float) : Prop :=
  ∀ (k : Nat) (buffer : Buffer), self.buffers[k]? = some buffer → buffer.EndedBy time

/-- Every stored packet has finite times. -/
def Finite (self : Presentation) : Prop :=
  ∀ (k : Nat) (buffer : Buffer), self.buffers[k]? = some buffer → buffer.Finite

theorem endTime_le_iff {self : Presentation} {time : Float} (finite : self.Finite)
    (number : time.isNaN = false) : self.endTime ≤ time ↔ 0 ≤ time ∧ self.EndedBy time := by
  have numbers : ∀ x ∈ (values self.buffers).map Buffer.endTime, x.isNaN = false := by
    intro x hx
    obtain ⟨buffer, _, rfl⟩ := mem_map.mp hx
    exact buffer.endTime_number
  rw [endTime, foldl_fmax_le_iff zero_number number numbers]
  constructor
  · rintro ⟨nonnegative, all⟩
    refine ⟨nonnegative, fun k buffer found => ?_⟩
    exact ((Buffer.endTime_le_iff (finite k buffer found) number).mp
      (all _ (mem_map_of_mem (mem_values.mpr ⟨k, found⟩)))).2
  · rintro ⟨nonnegative, all⟩
    refine ⟨nonnegative, fun x hx => ?_⟩
    obtain ⟨buffer, member, rfl⟩ := mem_map.mp hx
    obtain ⟨k, found⟩ := mem_values.mp member
    exact (Buffer.endTime_le_iff (finite k buffer found) number).mpr ⟨nonnegative, all k buffer found⟩

/-- The duration of a ready presentation, when finite, covers its packets. -/
def Covered (self : Presentation) : Prop :=
  self.ready = true → self.duration.isFinite = true → self.endTime ≤ self.duration

/-- The duration is unknown or not negative. -/
def Timed (self : Presentation) : Prop := self.duration.isNaN = true ∨ 0 ≤ self.duration

/-- The deletion of the only buffer without tracks, under a finite duration that
a packet of the other buffers outlasts. -/
def exposes (self : Presentation) (request : Request) : Prop :=
  request.op = .delete ∧ request.buffer ∈ self.buffers ∧ self.duration.isFinite = true ∧
    (∃ k, k ≠ request.buffer ∧ k ∈ self.buffers) ∧
    (∀ (k : Nat) buffer, self.buffers[k]? = some buffer →
      (buffer.parser.tracks = [] ↔ k = request.buffer)) ∧
    ∃ (k : Nat) (buffer : Buffer), k ≠ request.buffer ∧ self.buffers[k]? = some buffer ∧
      ¬ buffer.EndedBy self.duration

/-- A finite duration for a ready presentation whose duration is unknown and one
of whose packets outlasts it. -/
def undercuts (self : Presentation) (request : Request) : Prop :=
  request.op = .duration ∧ self.ended = false ∧ self.ready = true ∧ self.duration.isNaN = true ∧
    ∃ duration, request.value = some duration ∧ duration.isFinite = true ∧ 0 ≤ duration ∧
      ¬ self.EndedBy duration

variable {self : Presentation} {bytes : Option Block} {request : Request}

theorem covered_of_endedBy (finite : self.Finite)
    (bound : self.ready = true → self.duration.isFinite = true →
      0 ≤ self.duration ∧ self.EndedBy self.duration) : self.Covered := by
  intro ready known
  exact (endTime_le_iff finite (finite_number known)).mpr (bound ready known)

theorem Covered.endedBy (covered : self.Covered) (finite : self.Finite) (ready : self.ready = true)
    (known : self.duration.isFinite = true) : 0 ≤ self.duration ∧ self.EndedBy self.duration :=
  (endTime_le_iff finite (finite_number known)).mp (covered ready known)

theorem endedBy_mono {earlier later : Float} (finite : self.Finite) (he : earlier.isNaN = false)
    (hl : later.isNaN = false) (bound : self.EndedBy earlier) (after : earlier ≤ later) :
    self.EndedBy later := by
  intro k buffer found packet member
  exact le_transitive (finite_number (finite k buffer found packet member).2) he hl
    (bound k buffer found packet member) after

theorem operate_finite (finite : self.Finite) : (self.operate readMp4 bytes request).1.Finite :=
  operate_buffers finite (fun _ _ member => by simp at member)
    (fun _ _ _ _ _ _ _ _ stored appended => Buffer.append_finite stored appended)
    (fun _ stored => stored) (fun _ start stop stored => Buffer.remove_finite stored start stop)

theorem timed_extendDuration (timed : self.Timed) : self.extendDuration.Timed := by
  unfold extendDuration
  split
  · exact timed
  · split
    · exact .inr zero_le_infinity
    · split
      · rename_i known
        have number := finite_number known
        have nonnegative : 0 ≤ self.duration := timed.resolve_left (Bool.eq_false_iff.mp number)
        exact .inr (le_transitive zero_number number (fmax_number _ number) nonnegative
          (le_fmax_left _ number))
      · exact timed

theorem endTime_nonnegative (self : Presentation) : 0 ≤ self.endTime :=
  le_foldl_fmax _ zero_number

theorem operate_timed (timed : self.Timed) : (self.operate readMp4 bytes request).1.Timed := by
  generalize result : self.operate readMp4 bytes request = final
  have outcome := operated readMp4 self bytes request
  rw [result] at outcome
  cases outcome with
  | appended block old staged changed =>
    apply timed_extendDuration
    split <;> exact timed
  | removed => simp only; split <;> exact timed
  | resized duration op given notNegative number =>
    exact .inr (le_of_not_lt number zero_number notNegative)
  | ended | misended => exact .inr self.endTime_nonnegative
  | refused | unchanged | added | deleted | reopened | aborted | lived => exact timed

variable {other : Presentation}

theorem covered_same (covered : self.Covered)
    (buffers : other.buffers = self.buffers) (duration : other.duration = self.duration) :
    other.Covered := by
  simpa only [Covered, ready, endTime, buffers, duration] using covered

/-- Replacing a buffer by one with the same tracks and no later packet. -/
theorem covered_setBuffer (covered : self.Covered) (finite : self.Finite)
    {k : Nat} {old new : Buffer} (found : self.buffers[k]? = some old)
    (buffers : other.buffers = self.buffers.insert k new)
    (duration : other.duration = self.duration)
    (tracks : new.parser.tracks = old.parser.tracks)
    (fewer : ∀ packet ∈ new.video ++ new.audio, packet ∈ old.video ++ old.audio) :
    other.Covered := by
  have looked : ∀ (k' : Nat) buffer, other.buffers[k']? = some buffer →
      ∃ before, self.buffers[k']? = some before ∧
        buffer.parser.tracks = before.parser.tracks ∧
        ∀ packet ∈ buffer.video ++ buffer.audio, packet ∈ before.video ++ before.audio := by
    intro k' buffer present
    rw [buffers, ExtTreeMap.getElem?_insert] at present
    split at present
    · rename_i same
      cases present
      exact ⟨old, LawfulEqCmp.eq_of_compare same ▸ found, tracks, fewer⟩
    · exact ⟨buffer, present, rfl, fun _ member => member⟩
  have finite' : other.Finite := by
    intro k' buffer present packet member
    obtain ⟨before, present', _, fewer⟩ := looked k' buffer present
    exact finite k' before present' packet (fewer packet member)
  refine covered_of_endedBy finite' fun ready known => ?_
  obtain ⟨_, initialized⟩ := ready_iff.mp ready
  have ready' : self.ready = true := by
    refine ready_iff.mpr ⟨⟨k, old, found⟩, fun k' before present => ?_⟩
    by_cases here : k = k'
    · subst here
      rw [found] at present
      cases present
      exact tracks ▸ initialized k new (by rw [buffers, ExtTreeMap.getElem?_insert_self])
    · exact initialized k' before (by
        rw [buffers, ExtTreeMap.getElem?_insert, if_neg (by simpa using here)]
        exact present)
  rw [duration] at known ⊢
  obtain ⟨nonnegative, bound⟩ := covered.endedBy finite ready' known
  refine ⟨nonnegative, fun k' buffer present packet member => ?_⟩
  obtain ⟨before, present', _, fewer⟩ := looked k' buffer present
  exact bound k' before present' packet (fewer packet member)

theorem covered_extendDuration : self.extendDuration.Covered := by
  intro ready known
  have ready' : self.ready = true := by
    simpa only [Presentation.ready, extendDuration_buffers] using ready
  have same : self.extendDuration.endTime = self.endTime := by
    simp only [endTime, extendDuration_buffers]
  simp only [extendDuration, ready', not_true_eq_false, if_false] at known ⊢
  split at known
  · rw [infinity_unbounded] at known
    contradiction
  · rename_i number
    split at known
    · rename_i finiteDuration
      rw [if_neg number, if_pos finiteDuration]
      have fits := fmax_number self.endTime (finite_number finiteDuration)
      exact ((fmax_le_iff (finite_number finiteDuration) self.endTime_number fits).mp
        (le_self fits)).2
    · rename_i unbounded
      exact absurd known unbounded

theorem covered_erase (covered : self.Covered) (timed : self.Timed) (finite : self.Finite)
    (present : request.buffer ∈ self.buffers) (op : request.op = .delete)
    (proper : ¬ self.exposes request)
    (buffers : other.buffers = self.buffers.erase request.buffer)
    (duration : other.duration = self.duration) : other.Covered := by
  have kept : ∀ (k : Nat) buffer, other.buffers[k]? = some buffer ↔
      k ≠ request.buffer ∧ self.buffers[k]? = some buffer := by
    intro k buffer
    rw [buffers, ExtTreeMap.getElem?_erase]
    by_cases here : request.buffer = k
    · simp [here]
    · simp [here, Ne.symm here]
  have finite' : other.Finite := fun k buffer found =>
    finite k buffer ((kept k buffer).mp found).2
  refine covered_of_endedBy finite' fun ready known => ?_
  obtain ⟨⟨k, buffer, found⟩, initialized⟩ := ready_iff.mp ready
  rw [duration] at known ⊢
  have nonnegative : 0 ≤ self.duration := timed.resolve_left
    (Bool.eq_false_iff.mp (finite_number known))
  refine ⟨nonnegative, ?_⟩
  obtain ⟨gone, stored⟩ : ∃ gone, self.buffers[request.buffer]? = some gone :=
    Option.isSome_iff_exists.mp (ExtTreeMap.mem_iff_isSome_getElem?.mp present)
  by_cases tracks : gone.parser.tracks = []
  · intro k' other' found'
    by_contra late
    have elsewhere := (kept k buffer).mp found
    refine proper ⟨op, present, known, ⟨k, elsewhere.1, ?_⟩, ?_, k', other', ?_⟩
    · exact ExtTreeMap.mem_iff_isSome_getElem?.mpr (by rw [elsewhere.2]; rfl)
    · intro i b present'
      constructor
      · intro empty
        by_contra different
        exact initialized i b ((kept i b).mpr ⟨different, present'⟩) empty
      · rintro rfl
        rw [stored] at present'
        cases present'
        exact tracks
    · exact ⟨((kept k' other').mp found').1, ((kept k' other').mp found').2, late⟩
  · have ready' : self.ready = true := by
      refine ready_iff.mpr ⟨⟨_, gone, stored⟩, fun i b present' => ?_⟩
      by_cases here : i = request.buffer
      · subst here
        rw [stored] at present'
        cases present'
        exact tracks
      · exact initialized i b ((kept i b).mpr ⟨here, present'⟩)
    intro i b found'
    exact (covered.endedBy finite ready' known).2 i b ((kept i b).mp found').2

theorem covered_resize {duration : Float} (covered : self.Covered) (timed : self.Timed)
    (finite : self.Finite) (op : request.op = .duration) (notEnded : self.ended = false)
    (given : duration = request.value.getD infinity) (notNegative : ¬ duration < 0)
    (number : duration.isNaN = false) (proper : ¬ self.undercuts request)
    (finite' : Presentation.Finite
      { (if duration < self.duration then self.truncate duration else self) with duration }) :
    Presentation.Covered
      { (if duration < self.duration then self.truncate duration else self) with duration } := by
  have nonnegative := le_of_not_lt number zero_number notNegative
  refine covered_of_endedBy finite' fun ready known => ⟨nonnegative, ?_⟩
  by_cases shorter : duration < self.duration
  · intro k buffer present
    simp only [if_pos shorter, truncate, bump_buffers, ExtTreeMap.getElem?_map,
      Option.map_eq_some_iff] at present
    obtain ⟨old, found, rfl⟩ := present
    exact Buffer.truncated_endedBy (finite k old found) number
  · simp only [if_neg shorter] at ready ⊢
    have ready' : self.ready = true := ready
    change self.EndedBy duration
    cases unknown : self.duration.isNaN with
    | true =>
      by_contra late
      obtain ⟨value, chosen⟩ : ∃ value, request.value = some value := by
        cases chosen : request.value with
        | some value => exact ⟨value, rfl⟩
        | none =>
          rw [given, chosen, Option.getD_none, infinity_unbounded] at known
          contradiction
      rw [chosen, Option.getD_some] at given
      subst given
      exact proper ⟨op, notEnded, ready', unknown, duration, chosen, known, nonnegative, late⟩
    | false =>
      have longer : self.duration ≤ duration := le_of_not_lt number unknown shorter
      cases bounded : self.duration.isFinite with
      | true => exact endedBy_mono finite unknown number (covered.endedBy finite ready' bounded).2 longer
      | false =>
        have positive : 0 ≤ self.duration := timed.resolve_left
          (Bool.eq_false_iff.mp unknown)
        exact absurd (lt_infinite known (infinite_of_nonnegative zero_zero unknown positive bounded))
          shorter

theorem operate_covered (covered : self.Covered) (timed : self.Timed) (finite : self.Finite)
    (proper : ¬ self.exposes request) (proper' : ¬ self.undercuts request) :
    (self.operate readMp4 bytes request).1.Covered := by
  have finite' : (self.operate readMp4 bytes request).1.Finite := operate_finite finite
  generalize result : self.operate readMp4 bytes request = final at finite'
  have outcome := operated readMp4 self bytes request
  rw [result] at outcome
  cases outcome with
  | refused | unchanged | reopened | lived => exact covered_same covered rfl rfl
  | added mime =>
    intro ready
    have initialized := (ready_iff.mp ready).2 request.buffer { mime }
      (by rw [bump_buffers, setBuffer_buffers, ExtTreeMap.getElem?_insert_self])
    exact absurd rfl initialized
  | deleted op present => exact covered_erase covered timed finite present op proper rfl rfl
  | appended => exact covered_extendDuration
  | aborted old found =>
    exact covered_setBuffer covered finite found rfl rfl rfl (fun _ member => member)
  | removed old stop found =>
    split <;> exact covered_setBuffer covered finite found rfl rfl rfl
      (fun _ member => Buffer.remove_packets member)
  | resized duration op given notNegative number notEnded =>
    exact covered_resize covered timed finite op notEnded given notNegative number proper' finite'
  | ended | misended =>
    intro _ _
    exact le_self self.endTime_number

theorem exposes_uncovers (finite : self.Finite) (exposed : self.exposes request) :
    ¬ (self.operate readMp4 bytes request).1.Covered := by
  obtain ⟨op, present, known, ⟨k, other, inside⟩, tracks, i, buffer, different, found, late⟩ := exposed
  have result : (self.operate readMp4 bytes request).1 =
      { self with buffers := self.buffers.erase request.buffer }.bump := by
    simp only [operate, op, delete, if_pos present]
  have finite' : (self.operate readMp4 bytes request).1.Finite := operate_finite finite
  rw [result] at finite' ⊢
  have kept : ∀ (k : Nat) buffer, (self.buffers.erase request.buffer)[k]? = some buffer ↔
      k ≠ request.buffer ∧ self.buffers[k]? = some buffer := by
    intro k buffer
    rw [ExtTreeMap.getElem?_erase]
    by_cases here : request.buffer = k
    · simp [here]
    · simp [here, Ne.symm here]
  intro covered
  have ready : ({ self with buffers := self.buffers.erase request.buffer } :
      Presentation).bump.ready = true := by
    refine ready_iff.mpr ⟨⟨i, buffer, (kept i buffer).mpr ⟨different, found⟩⟩, fun j b stored => ?_⟩
    obtain ⟨elsewhere, stored⟩ := (kept j b).mp stored
    exact fun empty => elsewhere ((tracks j b stored).mp empty)
  have bound := (covered.endedBy finite' ready known).2
  exact late (bound i buffer ((kept i buffer).mpr ⟨different, found⟩))

theorem undercuts_uncovers (finite : self.Finite) (undercut : self.undercuts request) :
    ¬ (self.operate readMp4 bytes request).1.Covered := by
  obtain ⟨op, notEnded, ready, unknown, duration, given, known, nonnegative, late⟩ := undercut
  have number := finite_number known
  have result : (self.operate readMp4 bytes request).1 = { self with duration } := by
    have permitted : ¬ (duration < 0 ∨ duration.isNaN = true ∨ self.ended = true) := by
      rintro (negative | unknown | ended)
      · exact not_lt_of_le number zero_number nonnegative negative
      · rw [number] at unknown
        contradiction
      · simp [notEnded] at ended
    simp only [operate, op, setDuration, given, Option.getD_some, if_neg permitted,
      if_neg (not_lt_nan_right unknown)]
  rw [result]
  intro covered
  exact late (covered.endedBy finite ready known).2

theorem operate_covered_iff (covered : self.Covered) (timed : self.Timed) (finite : self.Finite) :
    (self.operate readMp4 bytes request).1.Covered ↔
      ¬ self.exposes request ∧ ¬ self.undercuts request :=
  ⟨fun after => ⟨fun exposed => exposes_uncovers finite exposed after,
    fun undercut => undercuts_uncovers finite undercut after⟩,
    fun proper => operate_covered covered timed finite proper.1 proper.2⟩

end Presentation

namespace Store

/-- A call that neither exposes a short duration nor sets one. -/
def durationSafe (self : Store) (call : Call) : Prop :=
  ∀ request source, call = .control request → self.sources[request.source]? = some source →
    ¬ source.exposes request ∧ ¬ source.undercuts request

example : (fmax 0 1 == 1) = true := by decide +kernel

theorem safe_of_op {self : Store} {call : Call}
    (other : ∀ request, call = .control request → request.op ≠ .delete ∧ request.op ≠ .duration) :
    self.durationSafe call := by
  intro request source same _
  obtain ⟨notDelete, notDuration⟩ := other request same
  exact ⟨fun exposed => notDelete exposed.1, fun undercut => notDuration undercut.1⟩

example : ({} : Presentation).endTime = 0 := by decide +kernel

/-- Ten seconds of video in the first buffer, an empty second buffer, a duration
of one second, and the second buffer is gone again. -/
def deletedBuffer : List Call :=
  [.control { op := .open, source := 1 },
    .control { op := .add, source := 1, buffer := 1, mime := "video/mp4; codecs=avc1.64000d" },
    .control { op := .add, source := 1, buffer := 2, mime := "audio/mp4" }] ++
  appendClip 1 (clipVideoInit ++ fragment 1 0 6000 [([1], true)]) ++
  [.control { op := .duration, source := 1, value := some 1 },
    .control { op := .delete, source := 1, buffer := 2 }]

end Store
end Chuzz.Video
