import Chuzz.Library.Polylines
import Chuzz.Canvas2D.Dashes

/-! Where a dashed line is drawn. Its pieces are the stretches whose arc length falls in an active
dash, as long as no dash ends within the tolerance behind a corner. -/
namespace Chuzz.Canvas2D.Dashes
open Library.Loops Library.Polylines Option
variable {K : Type} [Field K] [LinearOrder K] [IsStrictOrderedRing K]

/-- Where the dash begins within the pattern. -/
def boundary (pattern : List K) (index : Nat) : K := (pattern.take index).sum

/-- The phase falls in an active dash. -/
def InDash (pattern : List K) (phase : K) : Prop :=
  ∃ index < pattern.length, index % 2 = 0 ∧ boundary pattern index ≤ phase ∧
    phase < boundary pattern (index + 1)

/-- The place at arc length `s` is drawn. -/
def Dashed [FloorRing K] (pattern : List K) (offset s : K) : Prop :=
  InDash pattern (remEuclid (s + offset) pattern.sum)

/-- A dash begins at arc length `s`. -/
def Begins (pattern : List K) (offset s : K) : Prop :=
  ∃ (turns : ℤ) (index : Nat), index ≤ pattern.length ∧
    s + offset = turns * pattern.sum + boundary pattern index

/-- The tolerance changes nothing: no segment is shorter than it without being empty, and no dash
begins within it behind the start of a segment. -/
structure Clear (size : Size K (Point K)) (points : List (Point K)) (pattern : List K)
    (offset : K) : Prop where
  segments : ∀ segment ∈ segments points,
    size.of (segment.2 - segment.1) = 0 ∨ epsilon < size.of (segment.2 - segment.1)
  corners : ∀ front a b back, points = front ++ a :: b :: back → size.of (b - a) ≠ 0 →
    ∀ s, Begins pattern offset s → length size (front ++ [a]) < s →
      length size (front ++ [a]) + epsilon < s

/-! Phases. -/

section Pattern
variable {pattern : List K} (long : ∀ dash ∈ pattern, epsilon < dash)
include long

variable {index : Nat}

omit [LinearOrder K] [IsStrictOrderedRing K] long in
theorem boundary_succ (inside : index < pattern.length) :
    boundary pattern (index + 1) = boundary pattern index + pattern.getD index 0 := by
  unfold boundary
  rw [List.take_add_one, List.sum_append, List.getD_eq_getElem?_getD,
    List.getElem?_eq_getElem inside, toList_some, List.sum_singleton, getD_some]

omit [IsStrictOrderedRing K] in
theorem dash_long (inside : index < pattern.length) : epsilon < pattern.getD index 0 := by
  rw [List.getD_eq_getElem?_getD, List.getElem?_eq_getElem inside, getD_some]
  exact long _ (List.getElem_mem inside)

theorem dash_positive (inside : index < pattern.length) :
    0 < pattern.getD index 0 := epsilon_pos.trans (dash_long long inside)

theorem boundary_mono {index later : Nat} (before : index ≤ later) :
    boundary pattern index ≤ boundary pattern later := by
  induction later, before using Nat.le_induction with
  | base => exact le_rfl
  | succ later _ ih =>
    rcases Nat.lt_or_ge later pattern.length with inside | outside
    · rw [boundary_succ inside]
      exact ih.trans (le_add_of_nonneg_right (dash_positive long inside).le)
    · refine ih.trans_eq ?_
      unfold boundary
      rw [List.take_of_length_le outside, List.take_of_length_le (outside.trans (Nat.le_succ _))]

omit [LinearOrder K] [IsStrictOrderedRing K] long in
theorem boundary_length : boundary pattern pattern.length = pattern.sum := by
  unfold boundary
  rw [List.take_length]

theorem boundary_le (index : Nat) : boundary pattern index ≤ pattern.sum := by
  rcases Nat.le_total index pattern.length with inside | outside
  · exact (boundary_mono long inside).trans_eq boundary_length
  · unfold boundary
    rw [List.take_of_length_le outside]

theorem sum_long (some : pattern ≠ []) : epsilon < pattern.sum := by
  have inside := List.length_pos_iff.mpr some
  have first := boundary_succ inside
  have none : boundary pattern 0 = 0 := rfl
  have bound := boundary_le long 1
  rw [first, none, zero_add] at bound
  exact (dash_long long inside).trans_le bound

theorem inDash_iff (inside : index < pattern.length) {phase : K}
    (first : boundary pattern index ≤ phase) (last : phase < boundary pattern (index + 1)) :
    InDash pattern phase ↔ index % 2 = 0 := by
  constructor
  · rintro ⟨other, _, even, first', last'⟩
    rcases Nat.lt_trichotomy index other with before | rfl | behind
    · exact absurd (last.trans_le ((boundary_mono long before).trans first')) (lt_irrefl _)
    · exact even
    · exact absurd (last'.trans_le ((boundary_mono long behind).trans first)) (lt_irrefl _)
  · exact fun even => ⟨index, inside, even, first, last⟩

variable [FloorRing K]

omit long in
theorem remEuclid_eq (turns : ℤ) {value phase modulus : K} (split : value = turns * modulus + phase)
    (first : 0 ≤ phase) (last : phase < modulus) : remEuclid value modulus = phase := by
  have positive := first.trans_lt last
  have floor : ⌊value / modulus⌋ = turns := by
    rw [Int.floor_eq_iff, le_div_iff₀ positive, div_lt_iff₀ positive, split]
    constructor
    · linarith
    · linarith
  rw [remEuclid, floor, split, add_sub_cancel_left]

theorem dashed_iff (turns : ℤ) {offset s : K} (inside : index < pattern.length)
    (first : turns * pattern.sum + boundary pattern index ≤ s + offset)
    (last : s + offset < turns * pattern.sum + boundary pattern (index + 1)) :
    Dashed pattern offset s ↔ index % 2 = 0 := by
  have zero : (0 : K) ≤ boundary pattern index := boundary_mono long (Nat.zero_le index)
  have whole := boundary_le long (index + 1)
  have phase : remEuclid (s + offset) pattern.sum = s + offset - turns * pattern.sum :=
    remEuclid_eq turns (by ring) (by linarith) (by linarith)
  unfold Dashed
  exact inDash_iff long inside (by linarith) (by linarith)

/-! The first dash. -/

omit [FloorRing K] in
theorem findDash_finds (guard : Nat) (phase : K) (inside : index < pattern.length)
    (enough : pattern.length ≤ guard + index) (nonnegative : 0 ≤ phase)
    (below : boundary pattern index + phase < pattern.sum) :
    ∃ dash rest, findDash pattern guard index phase = (dash, rest) ∧ dash < pattern.length ∧
      0 ≤ rest ∧ rest < pattern.getD dash 0 ∧
      boundary pattern dash + rest = boundary pattern index + phase := by
  induction guard generalizing index phase with
  | zero => exact absurd inside (by omega)
  | succ guard ih =>
    unfold findDash
    dsimp only
    split
    · rename_i passed
      rw [if_pos (dash_positive long inside)]
      have next := boundary_succ inside
      have more : index + 1 < pattern.length := by
        by_contra last
        have end' : index + 1 = pattern.length := by omega
        rw [end', boundary_length] at next
        linarith
      rw [Nat.mod_eq_of_lt more]
      obtain ⟨dash, rest, found, there, first, last, same⟩ :=
        ih (phase - pattern.getD index 0) more (by omega) (sub_nonneg.mpr passed)
          (by linarith)
      exact ⟨dash, rest, found, there, first, last, by linarith⟩
    · rename_i inside'
      exact ⟨index, phase, rfl, inside, nonnegative, not_le.mp inside', rfl⟩

end Pattern

/-! The stretches. -/

/-- The stretches up to an arc length that are drawn, in order, each as long as possible. -/
structure Stretches [FloorRing K] (pattern : List K) (offset stop : K) (arcs : List (K × K)) :
    Prop where
  proper : ∀ arc ∈ arcs, arc.1 < arc.2
  apart : arcs.Pairwise fun arc later => arc.2 < later.1
  exact : ∀ s, (∃ arc ∈ arcs, arc.1 ≤ s ∧ s < arc.2) ↔ 0 ≤ s ∧ s < stop ∧ Dashed pattern offset s

namespace Stretches
variable [FloorRing K] {pattern : List K} {offset start place stop : K} {arcs : List (K × K)}

section
omit [IsStrictOrderedRing K]

theorem rest (stretches : Stretches pattern offset place arcs) (forward : place ≤ stop)
    (gap : ∀ s, place ≤ s → s < stop → ¬ Dashed pattern offset s) :
    Stretches pattern offset stop arcs := by
  refine ⟨stretches.proper, stretches.apart, fun s => ?_⟩
  rw [stretches.exact]
  constructor
  · rintro ⟨first, last, dashed⟩
    exact ⟨first, last.trans_le forward, dashed⟩
  · rintro ⟨first, last, dashed⟩
    exact ⟨first, not_le.mp fun behind => gap s behind last dashed, dashed⟩

theorem opens (stretches : Stretches pattern offset place arcs) (positive : 0 ≤ place)
    (forward : place < stop) (before : ∀ arc ∈ arcs, arc.2 < place)
    (dash : ∀ s, place ≤ s → s < stop → Dashed pattern offset s) :
    Stretches pattern offset stop (arcs ++ [(place, stop)]) := by
  refine ⟨?_, ?_, fun s => ?_⟩
  · rw [List.forall_mem_append]
    exact ⟨stretches.proper, List.forall_mem_singleton.mpr forward⟩
  · rw [List.pairwise_append]
    refine ⟨stretches.apart, List.pairwise_singleton _ _, fun arc member later last => ?_⟩
    rw [List.mem_singleton.mp last]
    exact before arc member
  · constructor
    · rintro ⟨arc, member, first, last⟩
      rcases List.mem_append.mp member with old | new
      · obtain ⟨positive, inside, dashed⟩ := (stretches.exact s).mp ⟨arc, old, first, last⟩
        exact ⟨positive, inside.trans forward, dashed⟩
      · rw [List.mem_singleton.mp new] at first last
        exact ⟨positive.trans first, last, dash s first last⟩
    · rintro ⟨first, last, dashed⟩
      rcases lt_or_ge s place with inside | behind
      · obtain ⟨arc, member, covered⟩ := (stretches.exact s).mpr ⟨first, inside, dashed⟩
        exact ⟨arc, List.mem_append_left _ member, covered⟩
      · exact ⟨_, List.mem_append_right _ (List.mem_singleton_self _), behind, last⟩

/-- Without its last dash, the pattern has been followed up to where that started. -/
theorem closes (stretches : Stretches pattern offset place (arcs ++ [(start, place)])) :
    Stretches pattern offset start arcs ∧ 0 ≤ start ∧ start < place ∧
      (∀ arc ∈ arcs, arc.2 < start) ∧
      ∀ s, start ≤ s → s < place → Dashed pattern offset s := by
  have proper := List.forall_mem_append.mp stretches.proper
  have nonempty : start < place := proper.2 _ (List.mem_singleton_self _)
  obtain ⟨apart, _, before⟩ := List.pairwise_append.mp stretches.apart
  have earlier (arc) (member : arc ∈ arcs) : arc.2 < start :=
    before arc member (start, place) (List.mem_singleton_self _)
  have known (s : K) (first : start ≤ s) (last : s < place) :=
    (stretches.exact s).mp ⟨_, List.mem_append_right _ (List.mem_singleton_self _), first, last⟩
  refine ⟨⟨proper.1, apart, fun s => ⟨?_, ?_⟩⟩, (known start le_rfl nonempty).1, nonempty, earlier,
    fun s first last => (known s first last).2.2⟩
  · rintro ⟨arc, member, first, last⟩
    obtain ⟨positive, _, dashed⟩ :=
      (stretches.exact s).mp ⟨arc, List.mem_append_left _ member, first, last⟩
    exact ⟨positive, last.trans (earlier arc member), dashed⟩
  · rintro ⟨positive, inside, dashed⟩
    obtain ⟨arc, member, first, last⟩ :=
      (stretches.exact s).mpr ⟨positive, inside.trans nonempty, dashed⟩
    rcases List.mem_append.mp member with old | new
    · exact ⟨arc, old, first, last⟩
    · rw [List.mem_singleton.mp new] at first
      exact absurd inside first.not_gt

theorem extend (stretches : Stretches pattern offset place (arcs ++ [(start, place)]))
    (forward : place < stop) (dash : ∀ s, place ≤ s → s < stop → Dashed pattern offset s) :
    Stretches pattern offset stop (arcs ++ [(start, stop)]) := by
  obtain ⟨shorter, positive, nonempty, before, known⟩ := stretches.closes
  refine shorter.opens positive (nonempty.trans forward) before fun s first last => ?_
  exact (lt_or_ge s place).elim (known s first) fun behind => dash s behind last

end

end Stretches

/-- The walk has come as far as `place`. Its dash is where it should be, its pieces are those of the
stretches `arcs`, and a piece at hand begins at `current`. -/
structure Walked [FloorRing K] (size : Size K (Point K)) (points : List (Point K))
    (pattern : List K) (offset place : K) (walk : Walk K) (arcs : List (K × K))
    (current : Option K) : Prop where
  forward : 0 ≤ place
  index : walk.index < pattern.length
  active : walk.active = true ↔ walk.index % 2 = 0
  turns : ∃ turns : ℤ, place + walk.remaining + offset =
    turns * pattern.sum + boundary pattern (walk.index + 1)
  nonnegative : 0 ≤ walk.remaining
  within : walk.remaining ≤ pattern.getD walk.index 0
  pieces : List.Forall₂ (fun arc piece => Covers size points arc.1 arc.2 piece) arcs walk.pieces
  before : ∀ arc ∈ arcs, arc.2 ≤ place + walk.remaining - pattern.getD walk.index 0
  apart : walk.active = true →
    ∀ arc ∈ arcs, arc.2 < place + walk.remaining - pattern.getD walk.index 0
  piece : match current with
    | none => walk.piece = []
    | some start => walk.active = true ∧ 1 < walk.piece.length ∧
        Covers size points start place walk.piece
  stretches : Stretches pattern offset place
    (arcs ++ (current.map fun start => (start, place)).toList)

theorem mem_segments {K : Type} (front : List (Point K)) (a b : Point K) (back : List (Point K)) :
    (a, b) ∈ segments (front ++ a :: b :: back) := by
  induction front with
  | nil => exact List.mem_cons_self
  | cons first front ih =>
    cases front with
    | nil => exact List.mem_cons_of_mem _ ih
    | cons second front => exact List.mem_cons_of_mem _ ih

section Walking
variable [FloorRing K] {size : Size K (Point K)} {points : List (Point K)} {pattern : List K}
  {offset place step : K} {walk : Walk K} {arcs : List (K × K)} {current : Option K}
  {a d : Point K} (long : ∀ dash ∈ pattern, epsilon < dash)
include long

omit [FloorRing K] [IsStrictOrderedRing K] [LinearOrder K] long in
theorem next_turns {index : Nat} (inside : index < pattern.length) {turns : ℤ} {s : K}
    (here : s = turns * pattern.sum + boundary pattern (index + 1)) :
    ∃ turns : ℤ, s + pattern.getD ((index + 1) % pattern.length) 0 =
      turns * pattern.sum + boundary pattern ((index + 1) % pattern.length + 1) := by
  rcases Nat.lt_or_ge (index + 1) pattern.length with more | last
  · refine ⟨turns, ?_⟩
    rw [Nat.mod_eq_of_lt more, boundary_succ more, here, add_assoc]
  · obtain same : index + 1 = pattern.length := by omega
    refine ⟨turns + 1, ?_⟩
    rw [same, boundary_length] at here
    rw [same, Nat.mod_self, boundary_succ (by omega), here]
    push_cast
    change _ = _ + (0 + _)
    ring

theorem Walked.turn (even : pattern.length % 2 = 0)
    (walked : Walked size points pattern offset place walk arcs current)
    (used : walk.remaining = 0) : ∃ arcs,
      Walked size points pattern offset place (walk.turn pattern) arcs none := by
  have some : 0 < pattern.length := Nat.zero_lt_of_lt walked.index
  obtain ⟨turns, ends⟩ := walked.turns
  obtain ⟨turns', ends'⟩ := next_turns walked.index ends
  have inside : (walk.index + 1) % pattern.length < pattern.length := Nat.mod_lt _ some
  have positive := dash_positive long walked.index
  have before := walked.before
  -- every dash but the last is followed by one of the other kind
  have flips : walk.active = true → ¬ (walk.index + 1) % pattern.length % 2 = 0 := by
    intro active
    have now := walked.active.mp active
    have there := walked.index
    have more : walk.index + 1 < pattern.length := by omega
    rw [Nat.mod_eq_of_lt more]
    omega
  have piece := walked.piece
  cases current with
  | none =>
    have kept : walk.keep = walk := by
      unfold Walk.keep
      rw [piece]
      rfl
    have turned : walk.turn pattern = { walk with
        index := (walk.index + 1) % pattern.length
        active := (walk.index + 1) % pattern.length % 2 = 0
        remaining := pattern.getD ((walk.index + 1) % pattern.length) 0 } := by
      unfold Walk.turn
      rw [kept]
    rw [turned]
    refine ⟨arcs, walked.forward, inside, decide_eq_true_iff, ⟨turns', by linarith⟩,
      (dash_positive long inside).le, le_rfl, walked.pieces, fun arc member => ?_,
      fun _ arc member => ?_, piece, walked.stretches⟩
    · have := before arc member
      linarith
    · have := before arc member
      linarith
  | some start =>
    obtain ⟨active, several, covers⟩ := piece
    have kept : walk.keep = { walk with pieces := walk.pieces ++ [walk.piece], piece := [] } :=
      if_pos several
    have turned : walk.turn pattern = { walk with
        index := (walk.index + 1) % pattern.length
        active := (walk.index + 1) % pattern.length % 2 = 0
        remaining := pattern.getD ((walk.index + 1) % pattern.length) 0
        pieces := walk.pieces ++ [walk.piece]
        piece := [] } := by
      unfold Walk.turn
      rw [kept]
    rw [turned]
    refine ⟨arcs ++ [(start, place)], walked.forward, inside, decide_eq_true_iff,
      ⟨turns', by linarith⟩, (dash_positive long inside).le, le_rfl,
      List.rel_append walked.pieces (.cons covers .nil), fun arc member => ?_,
      fun active' => absurd (of_decide_eq_true active') (flips active), rfl, ?_⟩
    · rw [add_sub_cancel_right]
      rcases List.mem_append.mp member with old | new
      · have := before arc old
        linarith
      · rw [List.mem_singleton.mp new]
    · rw [map_none, toList_none, List.append_nil]
      exact walked.stretches

theorem Walked.draw (walked : Walked size points pattern offset place walk arcs current)
    (unit : size.of d = 1) (forward : 0 < step) (inside : step ≤ walk.remaining)
    (straight : ∀ t, 0 ≤ t → t ≤ step → pointAt size points (place + t) = a + t • d) :
    ∃ current, Walked size points pattern offset (place + step)
      (walk.draw a (a + step • d) step) arcs current := by
  obtain ⟨turns, ends⟩ := walked.turns
  have next := boundary_succ walked.index
  have within := walked.within
  have dashed (s : K) (first : place ≤ s) (last : s < place + step) :
      Dashed pattern offset s ↔ walk.active = true := by
    rw [walked.active]
    exact dashed_iff long turns walked.index (by linarith) (by linarith)
  have ends' : place + step + (walk.remaining - step) = place + walk.remaining := by ring
  -- what a step changes besides the piece
  have moved (piece : List (Point K)) (current : Option K)
      (holds : match current with
        | none => piece = []
        | some start => walk.active = true ∧ 1 < piece.length ∧
            Covers size points start (place + step) piece)
      (stretches : Stretches pattern offset (place + step)
        (arcs ++ (current.map fun start => (start, place + step)).toList)) :
      Walked size points pattern offset (place + step)
        { walk with remaining := walk.remaining - step, piece } arcs current :=
    ⟨add_nonneg walked.forward forward.le, walked.index, walked.active,
      ⟨turns, ends'.symm ▸ ends⟩, sub_nonneg.mpr inside, (sub_le_self _ forward.le).trans within,
      walked.pieces, ends'.symm ▸ walked.before, ends'.symm ▸ walked.apart, holds, stretches⟩
  have piece := walked.piece
  have stretches := walked.stretches
  rcases Bool.eq_false_or_eq_true walk.active with active | active
  · have dash (s : K) (first : place ≤ s) (last : s < place + step) : Dashed pattern offset s :=
      (dashed s first last).mpr active
    have drawn : walk.draw a (a + step • d) step = { walk with
        remaining := walk.remaining - step
        piece := (if walk.piece = [] then [a] else walk.piece) ++ [a + step • d] } := by
      unfold Walk.draw
      rw [if_pos active]
    rw [drawn]
    cases current with
    | none =>
      rw [map_none, toList_none, List.append_nil] at stretches
      rw [if_pos (show walk.piece = [] from piece)]
      refine ⟨some place, moved [a, a + step • d] (some place)
        ⟨active, Nat.one_lt_two, .segment unit forward.le straight⟩ ?_⟩
      refine stretches.opens walked.forward (lt_add_of_pos_right _ forward)
        (fun arc member => ?_) dash
      have := walked.apart active arc member
      linarith
    | some start =>
      obtain ⟨_, several, covers⟩ := piece
      have some : walk.piece ≠ [] := List.ne_nil_of_length_pos (Nat.zero_lt_of_lt several)
      rw [if_neg some]
      refine ⟨_, moved _ (.some start) ⟨active, ?_, covers.extend some unit forward.le straight⟩ ?_⟩
      · rw [List.length_append]
        exact Nat.lt_add_right _ several
      · exact stretches.extend (lt_add_of_pos_right _ forward) dash
  · have gap (s : K) (first : place ≤ s) (last : s < place + step) : ¬ Dashed pattern offset s := by
      rw [dashed s first last, active]
      exact Bool.false_ne_true
    have drawn : walk.draw a (a + step • d) step =
        { walk with remaining := walk.remaining - step } := by
      unfold Walk.draw
      rw [if_neg (by rw [active]; exact Bool.false_ne_true)]
    rw [drawn]
    cases current with
    | none =>
      rw [map_none, toList_none, List.append_nil] at stretches
      refine ⟨none, moved _ none piece ?_⟩
      rw [map_none, toList_none, List.append_nil]
      exact stretches.rest (le_add_of_nonneg_right forward.le) gap
    | some start =>
      rw [active] at piece
      cases piece.1

/-! The loops. -/

/-- An edge of the line is travelled so far. -/
structure Travelled (size : Size K (Point K)) (points : List (Point K)) (pattern : List K)
    (offset base : K) (edge : Edge K) (travel : Travel K) : Prop where
  first : 0 ≤ travel.traveled
  last : travel.traveled ≤ edge.length
  walked : ∃ arcs current,
    Walked size points pattern offset (base + travel.traveled) travel.walk arcs current
  /-- What is left of a dash within an edge is nothing or more than the tolerance. -/
  clear : travel.traveled < edge.length →
    travel.walk.remaining = 0 ∨ epsilon < travel.walk.remaining

omit [LinearOrder K] [IsStrictOrderedRing K] [FloorRing K] long in
theorem Edge.at_forward (edge : Edge K) (traveled step : K) :
    edge.at (traveled + step) = edge.at traveled + step • edge.direction := by
  unfold Edge.at
  rw [add_smul, add_assoc]

theorem Travelled.advance {base : K} {edge : Edge K} {traveled : K}
    (unit : size.of edge.direction = 1)
    (straight : ∀ t, 0 ≤ t → t ≤ edge.length → pointAt size points (base + t) = edge.at t)
    (first : 0 ≤ traveled) (more : traveled < edge.length) (left : epsilon < walk.remaining)
    (walked : Walked size points pattern offset (base + traveled) walk arcs current) :
    Travelled size points pattern offset base edge (edge.advance traveled walk) := by
  have forward : 0 < min walk.remaining (edge.length - traveled) :=
    lt_min (epsilon_pos.trans left) (sub_pos.mpr more)
  have inside : traveled + min walk.remaining (edge.length - traveled) ≤ edge.length := by
    linarith [min_le_right walk.remaining (edge.length - traveled)]
  obtain ⟨current', drawn⟩ := walked.draw (a := edge.at traveled) long unit forward
    (min_le_left _ _) fun t first' last' => by
      rw [add_assoc, straight _ (by linarith) (by linarith), edge.at_forward]
  rw [← edge.at_forward, add_assoc] at drawn
  refine ⟨add_nonneg first forward.le, inside, ⟨arcs, current', drawn⟩, fun within => .inl ?_⟩
  change traveled + min walk.remaining (edge.length - traveled) < edge.length at within
  change walk.remaining - min walk.remaining (edge.length - traveled) = 0
  rcases min_cases walk.remaining (edge.length - traveled) with ⟨same, _⟩ | ⟨same, _⟩
  · rw [same, sub_self]
  · rw [same] at within
    linarith

theorem Travelled.round (even : pattern.length % 2 = 0) {base : K} {edge : Edge K}
    {travel : Travel K} (unit : size.of edge.direction = 1)
    (straight : ∀ t, 0 ≤ t → t ≤ edge.length → pointAt size points (base + t) = edge.at t)
    (travelled : Travelled size points pattern offset base edge travel)
    (goes : edge.goes travel = true) :
    Travelled size points pattern offset base edge (edge.round pattern travel) := by
  have more : travel.traveled < edge.length := of_decide_eq_true goes
  obtain ⟨arcs, current, walked⟩ := travelled.walked
  have turned : travel.walk.remaining ≤ epsilon → ∃ arcs, Walked size points pattern offset
      (base + travel.traveled) (travel.walk.turn pattern) arcs none := by
    intro used
    rcases travelled.clear more with none | left
    · exact walked.turn long even none
    · exact absurd used (not_le.mpr left)
  rcases edge.round_cases pattern travel with ⟨used, short, _⟩ | ⟨walk, which, left, drawn⟩
  · obtain ⟨_, walked⟩ := turned used
    exact absurd (dash_long long walked.index) (not_lt.mpr short)
  · rw [drawn]
    rcases which with ⟨rfl, used⟩ | rfl
    · obtain ⟨_, walked⟩ := turned used
      exact .advance long unit straight travelled.first more left walked
    · exact .advance long unit straight travelled.first more left walked

variable {after : Walk K}

theorem walkSegment_walked (even : pattern.length % 2 = 0) (clear : Clear size points pattern offset)
    {front back : List (Point K)} {a b : Point K} (split : points = front ++ a :: b :: back)
    (walked : Walked size points pattern offset (length size (front ++ [a])) walk arcs current)
    {rounds : Nat}
    (returned : walkSegment size.of pattern rounds walk (a, b) = some after) :
    ∃ arcs current, Walked size points pattern offset (length size (front ++ [a] ++ [b])) after arcs
      current := by
  have total : length size (front ++ [a] ++ [b]) =
      length size (front ++ [a]) + size.of (b - a) := by
    rw [List.append_assoc, List.singleton_append, length_append]
    change _ + (_ + 0) = _
    rw [add_zero]
  unfold walkSegment at returned
  dsimp only at returned
  split at returned
  · rename_i empty
    obtain rfl := Option.some.inj returned
    rcases clear.segments (a, b) (split ▸ mem_segments front a b back) with none | apart
    · rw [total, none, add_zero]
      exact ⟨arcs, current, walked⟩
    · exact absurd apart (not_lt.mpr empty)
  · rename_i apart
    obtain ⟨travel, ran, rfl⟩ := map_eq_some_iff.mp returned
    have positive : 0 < size.of (b - a) := epsilon_pos.trans (not_le.mp apart)
    have unit : size.of (edgeOf size.of a b).direction = 1 := size_direction positive
    have straight (t : K) (first : 0 ≤ t) (last : t ≤ (edgeOf size.of a b).length) :
        pointAt size points (length size (front ++ [a]) + t) = (edgeOf size.of a b).at t := by
      rw [split]
      exact pointAt_edge front a b back positive first last
    have start : Travelled size points pattern offset (length size (front ++ [a]))
        (edgeOf size.of a b) ⟨0, walk⟩ := by
      refine ⟨le_rfl, positive.le, ⟨arcs, current, by rwa [add_zero]⟩, fun _ => ?_⟩
      rcases walked.nonnegative.eq_or_lt with none | some
      · exact .inl none.symm
      · obtain ⟨turns, ends⟩ := walked.turns
        have beyond := clear.corners front a b back split positive.ne' _
          ⟨turns, walk.index + 1, walked.index, ends⟩ (lt_add_of_pos_right _ some)
        exact .inr (lt_of_add_lt_add_left beyond)
    obtain ⟨done, stopped⟩ := Returns.invariant start
      (fun travel travelled goes => travelled.round long even unit straight goes) ⟨rounds, ran⟩
    have reached : travel.traveled = size.of (b - a) :=
      le_antisymm done.last (not_lt.mp (of_decide_eq_false stopped))
    rw [total, ← reached]
    exact done.walked

theorem walkSegments_walked (even : pattern.length % 2 = 0) (clear : Clear size points pattern offset)
    (front : List (Point K)) {back : List (Point K)} {a : Point K}
    (split : points = front ++ a :: back)
    (walked : Walked size points pattern offset (length size (front ++ [a])) walk arcs current)
    {rounds : Nat}
    (returned : (segments (a :: back)).foldlM (walkSegment size.of pattern rounds) walk =
      some after) :
    ∃ arcs current, Walked size points pattern offset (length size points) after arcs current := by
  induction back generalizing front a walk arcs current with
  | nil =>
    cases returned
    exact ⟨arcs, current, split ▸ walked⟩
  | cons b back ih =>
    change ((a, b) :: segments (b :: back)).foldlM _ walk = _ at returned
    obtain ⟨middle, first, rest⟩ := bind_eq_some_iff.mp returned
    obtain ⟨_, _, walked⟩ := walkSegment_walked long even clear split walked first
    exact ih (front ++ [a]) (by rw [split, List.append_assoc, List.singleton_append]) walked rest

theorem firstWalk_walked (some : pattern ≠ []) (size : Size K (Point K)) (points : List (Point K))
    (offset : K) : Walked size points pattern offset 0 (firstWalk pattern offset) [] none := by
  have whole := epsilon_pos.trans (sum_long long some)
  have positive := remEuclid_nonneg offset whole
  have below : remEuclid offset pattern.sum < pattern.sum := by
    have floor := Int.lt_floor_add_one (offset / pattern.sum)
    rw [div_lt_iff₀ whole] at floor
    unfold remEuclid
    linarith
  obtain ⟨dash, rest, found, inside, first, last, same⟩ := findDash_finds long
    (pattern.length * 2) _ (List.length_pos_iff.mpr some) (by omega) positive
    (by change 0 + _ < _; rwa [zero_add])
  have remaining : max (pattern.getD dash 0 - rest) 0 = pattern.getD dash 0 - rest :=
    max_eq_left (sub_pos.mpr last).le
  have begun : firstWalk pattern offset =
      { index := dash, remaining := pattern.getD dash 0 - rest, active := dash % 2 = 0 } := by
    unfold firstWalk
    rw [found]
    dsimp only
    rw [remaining]
  change boundary pattern dash + rest = 0 + remEuclid offset pattern.sum at same
  rw [begun]
  refine ⟨le_rfl, inside, decide_eq_true_iff, ⟨⌊offset / pattern.sum⌋, ?_⟩, (sub_pos.mpr last).le,
    sub_le_self _ first, .nil, nofun, nofun, rfl, ⟨nofun, .nil, fun s => ?_⟩⟩
  · rw [boundary_succ inside]
    unfold remEuclid at same
    linarith
  · constructor
    · rintro ⟨_, member, _⟩
      cases member
    · rintro ⟨first, last, _⟩
      exact absurd last (not_lt.mpr first)

omit [IsStrictOrderedRing K] long in
theorem Walked.keep (walked : Walked size points pattern offset place after arcs current) : ∃ arcs,
      List.Forall₂ (fun arc piece => Covers size points arc.1 arc.2 piece) arcs after.keep.pieces ∧
        Stretches pattern offset place arcs := by
  refine ⟨_, ?_, walked.stretches⟩
  have piece := walked.piece
  unfold Walk.keep
  cases current with
  | none =>
    have few : ¬ 1 < after.piece.length := by
      rw [show after.piece = [] from piece]
      exact Nat.not_lt_zero 1
    rw [if_neg few, map_none, toList_none, List.append_nil]
    exact walked.pieces
  | some start =>
    rw [if_pos piece.2.1]
    exact List.rel_append walked.pieces (.cons piece.2.2 .nil)

end Walking

/-- Where the tolerance changes nothing, the pieces of a dashed line are its stretches whose arc
length falls in an active dash. -/
theorem dashedPieces_stretches [FloorRing K] {size : Size K (Point K)} {points : List (Point K)}
    {pattern : List K} {offset : K} (some : pattern ≠ []) (even : pattern.length % 2 = 0)
    (long : ∀ dash ∈ pattern, epsilon < dash) (clear : Clear size points pattern offset) :
    ∃ pieces arcs, (∃ rounds, dashedPieces size.of rounds points pattern offset = .some pieces) ∧
      List.Forall₂ (fun arc piece => Covers size points arc.1 arc.2 piece) arcs pieces ∧
      Stretches pattern offset (length size points) arcs := by
  have whole := sum_long long some
  have first := firstWalk_walked long some size points offset
  cases points with
  | nil =>
    exact ⟨[], [], ⟨0, rfl⟩, .nil, first.stretches⟩
  | cons a back =>
    obtain ⟨rounds, after, returned⟩ := @walkSegments_end K _ _ _ size.of _ _ _ _
      (List.head_mem some) (long _ (List.head_mem some)) (segments (a :: back)) first.index
    obtain ⟨_, _, walked⟩ := walkSegments_walked long even clear [] rfl first returned
    obtain ⟨arcs, covers, stretches⟩ := walked.keep
    refine ⟨_, arcs, ⟨rounds, ?_⟩, covers, stretches⟩
    rw [dashedPieces_walk offset rounds whole, returned, map_some]

/-- The plane. -/
noncomputable def euclideanSize : Size ℝ (Point ℝ) where
  of := euclidean
  nonneg _ := Real.sqrt_nonneg _
  smul t v := by
    change √((t * v.1) ^ 2 + (t * v.2) ^ 2) = |t| * √(v.1 ^ 2 + v.2 ^ 2)
    rw [← Real.sqrt_sq_eq_abs, ← Real.sqrt_mul (sq_nonneg t)]
    congr 1
    ring
  zero v none := by
    have squares := (Real.sqrt_eq_zero (add_nonneg (sq_nonneg v.1) (sq_nonneg v.2))).mp none
    obtain ⟨first, second⟩ :=
      (add_eq_zero_iff_of_nonneg (sq_nonneg v.1) (sq_nonneg v.2)).mp squares
    exact Prod.ext (pow_eq_zero_iff two_ne_zero |>.mp first)
      (pow_eq_zero_iff two_ne_zero |>.mp second)

theorem unitLine_clear : Clear euclideanSize unitLine [1, 1] 0 := by
  constructor
  · intro segment member
    obtain rfl : segment = ((0, 0), (1, 0)) := List.mem_singleton.mp member
    right
    change epsilon < euclidean ((1, 0) - (0, 0))
    rw [unitLine_length]
    norm_num [epsilon]
  · rintro front a b back split _ s ⟨turns, index, inside, place⟩ positive
    have short := congrArg List.length split
    rw [List.length_append] at short
    change 2 = front.length + (back.length + 2) at short
    obtain rfl : front = [] := List.eq_nil_of_length_eq_zero (by omega)
    change (0 : ℝ) < s at positive
    change (0 : ℝ) + epsilon < s
    have whole : ∃ n : ℤ, s = n := by
      have : index = 0 ∨ index = 1 ∨ index = 2 := by
        change index ≤ 2 at inside
        omega
      rcases this with rfl | rfl | rfl
      · exact ⟨turns * 2, by norm_num [boundary] at place ⊢; linarith⟩
      · exact ⟨turns * 2 + 1, by norm_num [boundary] at place ⊢; linarith⟩
      · exact ⟨turns * 2 + 2, by norm_num [boundary] at place ⊢; linarith⟩
    obtain ⟨n, rfl⟩ := whole
    have least : (1 : ℝ) ≤ n := by exact_mod_cast positive
    refine lt_of_lt_of_le ?_ least
    norm_num [epsilon]

theorem unitLine_stretches : ∃ pieces arcs,
    (∃ rounds, dashedPieces euclidean rounds unitLine [1, 1] 0 = some pieces) ∧
      List.Forall₂ (fun arc piece => Covers euclideanSize unitLine arc.1 arc.2 piece) arcs pieces ∧
      Stretches [1, 1] 0 (length euclideanSize unitLine) arcs :=
  @dashedPieces_stretches ℝ _ _ _ _ euclideanSize _ _ _ (List.cons_ne_nil _ _) rfl
    (by norm_num [epsilon]) unitLine_clear

/-- A line that is not longer than the tolerance is not drawn at all. -/
theorem short_line_missing : ¬ ∀ (points : List (Point ℝ)) (pattern : List ℝ) (offset : ℝ),
    pattern ≠ [] → pattern.length % 2 = 0 → (∀ dash ∈ pattern, epsilon < dash) →
      ∃ pieces arcs, (∃ rounds, dashedPieces euclidean rounds points pattern offset = some pieces) ∧
        List.Forall₂ (fun arc piece => Covers euclideanSize points arc.1 arc.2 piece) arcs pieces ∧
        Stretches pattern offset (length euclideanSize points) arcs := by
  intro correct
  obtain ⟨pieces, arcs, ⟨rounds, drawn⟩, covers, stretches⟩ := correct [(0, 0), (epsilon, 0)] [1, 1] 0
    (List.cons_ne_nil _ _) rfl (by norm_num [epsilon])
  have size : euclidean ((epsilon, 0) - (0, 0)) = epsilon := by
    simp [euclidean, Real.sqrt_sq epsilon_pos.le]
  rw [dashedPieces_walk 0 rounds (by norm_num [epsilon]), walkSegments_empty rounds (by
    intro segment member
    obtain rfl : segment = ((0, 0), (epsilon, 0)) := List.mem_singleton.mp member
    exact size.le)] at drawn
  have none : pieces = [] := (Option.some.inj drawn).symm
  subst none
  cases covers
  have first : (0 : ℝ) < length euclideanSize [((0, 0) : Point ℝ), (epsilon, 0)] := by
    change (0 : ℝ) < euclidean ((epsilon, 0) - (0, 0)) + 0
    rw [size, add_zero]
    exact epsilon_pos
  obtain ⟨_, member, _⟩ := (stretches.exact 0).mpr ⟨le_rfl, first, 0, by decide, rfl, by
    norm_num [boundary, remEuclid]⟩
  cases member

end Chuzz.Canvas2D.Dashes
