import Chuzz.Library.Loops

/-! The pieces of a dashed line, for hit testing. Numbers are those of a field with a floor, and the
length of a vector is a parameter, so that the arithmetic is exact. -/
namespace Chuzz.Canvas2D.Dashes
open Library.Loops List

abbrev Point (K : Type) := K × K

variable {K : Type} [Field K] [LinearOrder K]

/-- `f64::EPSILON` -/
def epsilon : K := 1 / 2 ^ 52

/-- What the loops carry. -/
structure Walk (K : Type) where
  index : Nat
  remaining : K
  active : Bool
  pieces : List (List (Point K)) := []
  piece : List (Point K) := []

/-- A piece is kept if it has more than one point. -/
def Walk.keep (walk : Walk K) : Walk K :=
  if 1 < walk.piece.length then
    { walk with pieces := walk.pieces ++ [walk.piece], piece := [] }
  else walk

/-- On to the next dash. -/
def Walk.turn (pattern : List K) (walk : Walk K) : Walk K :=
  let walk := walk.keep
  let index := (walk.index + 1) % pattern.length
  { walk with index, active := index % 2 = 0, remaining := pattern.getD index 0 }

/-- A step of a dash, which is drawn if the dash is active. -/
def Walk.draw (walk : Walk K) (start stop : Point K) (step : K) : Walk K :=
  { walk with
    remaining := walk.remaining - step
    piece := if walk.active then
        (if walk.piece = [] then [start] else walk.piece) ++ [stop]
      else walk.piece }

/-- An edge while it is travelled. -/
structure Travel (K : Type) where
  traveled : K
  walk : Walk K

/-- A line from `a` that is so long in this direction. -/
structure Edge (K : Type) where
  a : Point K
  direction : Point K
  length : K

def Edge.at (edge : Edge K) (traveled : K) : Point K := edge.a + traveled • edge.direction

/-- The rest of the dash, or of the edge. -/
def Edge.advance (edge : Edge K) (traveled : K) (walk : Walk K) : Travel K :=
  let step := min walk.remaining (edge.length - traveled)
  ⟨traveled + step, walk.draw (edge.at traveled) (edge.at (traveled + step)) step⟩

/-- One round of the loop over an edge. -/
def Edge.round (pattern : List K) (edge : Edge K) (travel : Travel K) : Travel K :=
  if travel.walk.remaining ≤ epsilon then
    let walk := travel.walk.turn pattern
    if walk.remaining ≤ epsilon then ⟨travel.traveled, walk⟩
    else edge.advance travel.traveled walk
  else edge.advance travel.traveled travel.walk

def Edge.goes (edge : Edge K) (travel : Travel K) : Bool := travel.traveled < edge.length

/-- The edge between two points. -/
def edgeOf (hypot : Point K → K) (a b : Point K) : Edge K :=
  ⟨a, (hypot (b - a))⁻¹ • (b - a), hypot (b - a)⟩

/-- A segment of the line; one without a length is left out. -/
def walkSegment (hypot : Point K → K) (pattern : List K) (rounds : Nat) (walk : Walk K)
    (segment : Point K × Point K) : Option (Walk K) :=
  let edge := edgeOf hypot segment.1 segment.2
  if edge.length ≤ epsilon then some walk
  else (loop edge.goes (edge.round pattern) rounds ⟨0, walk⟩).map (·.walk)

/-- `points.windows(2)` -/
def segments (points : List (Point K)) : List (Point K × Point K) := points.zip points.tail

def remEuclid [FloorRing K] (value modulus : K) : K := value - ⌊value / modulus⌋ * modulus

/-- The dash for a phase and what is left of the phase; `guard` attempts are left. -/
def findDash (pattern : List K) : (guard index : Nat) → (phase : K) → Nat × K
  | 0, index, phase => (index, phase)
  | guard + 1, index, phase =>
    let dash := pattern.getD index 0
    if dash ≤ phase then
      findDash pattern guard ((index + 1) % pattern.length)
        (if 0 < dash then phase - dash else phase)
    else (index, phase)

/-- What is carried into the first edge. -/
def firstWalk [FloorRing K] (pattern : List K) (offset : K) : Walk K :=
  let (index, phase) := findDash pattern (pattern.length * 2) 0 (remEuclid offset pattern.sum)
  { index, remaining := max (pattern.getD index 0 - phase) 0, active := index % 2 = 0 }

/-- The pieces, if no edge takes more than so many rounds. -/
def dashedPieces [FloorRing K] (hypot : Point K → K) (rounds : Nat) (points : List (Point K))
    (pattern : List K) (offset : K) : Option (List (List (Point K))) :=
  if points.length < 2 then some []
  else if pattern.sum ≤ epsilon then some [points]
  else
    ((segments points).foldlM (walkSegment hypot pattern rounds) (firstWalk pattern offset)).map
      (·.keep.pieces)

/-- What `stroke` checks of the dashes. -/
def checkDash (dash : List K) : Except String Unit :=
  if 1024 < dash.length ∨ ∃ n ∈ dash, n < 0 ∨ 10 ^ 7 < n then throw "invalid canvas stroke"
  else .ok ()

/-! Whether a dashed line comes to an end. -/

theorem Walk.keep_index {K : Type} (walk : Walk K) : walk.keep.index = walk.index := by
  unfold keep
  split <;> rfl

theorem segments_few {K : Type} {points : List (Point K)} (few : points.length < 2) :
    segments points = [] := by
  match points, few with
  | [], _ => rfl
  | [_], _ => rfl

variable {K : Type} [Field K] [LinearOrder K] [IsStrictOrderedRing K] {hypot : Point K → K}
  {pattern : List K} {edge : Edge K} {travel : Travel K} {walk : Walk K}

theorem epsilon_pos : (0 : K) < epsilon := div_pos one_pos (pow_pos two_pos 52)

section
omit [LinearOrder K] [IsStrictOrderedRing K]

theorem Walk.turn_index (pattern : List K) (walk : Walk K) :
    (walk.turn pattern).index = (walk.index + 1) % pattern.length := by
  unfold turn
  dsimp only
  rw [keep_index]

theorem Walk.turn_remaining (walk : Walk K) :
    (walk.turn pattern).remaining = pattern.getD (walk.turn pattern).index 0 := rfl

end

omit [IsStrictOrderedRing K] in
theorem Edge.round_cases (pattern : List K) (edge : Edge K) (travel : Travel K) :
    (travel.walk.remaining ≤ epsilon ∧ (travel.walk.turn pattern).remaining ≤ epsilon ∧
        edge.round pattern travel = ⟨travel.traveled, travel.walk.turn pattern⟩) ∨
      ∃ walk, (walk = travel.walk.turn pattern ∧ travel.walk.remaining ≤ epsilon ∨
          walk = travel.walk) ∧
        epsilon < walk.remaining ∧ edge.round pattern travel = edge.advance travel.traveled walk := by
  unfold round
  dsimp only
  by_cases used : travel.walk.remaining ≤ epsilon
  · rw [if_pos used]
    by_cases short : (travel.walk.turn pattern).remaining ≤ epsilon
    · exact .inl ⟨used, short, if_pos short⟩
    · exact .inr ⟨_, .inl ⟨rfl, used⟩, not_le.mp short, if_neg short⟩
  · exact .inr ⟨_, .inr rfl, not_le.mp used, if_neg used⟩

/-! Some dash is long enough. -/

/-- How many dashes are passed until that at `target` is the next one. -/
def distance (count target index : Nat) : Nat := (target + (count - 1 - index)) % count

theorem distance_lt {count target index : Nat} (some : 0 < count) :
    distance count target index < count := Nat.mod_lt _ some

theorem distance_next {count target index : Nat} (inside : index < count)
    (there : target < count) (apart : (index + 1) % count ≠ target) :
    distance count target ((index + 1) % count) < distance count target index := by
  unfold distance
  rcases Nat.lt_or_ge (index + 1) count with before | last
  · rw [Nat.mod_eq_of_lt before] at apart ⊢
    rcases Nat.lt_or_ge index target with behind | past
    · rw [Nat.mod_eq_sub_mod (a := target + (count - 1 - index)) (by omega),
        Nat.mod_eq_of_lt (a := target + (count - 1 - index) - count) (by omega),
        Nat.mod_eq_sub_mod (by omega), Nat.mod_eq_of_lt (by omega)]
      omega
    · rw [Nat.mod_eq_of_lt (a := target + (count - 1 - index)) (by omega),
        Nat.mod_eq_of_lt (by omega)]
      omega
  · obtain rfl : index + 1 = count := by omega
    rw [Nat.mod_self] at apart ⊢
    rw [Nat.mod_eq_sub_mod (by omega), Nat.mod_eq_of_lt (by omega), Nat.mod_eq_of_lt (by omega)]
    omega

/-- How many rounds are left at most: each drawing round goes on by more than the tolerance, and
between two of them each dash is passed once. -/
def left [FloorRing K] (pattern : List K) (edge : Edge K) (target : Nat) (travel : Travel K) : Nat :=
  ⌈(edge.length - travel.traveled) / epsilon⌉₊ * pattern.length +
    distance pattern.length target travel.walk.index

theorem advance_left [FloorRing K] (some : 0 < pattern.length) (target : Nat) {traveled : K}
    (inside : traveled < edge.length) (long : epsilon < walk.remaining) (before : Travel K)
    (same : before.traveled = traveled) :
    left pattern edge target (edge.advance traveled walk) < left pattern edge target before := by
  have fewer : ⌈(edge.length - (edge.advance traveled walk).traveled) / epsilon⌉₊ + 1 ≤
      ⌈(edge.length - before.traveled) / epsilon⌉₊ := by
    rw [same]
    change ⌈(edge.length - (traveled + min walk.remaining (edge.length - traveled))) / epsilon⌉₊ + 1
      ≤ _
    rcases le_total walk.remaining (edge.length - traveled) with within | reaches
    · rw [min_eq_left within, ← Nat.ceil_add_one (div_nonneg (by linarith) epsilon_pos.le)]
      refine Nat.ceil_mono ?_
      rw [div_add_one epsilon_pos.ne', div_le_div_iff_of_pos_right epsilon_pos]
      linarith
    · rw [min_eq_right reaches, add_sub_cancel, sub_self, zero_div, Nat.ceil_zero]
      exact Nat.ceil_pos.mpr (div_pos (sub_pos.mpr inside) epsilon_pos)
  have bound : distance pattern.length target (edge.advance traveled walk).walk.index <
      pattern.length := distance_lt some
  unfold left
  nlinarith

theorem edge_returns [FloorRing K] {dash : K} (member : dash ∈ pattern) (long : epsilon < dash)
    (edge : Edge K) (travel : Travel K) (inside : travel.walk.index < pattern.length) :
    ∃ after, Returns edge.goes (edge.round pattern) travel after := by
  obtain ⟨target, there, rfl⟩ := mem_iff_getElem.mp member
  have some : 0 < pattern.length := Nat.zero_lt_of_lt there
  refine returns_of_measure (I := fun travel => travel.walk.index < pattern.length)
    (left pattern edge target) inside fun travel inside goes => ?_
  rcases edge.round_cases pattern travel with ⟨_, short, passed⟩ | ⟨walk, which, long, drawn⟩
  · have turned := travel.walk.turn_index pattern
    rw [passed]
    refine ⟨by rw [turned]; exact Nat.mod_lt _ some, ?_⟩
    have apart : (travel.walk.index + 1) % pattern.length ≠ target := by
      intro same
      rw [Walk.turn_remaining, turned, same, getD_eq_getElem?_getD,
        getElem?_eq_getElem there, Option.getD_some] at short
      exact absurd long (not_lt.mpr short)
    unfold left
    rw [turned]
    exact Nat.add_lt_add_left (distance_next inside there apart) _
  · rw [drawn]
    refine ⟨?_, advance_left some target (of_decide_eq_true goes) long travel rfl⟩
    rcases which with ⟨rfl, _⟩ | rfl
    · change (travel.walk.turn pattern).index < _
      rw [Walk.turn_index]
      exact Nat.mod_lt _ some
    · exact inside

omit [IsStrictOrderedRing K] in
theorem round_index (some : 0 < pattern.length) (inside : travel.walk.index < pattern.length) :
    (edge.round pattern travel).walk.index < pattern.length := by
  rcases edge.round_cases pattern travel with ⟨_, _, passed⟩ | ⟨walk, which, _, drawn⟩
  · rw [passed, Walk.turn_index]
    exact Nat.mod_lt _ some
  · rw [drawn]
    rcases which with ⟨rfl, _⟩ | rfl
    · change (travel.walk.turn pattern).index < _
      rw [Walk.turn_index]
      exact Nat.mod_lt _ some
    · exact inside

/-! Every dash is too short. -/

omit [IsStrictOrderedRing K] in
theorem edge_diverges (short : ∀ dash ∈ pattern, dash ≤ epsilon) (some : 0 < pattern.length)
    (rounds : Nat) (used : travel.walk.remaining ≤ epsilon)
    (inside : travel.traveled < edge.length) :
    loop edge.goes (edge.round pattern) rounds travel = none := by
  refine loop_diverges
    (I := fun travel : Travel K =>
      travel.walk.remaining ≤ epsilon ∧ travel.traveled < edge.length)
    ⟨used, inside⟩ (fun _ kept => decide_eq_true kept.2) (fun travel kept => ?_) rounds
  have turned : (travel.walk.turn pattern).remaining ≤ epsilon := by
    rw [Walk.turn_remaining, Walk.turn_index, getD_eq_getElem?_getD,
      getElem?_eq_getElem (Nat.mod_lt _ some)]
    exact short _ (getElem_mem _)
  rcases edge.round_cases pattern travel with ⟨_, _, passed⟩ | ⟨walk, which, long, _⟩
  · rw [passed]
    exact ⟨turned, kept.2⟩
  · rcases which with ⟨rfl, _⟩ | rfl
    · exact absurd long (not_lt.mpr turned)
    · exact absurd long (not_lt.mpr kept.1)

/-! The whole line. -/

omit [IsStrictOrderedRing K] in
theorem findDash_index (some : 0 < pattern.length) (guard : Nat) {index : Nat}
    (inside : index < pattern.length) (phase : K) :
    (findDash pattern guard index phase).1 < pattern.length := by
  induction guard generalizing index phase with
  | zero => exact inside
  | succ guard ih =>
    unfold findDash
    dsimp only
    split
    · exact ih (Nat.mod_lt _ some) _
    · exact inside

theorem findDash_phase (guard index : Nat) {phase : K} (nonnegative : 0 ≤ phase) :
    0 ≤ (findDash pattern guard index phase).2 := by
  induction guard generalizing index phase with
  | zero => exact nonnegative
  | succ guard ih =>
    unfold findDash
    dsimp only
    split
    · rename_i passed
      refine ih _ ?_
      split
      · exact sub_nonneg.mpr passed
      · exact nonnegative
    · exact nonnegative

theorem remEuclid_nonneg [FloorRing K] (value : K) {modulus : K} (positive : 0 < modulus) :
    0 ≤ remEuclid value modulus := by
  unfold remEuclid
  rw [sub_nonneg, ← le_div_iff₀ positive]
  exact Int.floor_le _

/-- The walk has a dash, and it is not longer than the pattern has it. -/
structure Walk.Within (pattern : List K) (walk : Walk K) : Prop where
  index : walk.index < pattern.length
  remaining : walk.remaining ≤ max (pattern.getD walk.index 0) 0

theorem firstWalk_within [FloorRing K] (some : 0 < pattern.length) (positive : 0 < pattern.sum)
    (offset : K) : (firstWalk pattern offset).Within pattern := by
  refine ⟨findDash_index some _ some _, max_le_max_right 0 (sub_le_self _ ?_)⟩
  exact findDash_phase _ _ (remEuclid_nonneg offset positive)

section
omit [IsStrictOrderedRing K]

theorem walkSegment_mono {rounds rounds' : Nat} (enough : rounds ≤ rounds')
    {segment : Point K × Point K} {after : Walk K}
    (walked : walkSegment hypot pattern rounds walk segment = some after) :
    walkSegment hypot pattern rounds' walk segment = some after := by
  unfold walkSegment at walked ⊢
  dsimp only at walked ⊢
  split
  · rwa [if_pos ‹_›] at walked
  · rw [if_neg ‹_›] at walked
    obtain ⟨travel, returned, rfl⟩ := Option.map_eq_some_iff.mp walked
    rw [loop_mono enough returned, Option.map_some]

theorem walkSegments_mono {rounds rounds' : Nat} (enough : rounds ≤ rounds')
    {segments : List (Point K × Point K)} {after : Walk K}
    (walked : segments.foldlM (walkSegment hypot pattern rounds) walk = some after) :
    segments.foldlM (walkSegment hypot pattern rounds') walk = some after := by
  induction segments generalizing walk with
  | nil => exact walked
  | cons segment rest ih =>
    obtain ⟨middle, first, walked⟩ := Option.bind_eq_some_iff.mp walked
    exact Option.bind_eq_some_iff.mpr ⟨middle, walkSegment_mono enough first, ih walked⟩

end

theorem walkSegments_end [FloorRing K] {dash : K} (member : dash ∈ pattern)
    (long : epsilon < dash) (segments : List (Point K × Point K))
    (inside : walk.index < pattern.length) :
    ∃ rounds after, segments.foldlM (walkSegment hypot pattern rounds) walk = some after := by
  induction segments generalizing walk with
  | nil => exact ⟨0, walk, rfl⟩
  | cons segment rest ih =>
    have first : ∃ rounds middle, walkSegment hypot pattern rounds walk segment = some middle ∧
        middle.index < pattern.length := by
      by_cases empty : (edgeOf hypot segment.1 segment.2).length ≤ epsilon
      · exact ⟨0, walk, if_pos empty, inside⟩
      · obtain ⟨after, returns⟩ := edge_returns member long
          (edgeOf hypot segment.1 segment.2) ⟨0, walk⟩ inside
        obtain ⟨kept, _⟩ := returns.invariant
          (I := fun travel : Travel K => travel.walk.index < pattern.length) inside
          fun travel inside _ => round_index (length_pos_of_mem member) inside
        obtain ⟨rounds, returned⟩ := returns
        refine ⟨rounds, after.walk, ?_, kept⟩
        unfold walkSegment
        dsimp only
        rw [if_neg empty, returned, Option.map_some]
    obtain ⟨rounds, middle, walked, inside⟩ := first
    obtain ⟨rounds', after, rest⟩ := ih inside
    exact ⟨max rounds rounds', after, Option.bind_eq_some_iff.mpr ⟨middle,
      walkSegment_mono (le_max_left _ _) walked, walkSegments_mono (le_max_right _ _) rest⟩⟩

omit [IsStrictOrderedRing K] in
theorem walkSegments_empty (rounds : Nat) {segments : List (Point K × Point K)}
    (empty : ∀ segment ∈ segments, hypot (segment.2 - segment.1) ≤ epsilon) :
    segments.foldlM (walkSegment hypot pattern rounds) walk = some walk := by
  induction segments with
  | nil => rfl
  | cons segment rest ih =>
    refine Option.bind_eq_some_iff.mpr ⟨walk, if_pos (empty segment mem_cons_self), ?_⟩
    exact ih fun other member => empty other (mem_cons_of_mem _ member)

/-- Where every dash is too short, the first segment with a length is the last. -/
theorem walkSegments_diverge (short : ∀ dash ∈ pattern, dash ≤ epsilon)
    (some : 0 < pattern.length) (used : walk.remaining ≤ epsilon) (rounds : Nat)
    {segments : List (Point K × Point K)} {segment : Point K × Point K}
    (member : segment ∈ segments) (long : epsilon < hypot (segment.2 - segment.1)) :
    segments.foldlM (walkSegment hypot pattern rounds) walk = none := by
  induction segments with
  | nil => cases member
  | cons first rest ih =>
    rw [foldlM_cons]
    by_cases empty : hypot (first.2 - first.1) ≤ epsilon
    · have behind : segment ∈ rest := by
        rcases mem_cons.mp member with rfl | behind
        · exact absurd long (not_lt.mpr empty)
        · exact behind
      rw [show walkSegment hypot pattern rounds walk first = .some walk from if_pos empty]
      exact ih behind
    · have stuck : walkSegment hypot pattern rounds walk first = none := by
        unfold walkSegment
        dsimp only
        rw [if_neg (show ¬ (edgeOf hypot first.1 first.2).length ≤ epsilon from empty),
          edge_diverges short some rounds used
          (epsilon_pos.trans (not_le.mp empty)), Option.map_none]
      rw [stuck]
      rfl

/-- The loops come to an end. -/
def Finishes [FloorRing K] (hypot : Point K → K) (points : List (Point K)) (pattern : List K)
    (offset : K) : Prop :=
  ∃ rounds, (dashedPieces hypot rounds points pattern offset).isSome

section Pattern
variable [FloorRing K] {points : List (Point K)} (offset : K)

section
omit [IsStrictOrderedRing K]

theorem finishes_of_tiny (tiny : pattern.sum ≤ epsilon) :
    Finishes hypot points pattern offset := by
  refine ⟨0, ?_⟩
  unfold dashedPieces
  rw [if_pos tiny]
  split <;> rfl

theorem dashedPieces_walk (rounds : Nat) (whole : epsilon < pattern.sum) :
    dashedPieces hypot rounds points pattern offset =
      ((segments points).foldlM (walkSegment hypot pattern rounds)
        (firstWalk pattern offset)).map (·.keep.pieces) := by
  unfold dashedPieces
  rw [if_neg (not_le.mpr whole)]
  split
  · rw [segments_few ‹_›]
    rfl
  · rfl

theorem finishes_iff_walk (whole : epsilon < pattern.sum) :
    Finishes hypot points pattern offset ↔ ∃ rounds after,
      (segments points).foldlM (walkSegment hypot pattern rounds) (firstWalk pattern offset) =
        some after := by
  unfold Finishes
  simp only [dashedPieces_walk offset _ whole, Option.isSome_map, Option.isSome_iff_exists]

end

theorem endless_of_short (short : ∀ dash ∈ pattern, dash ≤ epsilon) (whole : epsilon < pattern.sum)
    {segment : Point K × Point K} (member : segment ∈ segments points)
    (long : epsilon < hypot (segment.2 - segment.1)) :
    ¬ Finishes hypot points pattern offset := by
  rw [finishes_iff_walk offset whole]
  rintro ⟨rounds, after, finished⟩
  have some : 0 < pattern.length := by
    rw [length_pos_iff]
    rintro rfl
    exact lt_asymm epsilon_pos whole
  have within := firstWalk_within some (epsilon_pos.trans whole) offset
  have used : (firstWalk pattern offset).remaining ≤ epsilon := by
    refine within.remaining.trans (max_le ?_ epsilon_pos.le)
    rw [getD_eq_getElem?_getD, getElem?_eq_getElem within.index]
    exact short _ (getElem_mem _)
  rw [walkSegments_diverge short some used rounds member long] at finished
  cases finished

/-- A dashed line comes to an end unless every dash is too short to be drawn, although together
they are long enough, and some segment of the line has a length. -/
theorem finishes_iff (hypot : Point K → K) (points : List (Point K)) (pattern : List K)
    (offset : K) : Finishes hypot points pattern offset ↔
      pattern.sum ≤ epsilon ∨ (∃ dash ∈ pattern, epsilon < dash) ∨
        ∀ segment ∈ segments points, hypot (segment.2 - segment.1) ≤ epsilon := by
  constructor
  · intro finishes
    by_contra endless
    obtain ⟨whole, endless⟩ := not_or.mp endless
    obtain ⟨short, long⟩ := not_or.mp endless
    obtain ⟨segment, long⟩ := not_forall.mp long
    obtain ⟨member, long⟩ := Classical.not_imp.mp long
    exact endless_of_short offset
      (fun dash member => not_lt.mp fun long => short ⟨dash, member, long⟩) (not_le.mp whole)
      member (not_le.mp long) finishes
  · intro bounded
    rcases le_or_gt pattern.sum epsilon with tiny | whole
    · exact finishes_of_tiny offset tiny
    · rw [or_iff_right (not_le.mpr whole)] at bounded
      rw [finishes_iff_walk offset whole]
      rcases bounded with ⟨dash, member, long⟩ | empty
      · exact walkSegments_end member long _ (firstWalk_within (length_pos_of_mem member)
          (epsilon_pos.trans whole) offset).index
      · exact ⟨0, _, walkSegments_empty 0 empty⟩

end Pattern

noncomputable def euclidean (v : Point ℝ) : ℝ := √(v.1 ^ 2 + v.2 ^ 2)

def unitLine : List (Point ℝ) := [(0, 0), (1, 0)]

theorem unitLine_length : euclidean ((1, 0) - (0, 0)) = 1 := by norm_num [euclidean]

theorem finishes_unit : Finishes euclidean unitLine [1, 1] 0 := by
  refine (finishes_iff euclidean unitLine [1, 1] 0).mpr (.inr (.inl ⟨1, mem_cons_self, ?_⟩))
  norm_num [epsilon]

/-- Two dashes, neither of which is longer than the tolerance. -/
noncomputable def tinyDashes : List ℝ := [epsilon, epsilon]

theorem tinyDashes_endless : checkDash tinyDashes = .ok () ∧ (∃ dash ∈ tinyDashes, 0 < dash) ∧
    ¬ Finishes euclidean unitLine tinyDashes 0 := by
  refine ⟨if_neg ?_, ⟨epsilon, mem_cons_self, epsilon_pos⟩, fun finishes => ?_⟩
  · rintro (many | ⟨dash, member, out⟩)
    · exact absurd many (by decide)
    · obtain rfl : dash = epsilon := by simpa [tinyDashes] using member
      norm_num [epsilon] at out
  · have member : ((0, 0), (1, 0)) ∈ segments unitLine := mem_cons_self
    refine endless_of_short 0 (by simp [tinyDashes]) ?_ member ?_ finishes
    · norm_num [tinyDashes, epsilon]
    · rw [unitLine_length]
      norm_num [epsilon]

end Chuzz.Canvas2D.Dashes
