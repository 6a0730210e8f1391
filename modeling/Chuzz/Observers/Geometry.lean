import Mathlib

/-! The geometry of an intersection observation: the walk over the ancestors of a target. Numbers are
those of an ordered field, and what the page engine tells of its nodes is a parameter. -/
namespace Chuzz.Observers
local instance million_ok : Nat.AtLeastTwo 1000000 := ⟨by decide⟩

structure Box (K : Type) where
  x : K
  y : K
  width : K
  height : K
deriving DecidableEq

inductive Kind where
  | element
  | document
  | other
deriving DecidableEq

inductive Unit where
  | px
  | percent
deriving DecidableEq

structure Edge (K : Type) where
  value : K
  unit : Unit

structure Margin (K : Type) where
  top : Edge K
  right : Edge K
  bottom : Edge K
  left : Edge K

/-- A computed style, in lower case. The shorthand of `overflow` is split into its words. -/
structure Style where
  display : String := "block"
  overflowX : String := ""
  overflowY : String := ""
  overflow : List String := []

/-- The nodes of a page. Without a root, a target is looked for in its own document, and a node may
fail to tell its rectangle. -/
structure Dom (ι K : Type) where
  kind : ι → Kind
  parent : ι → Option ι
  connected : ι → Bool
  contains : Option ι → ι → Bool
  style : ι → Style
  rect : ι → Option (Box K)

structure Geometry (K : Type) where
  rootBounds : Box K
  bounding : Box K
  intersection : Box K
  intersecting : Bool
  ratio : K

variable {ι K : Type} [DecidableEq ι] [Field K] [LinearOrder K]

namespace Box

def left (box : Box K) : K := box.x
def top (box : Box K) : K := box.y
def right (box : Box K) : K := box.x + box.width
def bottom (box : Box K) : K := box.y + box.height

def zero : Box K := ⟨0, 0, 0, 0⟩

/-- A `DOMRect` has no negative extent. -/
def publish (box : Box K) : Box K :=
  ⟨box.x, box.y, if 0 < box.width then box.width else 0, if 0 < box.height then box.height else 0⟩

end Box

def Edge.length (edge : Edge K) (extent : K) : K :=
  if edge.unit = .percent then extent * edge.value / 100 else edge.value

def ioExpand (box : Box K) (margin : Margin K) : Box K :=
  let top := margin.top.length box.height
  let right := margin.right.length box.width
  let bottom := margin.bottom.length box.height
  let left := margin.left.length box.width
  ⟨box.x - left, box.y - top, box.width + left + right, box.height + top + bottom⟩

def ioClip (box clip : Box K) (clipX clipY : Bool) : Option (Box K) :=
  let left := if clipX ∧ box.left < clip.left then clip.left else box.left
  let right := if clipX ∧ clip.right < box.right then clip.right else box.right
  let top := if clipY ∧ box.top < clip.top then clip.top else box.top
  let bottom := if clipY ∧ clip.bottom < box.bottom then clip.bottom else box.bottom
  if ¬ 0 < right - left ∨ ¬ 0 < bottom - top then none
  else some ⟨left, top, right - left, bottom - top⟩

def ioTouches (box clip : Box K) (clipX clipY : Bool) : Bool :=
  (!clipX || (clip.left ≤ box.right && box.left ≤ clip.right)) &&
    (!clipY || (clip.top ≤ box.bottom && box.top ≤ clip.bottom))

/-- The overflow of one axis, from its longhand or from a word of the shorthand. -/
def ioOverflow (longhand : String) (shorthand : Option String) : String :=
  if longhand ≠ "" then longhand else shorthand.getD "visible"

def ioClips (value : String) : Bool := value ≠ "" && value ≠ "visible"

def Style.clipsX (style : Style) : Bool :=
  ioClips (ioOverflow style.overflowX style.overflow.head?)

def Style.clipsY (style : Style) : Bool :=
  ioClips (ioOverflow style.overflowY style.overflow.getLast?)

namespace Dom
variable (dom : Dom ι K)

def box (node : ι) : Box K := (dom.rect node).getD .zero

/-- The elements from one upwards, so many at most. -/
def displayed : ℕ → ι → Bool
  | 0, _ => true
  | guard + 1, node =>
    if dom.kind node ≠ .element then true
    else if (dom.style node).display = "none" then false
    else match dom.parent node with
      | none => true
      | some next => if next = node then true else displayed guard next

def ioRendered (element : ι) : Bool :=
  dom.kind element = .element && dom.connected element && dom.displayed 64 element

/-- What an ancestor leaves of a target's region, or whether an empty target is still in it. -/
def ioStep (bounds : Box K) (positive : Bool) (parent : ι) (state : Option (Box K) × Bool) :
    Option (Box K) × Bool :=
  let clipX := (dom.style parent).clipsX
  let clipY := (dom.style parent).clipsY
  if dom.kind parent = .element ∧ (clipX || clipY) then
    if positive then
      (state.1.bind fun region => ioClip region (dom.box parent) clipX clipY, state.2)
    else (state.1, state.2 && ioTouches bounds (dom.box parent) clipX clipY)
  else state

def ioWalk (bounds : Box K) (positive : Bool) (stop : Option ι) :
    ℕ → Option ι → Option (Box K) × Bool → Option (Box K) × Bool
  | 0, _, state => state
  | _ + 1, none, state => state
  | guard + 1, some parent, state =>
    if some parent = stop ∨ dom.kind parent = .document then state
    else
      let state := dom.ioStep bounds positive parent state
      match dom.parent parent with
      | none => state
      | some next => if next = parent then state else ioWalk bounds positive stop guard next state

def ioGeometry (root : Option ι) (margin : Margin K) (target : ι) (rootBounds : Box K) :
    Geometry K :=
  let rendered := dom.ioRendered target && (dom.rect target).isSome
  let bounds := if rendered then dom.box target else .zero
  if !rendered || !dom.contains root target then
    ⟨rootBounds.publish, bounds.publish, .zero, false, 0⟩
  else
    let expanded := ioExpand rootBounds margin
    let positive := decide (0 < bounds.width ∧ 0 < bounds.height)
    let stop := root.filter fun root => dom.kind root = .element
    let state := dom.ioWalk bounds positive stop 64 (dom.parent target)
      (if positive then some bounds else none, !positive)
    if positive then
      match state.1.bind fun region => ioClip region expanded true true with
      | none => ⟨rootBounds.publish, bounds.publish, .zero, false, 0⟩
      | some region =>
        let ratio := region.width * region.height / (bounds.width * bounds.height)
        let ratio := if ratio < 0 then 0 else ratio
        let ratio := if 1 < ratio then 1 else ratio
        let ratio := if 1 - 1 / 1000000 < ratio then 1 else ratio
        ⟨rootBounds.publish, bounds.publish, region.publish, true, ratio⟩
    else if state.2 && ioTouches bounds expanded true true then
      ⟨rootBounds.publish, bounds.publish, ⟨bounds.x, bounds.y, 0, 0⟩, true, 1⟩
    else ⟨rootBounds.publish, bounds.publish, .zero, false, 0⟩

/-- The elements that have to be displayed: one and those above it, so many at most. -/
def chain : ℕ → ι → List ι
  | 0, _ => []
  | guard + 1, node =>
    if dom.kind node ≠ .element then []
    else node :: match dom.parent node with
      | none => []
      | some next => if next = node then [] else chain guard next

/-- The ancestors from one upwards below the root and the document, so many at most. -/
def lineage (stop : Option ι) : ℕ → Option ι → List ι
  | 0, _ => []
  | _ + 1, none => []
  | guard + 1, some parent =>
    if some parent = stop ∨ dom.kind parent = .document then []
    else parent :: match dom.parent parent with
      | none => []
      | some next => if next = parent then [] else lineage stop guard next

end Dom

/-- The points of a rectangle, with its edges or without them. -/
def Box.In (rel : K → K → Prop) (box : Box K) (p : K × K) : Prop :=
  (rel box.left p.1 ∧ rel p.1 box.right) ∧ rel box.top p.2 ∧ rel p.2 box.bottom

/-- What a clip leaves of the plane. -/
def Box.Leaves (rel : K → K → Prop) (clip : Box K) (clipX clipY : Bool) (p : K × K) : Prop :=
  (clipX → rel clip.left p.1 ∧ rel p.1 clip.right) ∧
    (clipY → rel clip.top p.2 ∧ rel p.2 clip.bottom)

def Dom.Leaves (dom : Dom ι K) (rel : K → K → Prop) (node : ι) (p : K × K) : Prop :=
  dom.kind node = .element →
    (dom.box node).Leaves rel (dom.style node).clipsX (dom.style node).clipsY p

/-- The points of the target that every clipping ancestor and the expanded root leave. -/
def Dom.Common (dom : Dom ι K) (rel : K → K → Prop) (root : Option ι) (margin : Margin K)
    (target : ι) (rootBounds : Box K) (p : K × K) : Prop :=
  ((dom.box target).In rel p ∧ ∀ ancestor ∈ dom.lineage
    (root.filter fun root => dom.kind root = .element) 64 (dom.parent target),
      dom.Leaves rel ancestor p) ∧ (ioExpand rootBounds margin).In rel p

/-- A share that is as good as everything counts as everything. -/
def rounded (ratio : K) : K := if 1 - 1 / 1000000 < ratio then 1 else ratio

section Clipping
variable {rel : K → K → Prop} {box clip inner : Box K} {clipX clipY : Bool} {p : K × K}

/-- Bounds of either kind, one after the other. -/
structure Bounding (rel : K → K → Prop) : Prop where
  lower : ∀ a b p, rel (if a < b then b else a) p ↔ rel a p ∧ rel b p
  upper : ∀ a b p, rel p (if b < a then b else a) ↔ rel p a ∧ rel p b

section
omit [Field K]

theorem bounding_le : Bounding (K := K) (· ≤ ·) where
  lower a b p := by rw [← max_def_lt, max_le_iff]
  upper a b p := by rw [← min_def_lt, min_comm, le_min_iff, and_comm]

theorem bounding_lt : Bounding (K := K) (· < ·) where
  lower a b p := by rw [← max_def_lt, max_lt_iff]
  upper a b p := by rw [← min_def_lt, min_comm, lt_min_iff, and_comm]

theorem lower_clip (bounding : Bounding rel) {a b q : K} {clips : Bool} :
    rel (if clips ∧ a < b then b else a) q ↔ rel a q ∧ (clips → rel b q) := by
  cases clips <;> simp [bounding.lower]

theorem upper_clip (bounding : Bounding rel) {a b q : K} {clips : Bool} :
    rel q (if clips ∧ b < a then b else a) ↔ rel q a ∧ (clips → rel q b) := by
  cases clips <;> simp [bounding.upper]

end

theorem ioClip_edges (clipped : ioClip box clip clipX clipY = some inner) :
    inner.left = (if clipX ∧ box.left < clip.left then clip.left else box.left) ∧
      inner.right = (if clipX ∧ clip.right < box.right then clip.right else box.right) ∧
      inner.top = (if clipY ∧ box.top < clip.top then clip.top else box.top) ∧
      inner.bottom = (if clipY ∧ clip.bottom < box.bottom then clip.bottom else box.bottom) := by
  rw [ioClip, Option.ite_none_left_eq_some] at clipped
  obtain rfl := Option.some.inj clipped.2
  exact ⟨rfl, add_sub_cancel _ _, rfl, add_sub_cancel _ _⟩

theorem ioClip_some (bounding : Bounding rel) (clipped : ioClip box clip clipX clipY = some inner) :
    inner.In rel p ↔ box.In rel p ∧ clip.Leaves rel clipX clipY p := by
  obtain ⟨left, right, top, bottom⟩ := ioClip_edges clipped
  rw [Box.In, left, right, top, bottom, lower_clip bounding, upper_clip bounding,
    lower_clip bounding, upper_clip bounding, Box.In, Box.Leaves]
  tauto

theorem ioClip_positive (clipped : ioClip box clip clipX clipY = some inner) :
    0 < inner.width ∧ 0 < inner.height := by
  rw [ioClip, Option.ite_none_left_eq_some] at clipped
  obtain ⟨large, same⟩ := clipped
  obtain rfl := Option.some.inj same
  rw [not_or, not_not, not_not] at large
  exact large

theorem ioClip_none [IsStrictOrderedRing K] (clipped : ioClip box clip clipX clipY = none)
    (inside : box.In (· < ·) p) (leaves : clip.Leaves (· < ·) clipX clipY p) : False := by
  rw [ioClip] at clipped
  have left := (lower_clip bounding_lt).mpr ⟨inside.1.1, fun clips => (leaves.1 clips).1⟩
  have right := (upper_clip bounding_lt).mpr ⟨inside.1.2, fun clips => (leaves.1 clips).2⟩
  have top := (lower_clip bounding_lt).mpr ⟨inside.2.1, fun clips => (leaves.2 clips).1⟩
  have bottom := (upper_clip bounding_lt).mpr ⟨inside.2.2, fun clips => (leaves.2 clips).2⟩
  rw [if_neg] at clipped
  · cases clipped
  · rw [not_or, not_not, not_not, sub_pos, sub_pos]
    exact ⟨left.trans right, top.trans bottom⟩

/-- What a region holds, if it is not empty. -/
structure Shows (holds inside : K × K → Prop) (region : Box K) : Prop where
  wide : 0 < region.width
  high : 0 < region.height
  holds : ∀ p, region.In (· ≤ ·) p ↔ holds p
  inside : ∀ p, region.In (· < ·) p ↔ inside p

/-- A region that may be empty. -/
def Region (holds inside : K × K → Prop) : Option (Box K) → Prop
  | some region => Shows holds inside region
  | none => ∀ p, ¬ inside p

theorem Region.clipped [IsStrictOrderedRing K] {holds inside : K × K → Prop}
    {region : Option (Box K)} (shows : Region holds inside region) (clip : Box K)
    (clipX clipY : Bool) :
    Region (fun p => holds p ∧ clip.Leaves (· ≤ ·) clipX clipY p)
      (fun p => inside p ∧ clip.Leaves (· < ·) clipX clipY p)
      (region.bind fun region => ioClip region clip clipX clipY) := by
  cases region with
  | none => exact fun p both => shows p both.1
  | some region =>
    rw [Option.bind_some]
    cases clipped : ioClip region clip clipX clipY with
    | none => exact fun p both => ioClip_none clipped ((shows.inside p).mpr both.1) both.2
    | some inner =>
      obtain ⟨wide, high⟩ := ioClip_positive clipped
      refine ⟨wide, high, fun p => ?_, fun p => ?_⟩
      · rw [ioClip_some bounding_le clipped, shows.holds]
      · rw [ioClip_some bounding_lt clipped, shows.inside]

end Clipping

namespace Dom
variable (dom : Dom ι K) {bounds : Box K} {positive : Bool}

theorem ioWalk_eq (stop : Option ι) (guard : ℕ) (start : Option ι) (state : Option (Box K) × Bool) :
    dom.ioWalk bounds positive stop guard start state = (dom.lineage stop guard start).foldl
      (fun state parent => dom.ioStep bounds positive parent state) state := by
  induction guard generalizing start state with
  | zero => rfl
  | succ guard ih =>
    cases start with
    | none => rfl
    | some parent =>
      rw [ioWalk, lineage]
      split
      · rfl
      · rw [List.foldl_cons]
        cases dom.parent parent with
        | none => rfl
        | some next =>
          dsimp only
          split
          · rfl
          · exact ih next _

omit [Field K] [LinearOrder K] in
theorem displayed_iff (guard : ℕ) (node : ι) :
    dom.displayed guard node = true ↔ ∀ shown ∈ dom.chain guard node,
      (dom.style shown).display ≠ "none" := by
  induction guard generalizing node with
  | zero => simp [displayed, chain]
  | succ guard ih =>
    rw [displayed, chain]
    split
    · simp
    · rw [List.forall_mem_cons]
      split
      next hidden => simp [hidden]
      next shown =>
        simp only [ne_eq, shown, not_false_eq_true, true_and]
        cases dom.parent node with
        | none => simp
        | some next =>
          dsimp only
          split
          · simp
          · exact ih next

omit [DecidableEq ι] in
theorem walk_region [IsStrictOrderedRing K] {holds inside : K × K → Prop} (bounds : Box K)
    (lineage : List ι) {state : Option (Box K) × Bool} (shows : Region holds inside state.1) :
    Region (fun p => holds p ∧ ∀ ancestor ∈ lineage, dom.Leaves (· ≤ ·) ancestor p)
      (fun p => inside p ∧ ∀ ancestor ∈ lineage, dom.Leaves (· < ·) ancestor p)
      (lineage.foldl (fun state parent => dom.ioStep bounds true parent state) state).1 := by
  induction lineage generalizing holds inside state with
  | nil => simpa using shows
  | cons parent rest ih =>
    have step : Region (fun p => holds p ∧ dom.Leaves (· ≤ ·) parent p)
        (fun p => inside p ∧ dom.Leaves (· < ·) parent p)
        (dom.ioStep bounds true parent state).1 := by
      rw [ioStep]
      split
      next clips =>
        rw [if_pos rfl]
        have clipped := shows.clipped (dom.box parent) (dom.style parent).clipsX (dom.style parent).clipsY
        simpa only [Dom.Leaves, clips.1, forall_const] using clipped
      next free =>
        have leaves : ∀ rel p, dom.Leaves rel parent p := by
          intro rel p element
          simp only [element, true_and, Bool.or_eq_true, not_or, Bool.not_eq_true] at free
          constructor
          · rw [free.1]
            exact nofun
          · rw [free.2]
            exact nofun
        simpa only [leaves, and_true] using shows
    have later := ih step
    simpa only [List.foldl_cons, List.forall_mem_cons, and_assoc] using later

omit [DecidableEq ι] in
theorem walk_contained (bounds : Box K) (lineage : List ι) (state : Option (Box K) × Bool) :
    (lineage.foldl (fun state parent => dom.ioStep bounds false parent state) state).2 = true ↔
      state.2 = true ∧ ∀ ancestor ∈ lineage, dom.kind ancestor = .element →
        ioTouches bounds (dom.box ancestor) (dom.style ancestor).clipsX
          (dom.style ancestor).clipsY = true := by
  induction lineage generalizing state with
  | nil => simp
  | cons parent rest ih =>
    rw [List.foldl_cons, ih, List.forall_mem_cons, ← and_assoc]
    apply and_congr_left'
    rw [ioStep]
    split
    next clips =>
      rw [if_neg (by decide), Bool.and_eq_true]
      simp only [clips.1, forall_const]
    next free =>
      refine (and_iff_left fun element => ?_).symm
      simp only [element, true_and, Bool.or_eq_true, not_or, Bool.not_eq_true] at free
      rw [ioTouches, free.1, free.2]
      rfl

end Dom

section Empty
variable {bounds clip : Box K} {clipX clipY : Bool} {p : K × K}

theorem touches_common (here : bounds.In (· ≤ ·) p) (leaves : clip.Leaves (· ≤ ·) clipX clipY p) :
    ioTouches bounds clip clipX clipY = true := by
  obtain ⟨⟨left, right⟩, top, bottom⟩ := here
  obtain ⟨wide, high⟩ := leaves
  simp only [ioTouches, Bool.and_eq_true, Bool.or_eq_true, Bool.not_eq_true', decide_eq_true_eq]
  constructor
  · cases clipX with
    | false => exact .inl rfl
    | true => exact .inr ⟨(wide rfl).1.trans right, left.trans (wide rfl).2⟩
  · cases clipY with
    | false => exact .inl rfl
    | true => exact .inr ⟨(high rfl).1.trans bottom, top.trans (high rfl).2⟩

theorem touches_point (wide : bounds.width = 0) (high : bounds.height = 0) :
    ioTouches bounds clip clipX clipY = true ↔
      clip.Leaves (· ≤ ·) clipX clipY (bounds.x, bounds.y) := by
  have right : bounds.right = bounds.x := by rw [Box.right, wide, add_zero]
  have bottom : bounds.bottom = bounds.y := by rw [Box.bottom, high, add_zero]
  simp only [ioTouches, Box.Leaves, Bool.and_eq_true, Bool.or_eq_true, Bool.not_eq_true',
    decide_eq_true_eq]
  rw [right, bottom]
  cases clipX <;> cases clipY <;> simp [Box.left, Box.top]

end Empty

/-- The target is shown: it and the elements above it, so many as are looked at. -/
structure Dom.Seen (dom : Dom ι K) (root : Option ι) (target : ι) : Prop where
  element : dom.kind target = .element
  connected : dom.connected target = true
  measured : (dom.rect target).isSome = true
  displayed : ∀ shown ∈ dom.chain 64 target, (dom.style shown).display ≠ "none"
  contained : dom.contains root target = true

/-- What an observation tells, but for a target that meets its clips in an edge or a corner only,
and for an empty one that is no point. -/
structure Told (dom : Dom ι K) (root : Option ι) (margin : Margin K) (target : ι)
    (rootBounds : Box K) (geometry : Geometry K) : Prop where
  missed : ¬ dom.Seen root target → geometry.intersecting = false
  nothing : geometry.intersecting = false → geometry.intersection = .zero ∧ geometry.ratio = 0
  meets : dom.Seen root target → 0 < (dom.box target).width → 0 < (dom.box target).height →
    (∃ p, dom.Common (· < ·) root margin target rootBounds p) → geometry.intersecting = true
  region : 0 < (dom.box target).width → 0 < (dom.box target).height →
    geometry.intersecting = true → (∃ p, dom.Common (· ≤ ·) root margin target rootBounds p) ∧
      (∀ p, geometry.intersection.In (· ≤ ·) p ↔
        dom.Common (· ≤ ·) root margin target rootBounds p) ∧
      geometry.ratio = rounded (geometry.intersection.width * geometry.intersection.height /
        ((dom.box target).width * (dom.box target).height))
  empty : dom.Seen root target → ¬ (0 < (dom.box target).width ∧ 0 < (dom.box target).height) →
    (∃ p, dom.Common (· ≤ ·) root margin target rootBounds p) → geometry.intersecting = true
  whole : ¬ (0 < (dom.box target).width ∧ 0 < (dom.box target).height) →
    geometry.intersecting = true → geometry.ratio = 1
  point : (dom.box target).width = 0 → (dom.box target).height = 0 →
    geometry.intersecting = true → (∃ p, dom.Common (· ≤ ·) root margin target rootBounds p) ∧
      ∀ p, geometry.intersection.In (· ≤ ·) p ↔ dom.Common (· ≤ ·) root margin target rootBounds p

variable (dom : Dom ι K) (root : Option ι) (margin : Margin K) (target : ι) (rootBounds : Box K)

omit [Field K] [LinearOrder K] in
theorem Dom.rendered_iff : ((dom.ioRendered target && (dom.rect target).isSome) = true ∧
    dom.contains root target = true) ↔ dom.Seen root target := by
  rw [ioRendered, Bool.and_eq_true, Bool.and_eq_true, Bool.and_eq_true, decide_eq_true_eq,
    displayed_iff]
  constructor
  · rintro ⟨⟨⟨⟨element, connected⟩, displayed⟩, measured⟩, contained⟩
    exact ⟨element, connected, measured, displayed, contained⟩
  · rintro ⟨element, connected, measured, displayed, contained⟩
    exact ⟨⟨⟨⟨element, connected⟩, displayed⟩, measured⟩, contained⟩

theorem geometry_missed (missed : ¬ dom.Seen root target) :
    (dom.ioGeometry root margin target rootBounds).intersecting = false ∧
      (dom.ioGeometry root margin target rootBounds).intersection = .zero ∧
      (dom.ioGeometry root margin target rootBounds).ratio = 0 := by
  rw [← dom.rendered_iff root, not_and_or, Bool.not_eq_true, Bool.not_eq_true] at missed
  have unseen : (!(dom.ioRendered target && (dom.rect target).isSome) || !dom.contains root target) = true := by
    rw [Bool.or_eq_true, Bool.not_eq_true', Bool.not_eq_true']
    exact missed
  rw [Dom.ioGeometry]
  rw [if_pos unseen]
  exact ⟨rfl, rfl, rfl⟩

variable [IsStrictOrderedRing K]

theorem rounded_clamped {ratio : K} (positive : 0 < ratio) :
    (let ratio := if ratio < 0 then 0 else ratio
      let ratio := if 1 < ratio then 1 else ratio
      if 1 - 1 / 1000000 < ratio then 1 else ratio) = rounded ratio := by
  have less : (1 : K) - 1 / 1000000 < 1 := sub_lt_self _ (by positivity)
  dsimp only
  rw [if_neg positive.not_gt, rounded]
  by_cases large : 1 < ratio
  · rw [if_pos large, if_pos less, if_pos (less.trans large)]
  · rw [if_neg large]

/-- The region that is left of a target that is not empty. -/
def Dom.leaves : Option (Box K) :=
  ((dom.lineage (root.filter fun root => dom.kind root = .element) 64 (dom.parent target)).foldl
    (fun state parent => dom.ioStep (dom.box target) true parent state)
      (some (dom.box target), false)).1.bind fun region =>
    ioClip region (ioExpand rootBounds margin) true true

theorem leaves_region (wide : 0 < (dom.box target).width) (high : 0 < (dom.box target).height) :
    Region (dom.Common (· ≤ ·) root margin target rootBounds)
      (dom.Common (· < ·) root margin target rootBounds)
      (dom.leaves root margin target rootBounds) := by
  have started : Region ((dom.box target).In (· ≤ ·)) ((dom.box target).In (· < ·))
      (some (dom.box target), false).1 := ⟨wide, high, fun _ => Iff.rfl, fun _ => Iff.rfl⟩
  have walked := (dom.walk_region (dom.box target)
    (dom.lineage (root.filter fun root => dom.kind root = .element) 64 (dom.parent target))
    started).clipped (ioExpand rootBounds margin) true true
  simp only [Box.Leaves, forall_const] at walked
  exact walked

theorem geometry_positive (seen : dom.Seen root target) (wide : 0 < (dom.box target).width)
    (high : 0 < (dom.box target).height) : dom.ioGeometry root margin target rootBounds =
      match dom.leaves root margin target rootBounds with
      | none => ⟨rootBounds.publish, (dom.box target).publish, .zero, false, 0⟩
      | some region => ⟨rootBounds.publish, (dom.box target).publish, region.publish, true,
          rounded (region.width * region.height /
            ((dom.box target).width * (dom.box target).height))⟩ := by
  obtain ⟨rendered, contained⟩ := (dom.rendered_iff root target).mpr seen
  have shows := leaves_region dom root margin target rootBounds wide high
  rw [Dom.ioGeometry, rendered, contained, if_neg (by decide), if_pos rfl]
  dsimp only
  rw [dom.ioWalk_eq, decide_eq_true (show _ ∧ _ from ⟨wide, high⟩), if_pos rfl, if_pos rfl,
    Bool.not_true]
  rw [← Dom.leaves.eq_1 dom root margin target rootBounds]
  cases left : dom.leaves root margin target rootBounds with
  | none => rfl
  | some region =>
    rw [left] at shows
    have positive := div_pos (mul_pos shows.wide shows.high) (mul_pos wide high)
    exact congrArg (Geometry.mk _ _ region.publish true) (rounded_clamped positive)

omit [IsStrictOrderedRing K] in
/-- The region of a `DOMRect` that has an extent. -/
theorem publish_positive {box : Box K} (wide : 0 < box.width) (high : 0 < box.height) :
    box.publish = box := by
  rw [Box.publish, if_pos wide, if_pos high]

theorem told_positive (seen : dom.Seen root target) (wide : 0 < (dom.box target).width)
    (high : 0 < (dom.box target).height) :
    Told dom root margin target rootBounds (dom.ioGeometry root margin target rootBounds) := by
  have shows := leaves_region dom root margin target rootBounds wide high
  rw [geometry_positive dom root margin target rootBounds seen wide high]
  cases left : dom.leaves root margin target rootBounds with
  | none =>
    rw [left] at shows
    exact ⟨fun _ => rfl, fun _ => ⟨rfl, rfl⟩, fun _ _ _ ⟨p, inside⟩ => absurd inside (shows p), nofun,
      fun _ empty => absurd ⟨wide, high⟩ empty, nofun, nofun⟩
  | some region =>
    rw [left] at shows
    have corner : region.In (· ≤ ·) (region.left, region.top) :=
      ⟨⟨le_rfl, le_add_of_nonneg_right shows.wide.le⟩, le_rfl,
        le_add_of_nonneg_right shows.high.le⟩
    dsimp only
    rw [publish_positive shows.wide shows.high]
    exact ⟨fun missed => absurd seen missed, nofun, fun _ _ _ _ => rfl,
      fun _ _ _ => ⟨⟨_, (shows.holds _).mp corner⟩, shows.holds, rfl⟩, fun _ _ _ => rfl,
      fun empty => absurd ⟨wide, high⟩ empty, fun none => absurd none wide.ne'⟩

/-- An empty target that no clip is apart from. -/
def Dom.Touched : Prop :=
  (∀ ancestor ∈ dom.lineage (root.filter fun root => dom.kind root = .element) 64
    (dom.parent target), dom.kind ancestor = .element → ioTouches (dom.box target)
      (dom.box ancestor) (dom.style ancestor).clipsX (dom.style ancestor).clipsY = true) ∧
    ioTouches (dom.box target) (ioExpand rootBounds margin) true true = true

omit [IsStrictOrderedRing K] in
theorem geometry_empty (seen : dom.Seen root target)
    (empty : ¬ (0 < (dom.box target).width ∧ 0 < (dom.box target).height)) :
    (dom.Touched root margin target rootBounds ∧ dom.ioGeometry root margin target rootBounds =
      ⟨rootBounds.publish, (dom.box target).publish,
        ⟨(dom.box target).x, (dom.box target).y, 0, 0⟩, true, 1⟩) ∨
    ¬ dom.Touched root margin target rootBounds ∧ dom.ioGeometry root margin target rootBounds =
      ⟨rootBounds.publish, (dom.box target).publish, .zero, false, 0⟩ := by
  obtain ⟨rendered, contained⟩ := (dom.rendered_iff root target).mpr seen
  have walked := dom.walk_contained (dom.box target) (dom.lineage
    (root.filter fun root => dom.kind root = .element) 64 (dom.parent target)) (none, true)
  rw [eq_self, true_and] at walked
  rw [Dom.ioGeometry, rendered, contained, if_neg (by decide), if_pos rfl]
  dsimp only
  rw [dom.ioWalk_eq, decide_eq_false empty]
  simp only [Bool.false_eq_true, if_false, Bool.not_false]
  rw [Dom.Touched, ← walked, ← Bool.and_eq_true]
  split
  next touched => exact .inl ⟨touched, rfl⟩
  next apart => exact .inr ⟨apart, rfl⟩

theorem told_empty (seen : dom.Seen root target)
    (empty : ¬ (0 < (dom.box target).width ∧ 0 < (dom.box target).height)) :
    Told dom root margin target rootBounds (dom.ioGeometry root margin target rootBounds) := by
  obtain ⟨touched, told⟩ | ⟨apart, told⟩ :=
    geometry_empty dom root margin target rootBounds seen empty
  · rw [told]
    refine ⟨fun missed => absurd seen missed, nofun, fun _ _ _ _ => rfl,
      fun wide high => absurd ⟨wide, high⟩ empty, fun _ _ _ => rfl, fun _ _ => rfl,
      fun wide high _ => ?_⟩
    have common : dom.Common (· ≤ ·) root margin target rootBounds
        ((dom.box target).x, (dom.box target).y) := by
      obtain ⟨clips, expanded⟩ := touched
      obtain ⟨left, top⟩ := (touches_point wide high).mp expanded
      refine ⟨⟨⟨⟨le_rfl, ?_⟩, le_rfl, ?_⟩, fun ancestor among element =>
        (touches_point wide high).mp (clips ancestor among element)⟩, left rfl, top rfl⟩
      · exact le_add_of_nonneg_right wide.ge
      · exact le_add_of_nonneg_right high.ge
    refine ⟨⟨_, common⟩, fun p => ⟨fun inside => ?_, fun inside => ?_⟩⟩
    · obtain ⟨⟨left, right⟩, top, bottom⟩ := inside
      have here : p = ((dom.box target).x, (dom.box target).y) := Prod.ext
        (le_antisymm (right.trans_eq (add_zero _)) left) (le_antisymm (bottom.trans_eq (add_zero _)) top)
      rwa [here]
    · obtain ⟨⟨left, right⟩, top, bottom⟩ := inside.1.1
      exact ⟨⟨left, right.trans_eq (congrArg ((dom.box target).x + ·) wide)⟩, top,
        bottom.trans_eq (congrArg ((dom.box target).y + ·) high)⟩
  · rw [told]
    refine ⟨fun _ => rfl, fun _ => ⟨rfl, rfl⟩, fun _ wide high => absurd ⟨wide, high⟩ empty, nofun,
      fun _ _ ⟨p, common⟩ => absurd ⟨fun ancestor among element => ?_, ?_⟩ apart, nofun, nofun⟩
    · exact touches_common common.1.1 (common.1.2 ancestor among element)
    · exact touches_common common.1.1 ⟨fun _ => common.2.1, fun _ => common.2.2⟩

/-- Seventy elements, each inside of the next, the outermost of which is not displayed. -/
def nested : Dom ℕ ℚ where
  kind node := if node < 70 then .element else .document
  parent node := if node < 70 then some (node + 1) else none
  connected _ := true
  contains _ _ := true
  style node := if node = 69 then { display := "none" } else {}
  rect _ := some ⟨0, 0, 10, 10⟩

def flush : Margin ℚ := ⟨⟨0, .px⟩, ⟨0, .px⟩, ⟨0, .px⟩, ⟨0, .px⟩⟩

/-- What every observation tells. -/
theorem ioGeometry_told :
    Told dom root margin target rootBounds (dom.ioGeometry root margin target rootBounds) := by
  by_cases seen : dom.Seen root target
  · by_cases positive : 0 < (dom.box target).width ∧ 0 < (dom.box target).height
    · exact told_positive dom root margin target rootBounds seen positive.1 positive.2
    · exact told_empty dom root margin target rootBounds seen positive
  · obtain ⟨apart, nothing, ratio⟩ := geometry_missed dom root margin target rootBounds seen
    exact ⟨fun _ => apart, fun _ => ⟨nothing, ratio⟩, fun shown => absurd shown seen,
      fun _ _ told => absurd (apart.symm.trans told) nofun, fun shown => absurd shown seen,
      fun _ told => absurd (apart.symm.trans told) nofun,
      fun _ _ told => absurd (apart.symm.trans told) nofun⟩

theorem ioGeometry_told_nested :
    Told nested none flush 0 ⟨0, 0, 100, 100⟩ (nested.ioGeometry none flush 0 ⟨0, 0, 100, 100⟩) :=
  ioGeometry_told nested none flush 0 ⟨0, 0, 100, 100⟩

/-- An ancestor that is not displayed, but too far above to be looked at. -/
theorem ioGeometry_hidden : ¬ ∀ (dom : Dom ℕ ℚ) (root : Option ℕ) (margin : Margin ℚ) (target : ℕ)
    (rootBounds : Box ℚ) (n ancestor : ℕ),
    (fun node => node.bind dom.parent)^[n] (some target) = some ancestor →
      dom.kind ancestor = .element → (dom.style ancestor).display = "none" →
        (dom.ioGeometry root margin target rootBounds).intersecting = false := by
  intro hidden
  have told := hidden nested none flush 0 ⟨0, 0, 100, 100⟩ 69 69 (by decide)
    (by decide) (by decide)
  exact absurd told (by decide +kernel)

end Chuzz.Observers
