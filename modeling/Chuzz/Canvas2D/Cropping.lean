import Chuzz.Canvas2D.EffectFields

/-! A layer is cropped to what is visible and the margin of the effect before the effect is applied:
no visible pixel changes, since every effect looks no further than its part of the margin. -/
namespace Chuzz.Canvas2D.Effects
open Library.Locality Library.Fallible
variable {K : Type} [Field K] [LinearOrder K] [IsStrictOrderedRing K] {weights : List K}

/-- Pixels whose columns and whose rows are at most so far apart. -/
instance : Nearness K (ℤ × ℤ) where
  near distance place other :=
    |(other.1 : K) - place.1| ≤ distance ∧ |(other.2 : K) - place.2| ≤ distance
  near_self place := by simp
  near_add := fun {_ _ _ middle _} one two =>
    ⟨((abs_sub_le _ (middle.1 : K) _).trans (add_comm _ _).le).trans (add_le_add one.1 two.1),
      ((abs_sub_le _ (middle.2 : K) _).trans (add_comm _ _).le).trans (add_le_add one.2 two.2)⟩
  near_mono longer near := ⟨near.1.trans longer, near.2.trans longer⟩

theorem near_same {distance : K} (positive : 0 ≤ distance) (place : ℤ × ℤ) :
    Nearness.near distance place place :=
  Nearness.near_mono positive (Nearness.near_self place)

theorem blurField_local {radius : ℕ} (reach : weights.length / 2 ≤ radius) :
    Local (radius : K) (blurField weights) := by
  intro first second place same
  apply blurField_congr
  intro other near near'
  apply same
  have column : |other.1 - place.1| ≤ (radius : ℤ) := by omega
  have row : |other.2 - place.2| ≤ (radius : ℤ) := by omega
  constructor
  · exact_mod_cast column
  · exact_mod_cast row

section
variable [FloorRing K] {outside : Outside K}

theorem floor_near (place : ℤ) (offset : K) :
    |(⌊(place : K) - offset⌋ : K) - place| ≤ |offset| + 1 ∧
      |((⌊(place : K) - offset⌋ + 1 : ℤ) : K) - place| ≤ |offset| + 1 := by
  have below := Int.floor_le ((place : K) - offset)
  have above := Int.lt_floor_add_one ((place : K) - offset)
  have left := neg_abs_le offset
  have right := le_abs_self offset
  rw [Int.cast_add, Int.cast_one]
  constructor <;> rw [abs_le] <;> constructor <;> linarith

theorem between_local (offsetX offsetY : K) :
    Local (|offsetX| + |offsetY| + 1) fun field (place : ℤ × ℤ) =>
      between field (place.1 - offsetX) (place.2 - offsetY) := by
  intro first second place same
  obtain ⟨left, right⟩ := floor_near place.1 offsetX
  obtain ⟨top, bottom⟩ := floor_near place.2 offsetY
  have wide := abs_nonneg offsetX
  have high := abs_nonneg offsetY
  have pixel : ∀ x y : ℤ, |(x : K) - place.1| ≤ |offsetX| + 1 →
      |(y : K) - place.2| ≤ |offsetY| + 1 → first (x, y) = second (x, y) :=
    fun x y column row => same (x, y) ⟨column.trans (by linarith), row.trans (by linarith)⟩
  simp only [between]
  rw [pixel _ _ left top, pixel _ _ right top, pixel _ _ left bottom, pixel _ _ right bottom]

/-- How far a shadow looks. -/
def Shadow.reach (shadow : Shadow K) : K :=
  |shadow.offsetX| + |shadow.offsetY| + 1 + radiusFor shadow.sigma

theorem shadowField_local (shadow : Shadow K) :
    Local shadow.reach (shadowField outside shadow) := by
  intro first second place same
  have near := (between_local shadow.offsetX shadow.offsetY).comp
    (blurField_local (kernel_reach outside shadow.sigma))
  exact congrArg (fun covered => shade shadow.color (clamp covered 0 255))
    (near _ _ place fun other near => congrFun (same other near) 3)

/-- How far a filter looks. -/
def FilterOp.reach : FilterOp K → K
  | .blur px => radiusFor px
  | .dropShadow x y sigma _ => |x| + |y| + 1 + radiusFor sigma
  | _ => 0

theorem FilterOp.reach_nonneg (op : FilterOp K) : 0 ≤ op.reach := by
  cases op <;> simp only [FilterOp.reach] <;> positivity

theorem opField_local (op : FilterOp K) : Local op.reach (opField outside op) := by
  intro first second place same
  have here := same place (near_same op.reach_nonneg place)
  cases op with
  | blur px =>
    funext channel
    exact blurField_local (kernel_reach outside px) _ _ place fun other near =>
      congrFun (same other near) channel
  | dropShadow x y blur color =>
    simp only [opField]
    cases outside.parseColour color with
    | error _ => exact here
    | ok color => exact congrArg₂ cover here (shadowField_local ⟨x, y, blur, color⟩ _ _ place same)
  | brightness amount => exact congrArg (Matrix.apply _) here
  | contrast amount => exact congrArg (Matrix.apply _) here
  | grayscale amount => exact congrArg (Matrix.apply _) here
  | invert amount => exact congrArg (Matrix.apply _) here
  | opacity amount => exact congrArg (Matrix.apply _) here
  | saturate amount => exact congrArg (Matrix.apply _) here
  | sepia amount => exact congrArg (Matrix.apply _) here
  | hueRotate deg => exact congrArg (Matrix.apply _) here

/-- What a filter adds to the margin is more than what it looks at, unless it looks at nothing but
the pixel. -/
theorem reach_spread {op : FilterOp K} (valid : validate outside op = .ok ()) :
    op.reach = 0 ∧ op.spread = 0 ∨ op.reach + 1 ≤ op.spread := by
  cases op with
  | blur px =>
    right
    rw [FilterOp.reach, FilterOp.spread, spread, abs_zero, min_eq_left (Nat.ofNat_nonneg _)]
    linarith
  | dropShadow x y sigma color =>
    right
    obtain ⟨_, _, checked⟩ := bind_ok valid
    split at checked
    next bounds =>
      rw [FilterOp.reach, FilterOp.spread, spread, min_eq_left bounds.1, min_eq_left bounds.2]
      linarith
    next => contradiction
  | _ => exact .inl ⟨rfl, rfl⟩

/-- How far an effect looks. -/
def Prepared.reach (effect : Prepared K) : K :=
  (effect.filter.map FilterOp.reach).sum +
    match effect.shadow with
    | some shadow => shadow.reach
    | none => 0

omit [IsStrictOrderedRing K] in
theorem margin_eq (effect : Prepared K) : margin effect =
    (effect.filter.map FilterOp.spread).sum +
      match effect.shadow with
      | some shadow => spread shadow.offsetX shadow.offsetY shadow.sigma
      | none => 0 := by
  rw [margin, foldl_add, add_comm]
  cases effect.shadow with
  | none => rfl
  | some shadow => exact congrArg _ (zero_add _)

omit [IsStrictOrderedRing K] [FloorRing K] in
theorem validated {filters : List (FilterOp K)} (valid : filters.forM (validate outside) = .ok ()) :
    ∀ op ∈ filters, validate outside op = .ok () := by
  induction filters with
  | nil => exact fun _ => nofun
  | cons first rest ih =>
    obtain ⟨_, one, valid⟩ := bind_ok valid
    intro op member
    rcases List.mem_cons.mp member with rfl | member
    · exact one
    · exact ih valid op member

theorem filters_spread {filters : List (FilterOp K)}
    (valid : ∀ op ∈ filters, validate outside op = .ok ()) :
    ((filters.map FilterOp.reach).sum = 0 ∧ (filters.map FilterOp.spread).sum = 0) ∨
      (filters.map FilterOp.reach).sum + 1 ≤ (filters.map FilterOp.spread).sum := by
  induction filters with
  | nil => exact .inl ⟨rfl, rfl⟩
  | cons op rest ih =>
    simp only [List.map_cons, List.sum_cons]
    rcases reach_spread (valid op (.head _)), ih fun op member => valid op (.tail _ member) with
      ⟨⟨none, none'⟩ | one, ⟨rest, rest'⟩ | rest⟩
    · exact .inl ⟨by rw [none, rest, add_zero], by rw [none', rest', add_zero]⟩
    all_goals
      right
      linarith

omit [IsStrictOrderedRing K] [FloorRing K] in
theorem prepare_ok {state : DrawState K} {effect : Prepared K}
    (prepared : prepare outside state = .ok (some effect)) :
    (∀ op ∈ effect.filter, validate outside op = .ok ()) ∧
      ∀ shadow ∈ effect.shadow, |shadow.offsetX| ≤ 1000000 ∧ |shadow.offsetY| ≤ 1000000 := by
  obtain ⟨bounds, prepared⟩ := guard_ok prepared
  obtain ⟨color, _, prepared⟩ := bind_ok prepared
  obtain ⟨_, prepared⟩ := guard_ok prepared
  obtain ⟨_, valid, prepared⟩ := bind_ok prepared
  split at prepared
  next => cases prepared
  next =>
    obtain rfl := Option.some.inj (Except.ok.inj prepared)
    refine ⟨validated valid, fun shadow member => ?_⟩
    simp only [DrawState.shadow] at member
    split at member
    next =>
      obtain rfl := Option.some.inj member
      simp only [not_or, not_lt] at bounds
      exact bounds.2
    next => cases member

/-- An effect that was accepted looks less far than its margin, or at nothing but the pixel. -/
theorem reach_margin {state : DrawState K} {effect : Prepared K}
    (prepared : prepare outside state = .ok (some effect)) :
    effect.reach = 0 ∧ margin effect = 0 ∨ effect.reach + 1 ≤ margin effect := by
  obtain ⟨valid, bounds⟩ := prepare_ok prepared
  rw [margin_eq, Prepared.reach]
  have filters := filters_spread valid
  cases final : effect.shadow with
  | none =>
    simp only [add_zero]
    exact filters
  | some shadow =>
    right
    obtain ⟨wide, high⟩ := bounds shadow final
    simp only [Shadow.reach, spread]
    rw [min_eq_left wide, min_eq_left high]
    rcases filters with ⟨one, two⟩ | more <;> linarith

/-- A line that two intervals share: where both touch a pixel, so does what they share. -/
theorem line_shared {start : ℤ} {extent : ℕ} {low high : K} {place : ℤ} (wide : low < high)
    (left : ⌊low⌋ ≤ place) (right : place < ⌈high⌉) (first : start ≤ place)
    (last : place < start + extent) :
    max (start : K) low < max (min ((start : K) + extent) high) (max (start : K) low) ∧
      ⌊max (start : K) low⌋ ≤ place ∧
      place < ⌈max (min ((start : K) + extent) high) (max (start : K) low)⌉ := by
  have left' : low < place + 1 := Int.floor_le_iff.mp left
  have right' : (place : K) < high := Int.lt_ceil.mp right
  have first' : (start : K) ≤ place := by exact_mod_cast first
  have last' : (place : K) + 1 ≤ start + extent := by exact_mod_cast last
  refine ⟨lt_max_of_lt_left ?_, Int.floor_le_iff.mpr ?_, Int.lt_ceil.mpr (lt_max_of_lt_left ?_)⟩
  · exact max_lt (lt_min (by linarith) (by linarith)) (lt_min (by linarith) wide)
  · exact max_lt (by linarith) left'
  · exact lt_min (by linarith) right'

omit [LinearOrder K] [IsStrictOrderedRing K] [FloorRing K] in
theorem window_field (layer : Layer K) {x y : ℤ} {width height : ℕ} {place : ℤ × ℤ}
    (inside : x ≤ place.1 ∧ place.1 < x + width ∧ y ≤ place.2 ∧ place.2 < y + height) :
    (Layer.ofRows x y width height fun column row => layer.sample (x + column) (y + row)).field place
      = layer.field place := by
  obtain ⟨left, right, top, bottom⟩ := inside
  rw [Layer.field_ofRows left right top bottom, Int.toNat_of_nonneg (by omega),
    Int.toNat_of_nonneg (by omega), add_sub_cancel, add_sub_cancel, Layer.field]

/-- A layer keeps its pixels where the rectangle that it is cropped to touches them. -/
theorem crop_field (layer : Layer K) {area : Rect K} {place : ℤ × ℤ}
    (touched : area.Touches place) : (layer.crop area).field place = layer.field place := by
  rw [Layer.crop]
  by_cases inside : (layer.x ≤ place.1 ∧ place.1 < layer.x + layer.width) ∧
      layer.y ≤ place.2 ∧ place.2 < layer.y + layer.height
  case pos =>
    have shared : (layer.rect.intersect area).Touches place := by
      obtain ⟨wide, left, right⟩ :=
        line_shared touched.wide touched.left touched.right inside.1.1 inside.1.2
      obtain ⟨high, top, bottom⟩ :=
        line_shared touched.high touched.top touched.bottom inside.2.1 inside.2.2
      exact ⟨wide, high, left, right, top, bottom⟩
    have ⟨wide, high, left, right, top, bottom⟩ := shared
    rw [if_neg (not_or.mpr ⟨not_le.mpr wide, not_le.mpr high⟩)]
    exact window_field layer (by omega)
  case neg =>
    have transparent : layer.field place = 0 := Layer.field_outside (by omega)
    rw [transparent]
    split
    · rw [Layer.field_empty rfl]
    · generalize ⌊(layer.rect.intersect area).x0⌋ = x0, ⌊(layer.rect.intersect area).y0⌋ = y0
      generalize Int.toNat (_ - x0) = width, Int.toNat (_ - y0) = height
      by_cases seen : x0 ≤ place.1 ∧ place.1 < x0 + width ∧ y0 ≤ place.2 ∧ place.2 < y0 + height
      · rw [window_field layer seen, transparent]
      · rw [Layer.field_outside (by exact seen)]

theorem touches_near {visible : Rect K} {place other : ℤ × ℤ} {reach margin : K}
    (wider : reach = 0 ∧ margin = 0 ∨ reach + 1 ≤ margin) (positive : 0 ≤ reach)
    (touched : visible.Touches place) (near : Nearness.near reach place other) :
    (visible.inflate margin margin).Touches other := by
  obtain ⟨column, row⟩ := near
  rcases wider with ⟨rfl, rfl⟩ | wider
  · have same : other = place := by
      rw [abs_nonpos_iff, sub_eq_zero, Int.cast_inj] at column row
      exact Prod.ext column row
    rw [same, Rect.inflate, sub_zero, sub_zero, add_zero, add_zero]
    exact touched
  · have left : visible.x0 < place.1 + 1 := Int.floor_le_iff.mp touched.left
    have top : visible.y0 < place.2 + 1 := Int.floor_le_iff.mp touched.top
    have right : (place.1 : K) < visible.x1 := Int.lt_ceil.mp touched.right
    have bottom : (place.2 : K) < visible.y1 := Int.lt_ceil.mp touched.bottom
    rw [abs_le] at column row
    constructor <;> simp only [Rect.inflate, Int.floor_le_iff, Int.lt_ceil] <;> linarith

theorem Prepared.reach_nonneg (effect : Prepared K) : 0 ≤ effect.reach := by
  rw [Prepared.reach]
  have filters : 0 ≤ (effect.filter.map FilterOp.reach).sum := by
    apply List.sum_nonneg
    intro reach member
    obtain ⟨op, _, rfl⟩ := List.mem_map.mp member
    exact op.reach_nonneg
  cases effect.shadow with
  | none => exact add_nonneg filters le_rfl
  | some shadow =>
    have final : 0 ≤ shadow.reach := by
      rw [Shadow.reach]
      positivity
    exact add_nonneg filters final

/-- The filters of an effect on the whole plane. -/
def Prepared.filterField (outside : Outside K) (effect : Prepared K) (field : ℤ × ℤ → Pixel K) :
    ℤ × ℤ → Pixel K :=
  effect.filter.foldl (fun field op => opField outside op field) field

theorem filterField_local (outside : Outside K) (effect : Prepared K) :
    Local (effect.filter.map FilterOp.reach).sum (effect.filterField outside) :=
  Local.chain effect.filter fun op _ => opField_local op

theorem filter_reach (effect : Prepared K) :
    (effect.filter.map FilterOp.reach).sum ≤ effect.reach := by
  apply le_add_of_nonneg_right
  cases effect.shadow with
  | none => exact le_rfl
  | some shadow =>
    simp only [Shadow.reach]
    positivity

theorem shadow_local {effect : Prepared K} {shadow : Shadow K} (final : effect.shadow = some shadow) :
    Local effect.reach fun field => shadowField outside shadow (effect.filterField outside field) := by
  rw [Prepared.reach, final, add_comm]
  exact (shadowField_local shadow).comp (filterField_local outside effect)

/-- The fields of a shape and of its shadow when an effect was applied. -/
theorem apply_field {layer : Layer K} {effect : Prepared K} {outcome : Outcome K}
    (applied : apply outside layer effect = .ok outcome) :
    outcome.shape.field = effect.filterField outside layer.field ∧
      outcome.shadow.map Layer.field = effect.shadow.map fun shadow =>
        shadowField outside shadow (effect.filterField outside layer.field) := by
  obtain ⟨shape, filtered, applied⟩ := bind_ok applied
  have shape' := filters_field filtered
  cases final : effect.shadow with
  | none =>
    rw [final] at applied
    obtain rfl := Except.ok.inj applied
    exact ⟨shape', rfl⟩
  | some shadow =>
    rw [final] at applied
    obtain ⟨under, made, applied⟩ := bind_ok applied
    obtain rfl := Except.ok.inj applied
    exact ⟨shape', congrArg some ((makeShadow_field made).trans (by rw [shape', Prepared.filterField]))⟩

/-- Cropping a layer to what is visible and the margin of the effect is invisible. -/
theorem apply_crop {state : DrawState K} {effect : Prepared K} {layer : Layer K}
    {visible : Rect K} {whole cropped : Outcome K}
    (prepared : prepare outside state = .ok (some effect))
    (applied : apply outside layer effect = .ok whole)
    (applied' : apply outside
      (layer.crop (visible.inflate (margin effect) (margin effect))) effect = .ok cropped) :
    ∀ place, visible.Touches place →
      cropped.shape.field place = whole.shape.field place ∧
        cropped.shadow.map (·.field place) = whole.shadow.map (·.field place) := by
  intro place seen
  obtain ⟨shape, shadow⟩ := apply_field applied
  obtain ⟨shape', shadow'⟩ := apply_field applied'
  have same : ∀ other, Nearness.near effect.reach place other →
      (layer.crop (visible.inflate (margin effect) (margin effect))).field other =
        layer.field other :=
    fun other near => crop_field layer
      (touches_near (reach_margin prepared) effect.reach_nonneg seen near)
  have near := (filterField_local outside effect).mono (filter_reach effect)
  refine ⟨by rw [shape, shape', near _ _ place same], ?_⟩
  have pixel : ∀ shadow : Option (Layer K), shadow.map (·.field place) =
      (shadow.map Layer.field).map (· place) := by
    intro shadow
    rw [Option.map_map]
    rfl
  rw [pixel, pixel, shadow, shadow']
  cases final : effect.shadow with
  | none => rfl
  | some shadow => exact congrArg some (shadow_local final _ _ place same)

end

/-- A pixel that is blurred over its neighbours and leaves a shadow below and between pixels. -/
theorem apply_crop_blurred :
    let outside : Outside ℚ := ⟨fun _ => .ok ⟨0, 0, 0, 1⟩, fun _ _ => 1, fun _ => 0, fun _ => 0⟩
    let effect : Prepared ℚ := ⟨some ⟨1 / 2, 1, 0, ⟨0, 0, 0, 1⟩⟩, [.blur (1 / 3)]⟩
    let layer : Layer ℚ := ⟨0, 0, 12, 1, List.replicate 12 fun _ => 255, rfl⟩
    let visible : Rect ℚ := ⟨-2, 0, 0, 2⟩
    ∃ whole cropped : Outcome ℚ, apply outside layer effect = .ok whole ∧
      apply outside (layer.crop (visible.inflate (margin effect) (margin effect))) effect =
        .ok cropped ∧
      cropped.shape.field (-1, 0) = whole.shape.field (-1, 0) ∧
      cropped.shadow.map (·.field (-1, 0)) = whole.shadow.map (·.field (-1, 0)) := by
  intro outside effect layer visible
  have prepared : prepare outside ⟨0, "black", 1 / 2, 1, [.blur (1 / 3)]⟩ = .ok (some effect) := by
    norm_num [prepare, DrawState.shadow, validate, finiteUnit, outside, effect]
  have whole : (apply outside layer effect).isOk = true := by decide +kernel
  have cropped : (apply outside (layer.crop (visible.inflate (margin effect) (margin effect)))
      effect).isOk = true := by decide +kernel
  cases applied : apply outside layer effect with
  | error error =>
    rw [applied] at whole
    contradiction
  | ok whole =>
    cases applied' : apply outside
        (layer.crop (visible.inflate (margin effect) (margin effect))) effect with
    | error error =>
      rw [applied'] at cropped
      contradiction
    | ok cropped =>
      exact ⟨whole, cropped, rfl, rfl, apply_crop prepared applied applied' (-1, 0)
        ⟨by norm_num [visible], by norm_num [visible], by norm_num [visible], by norm_num [visible],
          by norm_num [visible], by norm_num [visible]⟩⟩

end Chuzz.Canvas2D.Effects
