import Chuzz.Library.Fallible
import Chuzz.Library.Rasters
import Chuzz.Canvas2D.Effects

/-! What the effects do to the plane: a layer is a field of pixels that is transparent outside its
rectangle, and every effect is an operator on such fields, whatever rectangle holds them. -/
namespace Chuzz.Canvas2D.Effects
open Library.Rasters Library.Fallible List
local instance four_ok : NeZero 4 := ⟨by decide⟩
local instance byte_ok : Nat.AtLeastTwo 255 := ⟨by decide⟩
variable {K : Type} [Field K] [LinearOrder K] {weights : List K} {layer : Layer K}

def Layer.field (layer : Layer K) (place : ℤ × ℤ) : Pixel K := layer.sample place.1 place.2

/-- `weights` over a line without ends. -/
def weighField (weights : List K) (value : ℤ → K) (place : ℤ) : K :=
  (weights.zipIdx.map fun weighted =>
    value (place + weighted.2 - (weights.length / 2 : ℕ)) * weighted.1).sum

def blurField (weights : List K) (field : ℤ × ℤ → K) (place : ℤ × ℤ) : K :=
  weighField weights (fun y => weighField weights (fun x => field (x, y)) place.1) place.2

section
omit [LinearOrder K]

theorem foldl_add {α : Type} (items : List α) (term : α → K) (start : K) :
    items.foldl (fun sum item => sum + term item) start = start + (items.map term).sum := by
  induction items generalizing start with
  | nil => rw [foldl_nil, map_nil, sum_nil, add_zero]
  | cons item rest ih => rw [foldl_cons, ih, map_cons, sum_cons, add_assoc]

theorem weigh_eq (extent place : ℕ) (value : ℕ → K) : weigh weights extent place value =
    weighField weights (fun position =>
      if 0 ≤ position ∧ position.toNat < extent then value position.toNat else 0) place := by
  have same : ∀ (sum : K) (weighted : K × ℕ),
      (let position : ℤ := place + weighted.2 - (weights.length / 2 : ℕ)
        if 0 ≤ position ∧ position.toNat < extent then sum + value position.toNat * weighted.1
        else sum) = sum + (fun position : ℤ =>
          if 0 ≤ position ∧ position.toNat < extent then value position.toNat else 0)
            (place + weighted.2 - (weights.length / 2 : ℕ)) * weighted.1 := by
    intro sum weighted
    dsimp only
    split
    · rfl
    · rw [zero_mul, add_zero]
  rw [weigh, weighField]
  simp only [same]
  rw [foldl_add, zero_add]

theorem weighField_congr {first second : ℤ → K} {place : ℤ}
    (same : ∀ other : ℤ, |other - place| ≤ (weights.length / 2 : ℕ) → first other = second other) :
    weighField weights first place = weighField weights second place := by
  rw [weighField, weighField]
  congr 1
  apply map_congr_left
  intro weighted member
  have inside : weighted.2 < weights.length := by
    obtain ⟨index, bound, _⟩ := mem_zipIdx member
    omega
  rw [same]
  rw [abs_le]
  omega

theorem weighField_zero (place : ℤ) : weighField weights (fun _ => 0) place = 0 := by
  rw [weighField]
  simp

theorem weighField_shift (value : ℤ → K) (place shift : ℤ) :
    weighField weights (fun other => value (other + shift)) place =
      weighField weights value (place + shift) := by
  rw [weighField, weighField]
  congr 1
  apply map_congr_left
  intro weighted _
  congr 2
  ring

theorem blurField_shift (field : ℤ × ℤ → K) (x y : ℤ) (place : ℤ × ℤ) :
    blurField weights (fun other => field (other.1 + x, other.2 + y)) place =
      blurField weights field (place.1 + x, place.2 + y) := by
  rw [blurField, blurField]
  rw [← weighField_shift]
  congr 1
  funext other
  exact weighField_shift (fun position => field (position, other + y)) place.1 x

theorem blurField_congr {first second : ℤ × ℤ → K} {place : ℤ × ℤ}
    (same : ∀ other : ℤ × ℤ, |other.1 - place.1| ≤ (weights.length / 2 : ℕ) →
      |other.2 - place.2| ≤ (weights.length / 2 : ℕ) → first other = second other) :
    blurField weights first place = blurField weights second place :=
  weighField_congr fun _ near => weighField_congr fun _ nearer => same _ nearer near

theorem blurField_zero (place : ℤ × ℤ) : blurField weights (fun _ => 0) place = 0 := by
  rw [blurField]
  simp only [weighField_zero]

theorem blurField_one (field : ℤ × ℤ → K) : blurField [1] field = field := by
  funext place
  simp [blurField, weighField]

end

variable {width height : ℕ}

section
omit [LinearOrder K]

variable {x y : ℤ}

theorem planeAt_inside {plane : List K} (left : 0 ≤ x) (right : x < width) (top : 0 ≤ y)
    (bottom : y < height) :
    planeAt plane width height x y = plane.getD (y.toNat * width + x.toNat) 0 := by
  rw [planeAt, if_neg]
  omega

theorem planeAt_outside {plane : List K} (outside : ¬ (0 ≤ x ∧ x < width ∧ 0 ≤ y ∧ y < height)) :
    planeAt plane width height x y = 0 := by
  rw [planeAt, if_pos]
  omega

theorem planeAt_blurPlane {source : List K} (left : 0 ≤ x) (right : x < width)
    (top : 0 ≤ y) (bottom : y < height) :
    planeAt (blurPlane source width height weights) width height x y =
      blurField weights (fun place => planeAt source width height place.1 place.2) (x, y) := by
  rw [planeAt_inside left right top bottom, blurPlane]
  rw [rows_getD _ (by omega) (by omega), weigh_eq, blurField, Int.toNat_of_nonneg top]
  congr 1
  funext row
  split
  next inside =>
    rw [rows_getD _ (by omega) inside.2, weigh_eq, Int.toNat_of_nonneg left]
    congr 1
    funext column
    split
    next within => rw [planeAt_inside within.1 (by omega) inside.1 (by omega)]
    next beyond => rw [planeAt_outside (by omega)]
  next beyond =>
    rw [← weighField_zero x]
    congr 1
    funext column
    rw [planeAt_outside (by omega)]

theorem Layer.field_inside (left : layer.x ≤ x) (right : x < layer.x + layer.width)
    (top : layer.y ≤ y) (bottom : y < layer.y + layer.height) : layer.field (x, y) =
      layer.pixels.getD ((y - layer.y).toNat * layer.width + (x - layer.x).toNat) 0 := by
  simp only [Layer.field, Layer.sample]
  rw [if_neg]
  omega

theorem Layer.field_outside {place : ℤ × ℤ}
    (outside : ¬ (layer.x ≤ place.1 ∧ place.1 < layer.x + layer.width ∧ layer.y ≤ place.2 ∧
      place.2 < layer.y + layer.height)) : layer.field place = 0 := by
  simp only [Layer.field, Layer.sample]
  rw [if_pos]
  omega

theorem Layer.field_empty (empty : layer.isEmpty = true) : layer.field = fun _ => 0 := by
  funext place
  apply Layer.field_outside
  simp only [Layer.isEmpty, Bool.or_eq_true, decide_eq_true_eq] at empty
  omega

theorem Layer.field_ofRows {value : ℕ → ℕ → Pixel K} {place : ℤ × ℤ} (left : x ≤ place.1)
    (right : place.1 < x + width) (top : y ≤ place.2) (bottom : place.2 < y + height) :
    (Layer.ofRows x y width height value).field place =
      value (place.1 - x).toNat (place.2 - y).toNat := by
  rw [← Prod.mk.eta (p := place), Layer.field_inside left right top bottom]
  have column : (place.1 - x).toNat < width := by omega
  have row : (place.2 - y).toNat < height := by omega
  exact rows_getD value column row _

theorem planeAt_surround (radius : ℕ) (channel : Fin 4) (x y : ℤ) :
    planeAt (surround layer radius channel) (layer.width + radius * 2)
      (layer.height + radius * 2) x y =
        layer.field (x + (layer.x - radius), y + (layer.y - radius)) channel := by
  by_cases within : 0 ≤ x ∧ x < (layer.width + radius * 2 : ℕ) ∧ 0 ≤ y ∧
      y < (layer.height + radius * 2 : ℕ)
  case neg =>
    rw [planeAt_outside within, Layer.field_outside (by dsimp only; omega)]
    rfl
  obtain ⟨left, right, top, bottom⟩ := within
  rw [planeAt_inside left right top bottom, surround, getD_eq_getElem?_getD]
  have place : y.toNat * (layer.width + radius * 2) + x.toNat <
      (layer.width + radius * 2) * (layer.height + radius * 2) :=
    place_lt (by omega) (by omega)
  by_cases inside : (radius : ℤ) ≤ x ∧ x < layer.width + radius ∧ (radius : ℤ) ≤ y ∧
      y < layer.height + radius
  case pos =>
    have column : (x - radius).toNat + radius = x.toNat := by omega
    have row : (y - radius).toNat + radius = y.toNat := by omega
    have column' : (x + (layer.x - radius) - layer.x).toNat = (x - radius).toNat := by omega
    have row' : (y + (layer.y - radius) - layer.y).toNat = (y - radius).toNat := by omega
    rw [Layer.field_inside (by omega) (by omega) (by omega) (by omega), column', row']
    rw [writes_here (by rwa [length_replicate])]
    · exact Option.getD_some
    · refine mem_rows.mpr ⟨(x - radius).toNat, (y - radius).toNat, by omega, by omega, ?_⟩
      rw [column, row]
    · intro other member index
      obtain ⟨left', top', wide, high, rfl⟩ := mem_rows.mp member
      obtain ⟨same, same'⟩ := place_inj (by omega) (by omega) index
      have column : left' = (x - radius).toNat := by omega
      have row : top' = (y - radius).toNat := by omega
      rw [column, row]
  case neg =>
    rw [Layer.field_outside (by dsimp only; omega), writes_other, getElem?_replicate_of_lt place]
    · rfl
    · intro other member index
      obtain ⟨column, row, wide, high, rfl⟩ := mem_rows.mp member
      obtain ⟨same, same'⟩ := place_inj (by omega) (by omega) index
      omega

/-- A rectangle with enough transparent pixels around it is blurred as the whole plane is. -/
theorem planeAt_blurred {radius : ℕ} (reach : weights.length / 2 ≤ radius) (channel : Fin 4)
    (x y : ℤ) :
    planeAt (blurPlane (surround layer radius channel) (layer.width + radius * 2)
      (layer.height + radius * 2) weights) (layer.width + radius * 2)
      (layer.height + radius * 2) x y =
        blurField weights (fun place => layer.field place channel)
          (x + (layer.x - radius), y + (layer.y - radius)) := by
  by_cases within : 0 ≤ x ∧ x < (layer.width + radius * 2 : ℕ) ∧ 0 ≤ y ∧
      y < (layer.height + radius * 2 : ℕ)
  case pos =>
    obtain ⟨left, right, top, bottom⟩ := within
    rw [planeAt_blurPlane left right top bottom]
    simp only [planeAt_surround]
    exact blurField_shift (fun place => layer.field place channel) _ _ (x, y)
  case neg =>
    rw [planeAt_outside within, ← blurField_zero (x + (layer.x - radius), y + (layer.y - radius))]
    apply blurField_congr
    intro other near near'
    rw [abs_le] at near near'
    rw [Layer.field_outside (by dsimp only at near near'; omega)]
    rfl

end

section
variable [FloorRing K] {outside : Outside K}

theorem kernel_reach (outside : Outside K) (sigma : K) : (kernel outside sigma).length / 2 ≤ radiusFor sigma := by
  rw [kernel]
  dsimp only
  split
  · simp
  · split
    · simp
    · rw [length_map, length_map, length_range]
      omega

theorem kernel_sharp {sigma : K} (sharp : radiusFor sigma = 0) : kernel outside sigma = [1] := by
  rw [kernel]
  rw [if_pos sharp]

/-- Between four pixels of the plane. -/
def between (field : ℤ × ℤ → K) (x y : K) : K :=
  let fx := x - ⌊x⌋
  let fy := y - ⌊y⌋
  field (⌊x⌋, ⌊y⌋) * (1 - fx) * (1 - fy) + field (⌊x⌋ + 1, ⌊y⌋) * fx * (1 - fy) +
    field (⌊x⌋, ⌊y⌋ + 1) * (1 - fx) * fy + field (⌊x⌋ + 1, ⌊y⌋ + 1) * fx * fy

def shadowField (outside : Outside K) (shadow : Shadow K) (field : ℤ × ℤ → Pixel K)
    (place : ℤ × ℤ) : Pixel K :=
  shade shadow.color (clamp (between (blurField (kernel outside shadow.sigma)
    fun other => field other 3) (place.1 - shadow.offsetX) (place.2 - shadow.offsetY)) 0 255)

def recolour (matrix : Matrix K) (field : ℤ × ℤ → Pixel K) (place : ℤ × ℤ) : Pixel K :=
  matrix.apply (field place)

/-- A filter on the whole plane. -/
def opField (outside : Outside K) : FilterOp K → (ℤ × ℤ → Pixel K) → ℤ × ℤ → Pixel K
  | .blur px => fun field place channel =>
    blurField (kernel outside px) (fun other => field other channel) place
  | .dropShadow x y blur color => fun field place =>
    match outside.parseColour color with
    | .ok color => cover (field place) (shadowField outside ⟨x, y, blur, color⟩ field place)
    | .error _ => field place
  | .brightness amount => recolour (brightness amount)
  | .contrast amount => recolour (contrast amount)
  | .grayscale amount => recolour (grayscale amount)
  | .invert amount => recolour (invert amount)
  | .opacity amount => recolour (opacity amount)
  | .saturate amount => recolour (saturate amount)
  | .sepia amount => recolour (sepia amount)
  | .hueRotate deg => recolour (hueRotate outside deg)

variable {field : ℤ × ℤ → K}

theorem bilinear_eq [IsStrictOrderedRing K] {plane : List K} {width height : ℕ} {shiftX shiftY : ℤ}
    (same : ∀ x y, planeAt plane width height x y = field (x + shiftX, y + shiftY)) (x y : K) :
    bilinear plane width height (x - shiftX) (y - shiftY) = between field x y := by
  rw [bilinear, between]
  simp only [same, Int.floor_sub_intCast, Int.cast_sub, sub_add_cancel, sub_sub_sub_cancel_right]
  rw [sub_add_eq_add_sub, sub_add_cancel, sub_add_eq_add_sub, sub_add_cancel]

theorem between_columns {x y : K}
    (clear : (∀ row, field (⌊x⌋, row) = 0) ∧ (x - ⌊x⌋ = 0 ∨ ∀ row, field (⌊x⌋ + 1, row) = 0)) :
    between field x y = 0 := by
  rw [between]
  rcases clear with ⟨first, whole | second⟩
  · simp [first, whole]
  · simp [first, second]

theorem between_rows {x y : K} (clear : (∀ column, field (column, ⌊y⌋) = 0) ∧
      (y - ⌊y⌋ = 0 ∨ ∀ column, field (column, ⌊y⌋ + 1) = 0)) :
    between field x y = 0 := by
  rw [between]
  rcases clear with ⟨first, whole | second⟩
  · simp [first, whole]
  · simp [first, second]

/-- Where the pixels that a moved line covers end, the next line of the source is looked at only
when the move is by whole pixels, and then it does not count. -/
theorem line_beyond [IsStrictOrderedRing K] {left : ℤ} {extent : ℕ} {offset : K} {place : ℤ}
    {P : ℤ → Prop}
    (beyond : ¬ (⌊(left : K) + offset⌋ ≤ place ∧ place < ⌈(left : K) + extent + offset⌉))
    (off : ∀ other, ¬ (left ≤ other ∧ other < left + extent) → P other) :
    P ⌊(place : K) - offset⌋ ∧
      ((place : K) - offset - ⌊(place : K) - offset⌋ = 0 ∨ P (⌊(place : K) - offset⌋ + 1)) := by
  rw [not_and_or, not_le, not_lt, ← Int.add_one_le_iff, Int.le_floor, Int.ceil_le] at beyond
  rcases beyond with before | after
  · rw [Int.cast_add, Int.cast_one] at before
    have floor : ⌊(place : K) - offset⌋ < left := Int.floor_lt.mpr (by linarith)
    refine ⟨off _ (by omega), ?_⟩
    rcases (Int.add_one_le_of_lt floor).lt_or_eq with less | same
    · exact .inr (off _ (by omega))
    · left
      have above := Int.floor_le ((place : K) - offset)
      have column : (⌊(place : K) - offset⌋ : K) + 1 = left := by exact_mod_cast same
      linarith
  · have floor : left + extent ≤ ⌊(place : K) - offset⌋ := by
      rw [Int.le_floor, Int.cast_add, Int.cast_natCast]
      linarith
    exact ⟨off _ (by omega), .inr (off _ (by omega))⟩

theorem checkExtent_bind {width height : ℕ} {α : Type} {next : Except String α} {result : α}
    (done : (checkExtent width height >>= fun _ => next) = .ok result) : next = .ok result := by
  obtain ⟨_, _, done⟩ := bind_ok done
  exact done

theorem shiftedOrigin_ok {origin moved : ℤ} {radius : ℕ}
    (done : shiftedOrigin origin radius = .ok moved) : moved = origin - radius :=
  (Except.ok.inj (guard_ok done).2).symm

theorem bounded_ok {value result : ℤ} (done : bounded value = .ok result) : result = value :=
  (Except.ok.inj (guard_ok done).2).symm

omit [FloorRing K] in
theorem shade_none (color : Color K) : shade color 0 = 0 := by
  rw [shade, if_pos le_rfl]

variable {source : Layer K}

theorem shadow_surround (sigma : K) (x y : ℤ) : planeAt (if 0 < radiusFor sigma then
        blurPlane (surround source (radiusFor sigma) 3) (source.width + radiusFor sigma * 2)
          (source.height + radiusFor sigma * 2) (kernel outside sigma)
      else surround source (radiusFor sigma) 3) (source.width + radiusFor sigma * 2)
      (source.height + radiusFor sigma * 2) x y =
        blurField (kernel outside sigma) (fun place => source.field place 3)
          (x + (source.x - radiusFor sigma), y + (source.y - radiusFor sigma)) := by
  split
  next blurred => exact planeAt_blurred (kernel_reach outside sigma) 3 x y
  next sharp =>
    rw [kernel_sharp (Nat.eq_zero_of_not_pos sharp), blurField_one]
    exact planeAt_surround (radiusFor sigma) 3 x y

variable {place : ℤ × ℤ}

/-- A blur reaches no further than the transparent pixels around the layer. -/
theorem blurField_beyond {sigma : K} (channel : Fin 4)
    (beyond : ¬ (source.x - radiusFor sigma ≤ place.1 ∧
        place.1 < source.x - radiusFor sigma + (source.width + radiusFor sigma * 2 : ℕ)) ∨
      ¬ (source.y - radiusFor sigma ≤ place.2 ∧
        place.2 < source.y - radiusFor sigma + (source.height + radiusFor sigma * 2 : ℕ))) :
    blurField (kernel outside sigma) (fun other => source.field other channel) place = 0 := by
  rw [← blurField_zero place]
  apply blurField_congr
  intro other near near'
  have reach := kernel_reach outside sigma
  rw [abs_le] at near near'
  rw [Layer.field_outside (by omega)]
  rfl

variable {shadow : Shadow K}

theorem shadowField_clear [IsStrictOrderedRing K] {field : ℤ × ℤ → Pixel K}
    (clear : between (blurField (kernel outside shadow.sigma) fun other => field other 3)
      (place.1 - shadow.offsetX) (place.2 - shadow.offsetY) = 0) :
    shadowField outside shadow field place = 0 := by
  rw [shadowField, clear, clamp, max_self, min_eq_left, shade_none]
  exact Nat.ofNat_nonneg 255

theorem shadowField_beyond [IsStrictOrderedRing K]
    {radius : ℕ} (same : radius = radiusFor shadow.sigma)
    (beyond : ¬ (⌊((source.x - radius : ℤ) : K) + shadow.offsetX⌋ ≤ place.1 ∧ place.1 <
        ⌈((source.x - radius : ℤ) : K) + (source.width + radius * 2 : ℕ) + shadow.offsetX⌉) ∨
      ¬ (⌊((source.y - radius : ℤ) : K) + shadow.offsetY⌋ ≤ place.2 ∧ place.2 <
        ⌈((source.y - radius : ℤ) : K) + (source.height + radius * 2 : ℕ) + shadow.offsetY⌉)) :
    shadowField outside shadow source.field place = 0 := by
  subst same
  apply shadowField_clear
  rcases beyond with column | row
  · exact between_columns (line_beyond (P := fun x => ∀ y, blurField
      (kernel outside shadow.sigma) (fun other => source.field other 3) (x, y) = 0) column
      fun other off row => blurField_beyond 3 (.inl off))
  · exact between_rows (line_beyond (P := fun y => ∀ x, blurField
      (kernel outside shadow.sigma) (fun other => source.field other 3) (x, y) = 0) row
      fun other off column => blurField_beyond 3 (.inr off))

theorem makeShadow_field [IsStrictOrderedRing K] {source under : Layer K}
    (made : makeShadow outside source shadow = .ok under) :
    under.field = shadowField outside shadow source.field := by
  rw [makeShadow] at made
  split at made
  next empty =>
    obtain rfl := Except.ok.inj made
    funext place
    rw [Layer.field_empty rfl, Layer.field_empty empty, shadowField_clear]
    exact between_rows ⟨fun _ => blurField_zero _, .inr fun _ => blurField_zero _⟩
  dsimp only at made
  obtain ⟨blurredX, originX, made⟩ := bind_ok (checkExtent_bind made)
  obtain ⟨blurredY, originY, made⟩ := bind_ok made
  obtain ⟨x0, left, made⟩ := bind_ok made
  obtain ⟨y0, top, made⟩ := bind_ok made
  obtain ⟨x1, right, made⟩ := bind_ok made
  obtain ⟨y1, bottom, made⟩ := bind_ok made
  obtain rfl := shiftedOrigin_ok originX
  obtain rfl := shiftedOrigin_ok originY
  obtain rfl := bounded_ok left
  obtain rfl := bounded_ok top
  obtain rfl := bounded_ok right
  obtain rfl := bounded_ok bottom
  funext place
  by_cases inside : (⌊((source.x - radiusFor shadow.sigma : ℤ) : K) + shadow.offsetX⌋ ≤ place.1 ∧
      place.1 < ⌈((source.x - radiusFor shadow.sigma : ℤ) : K) +
        (source.width + radiusFor shadow.sigma * 2 : ℕ) + shadow.offsetX⌉) ∧
      (⌊((source.y - radiusFor shadow.sigma : ℤ) : K) + shadow.offsetY⌋ ≤ place.2 ∧
      place.2 < ⌈((source.y - radiusFor shadow.sigma : ℤ) : K) +
        (source.height + radiusFor shadow.sigma * 2 : ℕ) + shadow.offsetY⌉)
  case pos =>
    split at made
    next none => omega
    next some =>
      obtain rfl := Except.ok.inj (checkExtent_bind made)
      rw [Layer.field_ofRows (by omega) (by omega) (by omega) (by omega), shadowField]
      rw [Int.toNat_of_nonneg (by omega), Int.toNat_of_nonneg (by omega), add_sub_cancel,
        add_sub_cancel, bilinear_eq (shadow_surround shadow.sigma)]
  case neg =>
    rw [shadowField_beyond rfl (not_and_or.mp inside)]
    split at made
    next none =>
      obtain rfl := Except.ok.inj made
      rw [Layer.field_empty rfl]
    next some =>
      obtain rfl := Except.ok.inj (checkExtent_bind made)
      apply Layer.field_outside
      simp only [Layer.ofRows]
      omega

section
omit [FloorRing K]

theorem cover_none [IsStrictOrderedRing K] (atop : Pixel K) : cover atop 0 = atop := by
  funext channel
  rw [cover, Pi.zero_apply, zero_mul, add_zero]

theorem cover_clear [IsStrictOrderedRing K] (under : Pixel K) : cover 0 under = under := by
  funext channel
  rw [cover, Pi.zero_apply, Pi.zero_apply, zero_div, clamp, max_self, min_eq_left zero_le_one,
    sub_zero, mul_one, zero_add]

theorem sourceOver_field [IsStrictOrderedRing K] {under atop both : Layer K}
    (drawn : sourceOver under atop = .ok both) :
    both.field = fun place => cover (atop.field place) (under.field place) := by
  rw [sourceOver] at drawn
  split at drawn
  next empty =>
    obtain rfl := Except.ok.inj drawn
    rw [Layer.field_empty empty]
    simp only [cover_none]
  split at drawn
  next empty =>
    obtain rfl := Except.ok.inj drawn
    rw [Layer.field_empty empty]
    simp only [cover_clear]
  obtain ⟨originX, left, drawn⟩ := bind_ok (checkExtent_bind drawn)
  obtain ⟨originY, top, drawn⟩ := bind_ok drawn
  obtain rfl := bounded_ok left
  obtain rfl := bounded_ok top
  obtain rfl := Except.ok.inj drawn
  funext place
  by_cases inside : (min under.x atop.x ≤ place.1 ∧
      place.1 < max (under.x + under.width) (atop.x + atop.width)) ∧
      min under.y atop.y ≤ place.2 ∧
      place.2 < max (under.y + under.height) (atop.y + atop.height)
  case pos =>
    rw [Layer.field_ofRows (by omega) (by omega) (by omega) (by omega)]
    rw [Int.toNat_of_nonneg (by omega), Int.toNat_of_nonneg (by omega), add_sub_cancel,
      add_sub_cancel]
    rfl
  case neg =>
    rw [Layer.field_outside (by simp only [Layer.ofRows]; omega), Layer.field_outside (by omega),
      Layer.field_outside (by omega), cover_none]

theorem Matrix.apply_clear (matrix : Matrix K) : matrix.apply 0 = 0 := by
  exact if_pos le_rfl

theorem mapColors_field (matrix : Matrix K) :
    (mapColors layer matrix).field = recolour matrix layer.field := by
  funext place
  simp only [Layer.field, Layer.sample, mapColors, recolour]
  rw [apply_ite matrix.apply, matrix.apply_clear]
  congr 1
  rw [getD_eq_getElem?_getD, getElem?_map, getD_eq_getElem?_getD]
  cases layer.pixels[(place.2 - layer.y).toNat * layer.width + (place.1 - layer.x).toNat]? with
  | none => exact matrix.apply_clear.symm
  | some pixel => rfl

end

theorem blurLayer_field {sigma : K} {blurred : Layer K}
    (done : blurLayer outside layer sigma = .ok blurred) :
    blurred.field = opField outside (.blur sigma) layer.field := by
  rw [blurLayer] at done
  split at done
  next unchanged =>
    obtain rfl := Except.ok.inj done
    funext place channel
    simp only [opField]
    rcases unchanged with sharp | empty
    · rw [kernel_sharp sharp, blurField_one]
    · rw [Layer.field_empty empty]
      exact (blurField_zero place).symm
  obtain ⟨x, left, done⟩ := bind_ok (checkExtent_bind done)
  obtain ⟨y, top, done⟩ := bind_ok done
  obtain rfl := shiftedOrigin_ok left
  obtain rfl := shiftedOrigin_ok top
  obtain rfl := Except.ok.inj done
  funext ⟨x, y⟩ channel
  simp only [opField]
  by_cases inside : (layer.x - radiusFor sigma ≤ x ∧
      x < layer.x - radiusFor sigma + (layer.width + radiusFor sigma * 2 : ℕ)) ∧
      layer.y - radiusFor sigma ≤ y ∧
      y < layer.y - radiusFor sigma + (layer.height + radiusFor sigma * 2 : ℕ)
  case pos =>
    obtain ⟨⟨wide, wide'⟩, high, high'⟩ := inside
    have column : (x - (layer.x - radiusFor sigma)).toNat < layer.width + radiusFor sigma * 2 := by
      omega
    have row : (y - (layer.y - radiusFor sigma)).toNat < layer.height + radiusFor sigma * 2 := by
      omega
    rw [Layer.field_inside wide wide' high high']
    rw [getD_eq_getElem?_getD, getElem?_map,
      getElem?_range (place_lt column row), Option.map_some, Option.getD_some]
    have drawn := @planeAt_blurred _ _ _ layer _ (kernel_reach outside sigma) channel
      (x - (layer.x - radiusFor sigma)) (y - (layer.y - radiusFor sigma))
    rw [planeAt_inside, sub_add_cancel, sub_add_cancel] at drawn
    · exact drawn
    all_goals omega
  case neg =>
    rw [Layer.field_outside (by dsimp only; omega), blurField_beyond channel (not_and_or.mp inside)]
    rfl

theorem applyOp_field [IsStrictOrderedRing K] {op : FilterOp K} {after : Layer K}
    (done : applyOp outside layer op = .ok after) :
    after.field = opField outside op layer.field := by
  cases op with
  | blur px => exact blurLayer_field done
  | dropShadow x y blur color =>
    obtain ⟨color', parsed, done⟩ := bind_ok done
    obtain ⟨under, made, done⟩ := bind_ok done
    rw [sourceOver_field done, makeShadow_field made, opField, parsed]
  | brightness amount => exact Except.ok.inj done ▸ mapColors_field _
  | contrast amount => exact Except.ok.inj done ▸ mapColors_field _
  | grayscale amount => exact Except.ok.inj done ▸ mapColors_field _
  | invert amount => exact Except.ok.inj done ▸ mapColors_field _
  | opacity amount => exact Except.ok.inj done ▸ mapColors_field _
  | saturate amount => exact Except.ok.inj done ▸ mapColors_field _
  | sepia amount => exact Except.ok.inj done ▸ mapColors_field _
  | hueRotate deg => exact Except.ok.inj done ▸ mapColors_field _

theorem filters_field [IsStrictOrderedRing K] {filters : List (FilterOp K)} {after : Layer K}
    (done : filters.foldlM (applyOp outside) layer = .ok after) :
    after.field = filters.foldl (fun field op => opField outside op field) layer.field := by
  induction filters generalizing layer with
  | nil =>
    obtain rfl := Except.ok.inj done
    rfl
  | cons op rest ih =>
    obtain ⟨next, applied, done⟩ := bind_ok done
    rw [ih done, applyOp_field applied, foldl_cons]

end

end Chuzz.Canvas2D.Effects
