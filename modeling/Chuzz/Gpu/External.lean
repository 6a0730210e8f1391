import Chuzz.Library.Fallible
import Chuzz.Library.Rasters

/-! External images: the crops of `createImageBitmap` and the copies into a texture. -/
namespace Chuzz.External
open Library List

inductive Fault where
  | refused (message : String)
  /-- A result that does not fit its type, or a slice out of range. -/
  | overflow

structure Raster where
  width : Nat
  height : Nat
  data : List UInt8

/-- The images of the page engine: four bytes for each pixel, in one allocation. -/
structure Image extends Raster where
  wide : width < 2 ^ 32
  high : height < 2 ^ 32
  whole : data.length = width * height * 4
  allocated : data.length < 2 ^ 63

abbrev Fallible := Except Fault

def refuse {α : Type} (message : String) : Fallible α := .error (.refused message)

def fits (bits value : Nat) : Fallible Nat :=
  if value < 2 ^ bits then .ok value else .error .overflow

def less (first second : Nat) : Fallible Nat :=
  if second ≤ first then .ok (first - second) else .error .overflow

def int64 (value : Int) : Fallible Int :=
  if -2 ^ 63 ≤ value ∧ value < 2 ^ 63 then .ok value else .error .overflow

def allocationLimit : Nat := 64 * 1024 * 1024

def byteCount (width height : Nat) : Fallible Nat := do
  let count ← fits 64 (width * height * 4)
  if width = 0 ∨ height = 0 ∨ allocationLimit < count then
    refuse "invalid or oversized image in chuzz"
  else pure count

/-- The four bytes of a pixel. -/
def pixel (data : List UInt8) (index : Nat) : List UInt8 := (data.drop (index * 4)).take 4

/-- `copy_from_slice` of four bytes. -/
def copyPixel (data : List UInt8) (place : Nat) (source : List UInt8) (start : Nat) :
    Fallible (List UInt8) :=
  if place + 4 ≤ data.length ∧ start + 4 ≤ source.length then
    .ok (data.take place ++ ((source.drop start).take 4 ++ data.drop (place + 4)))
  else .error .overflow

/-- The row that is read for a row. -/
def lineOf (flipY : Bool) (height row : Nat) : Fallible Nat :=
  if flipY then do less (← less height row) 1 else pure row

section Cropping

/-- A crop of 32-bit integers. -/
structure Rect where
  x : Int
  y : Int
  width : Int
  height : Int

structure BitmapOptions where
  crop : Option Rect
  flipY : Bool
  resizeWidth : Option Nat
  resizeHeight : Option Nat
  resizeQuality : String

/-- Where an extent begins, and its size without a sign. -/
def turned (start size : Int) : Fallible (Int × Int) :=
  if size < 0 then
    if start + size < -2 ^ 31 ∨ 2 ^ 31 ≤ -size then refuse "image crop overflow"
    else pure (start + size, -size)
  else pure (start, size)

def cropPixel (source : Image) (x : Int) (width : Nat) (sourceY : Int) (row : Nat)
    (data : List UInt8) (column : Nat) : Fallible (List UInt8) := do
  let sourceX ← int64 (x + column)
  if sourceX < 0 ∨ source.width ≤ sourceX then pure data
  else
    let start ← fits 64 ((sourceY.toNat * source.width + sourceX.toNat) * 4)
    let place ← fits 64 ((row * width + column) * 4)
    copyPixel data place source.data start

variable (source : Image) (x y : Int) (width height : Nat) (flipY : Bool)

def cropRow (data : List UInt8) (row : Nat) : Fallible (List UInt8) := do
  let line ← lineOf flipY height row
  let sourceY ← int64 (y + line)
  if sourceY < 0 ∨ source.height ≤ sourceY then pure data
  else (List.range width).foldlM (cropPixel source x width sourceY row) data

def crop : Fallible (List UInt8) := do
  let size ← byteCount width height
  (List.range height).foldlM (cropRow source x y width height flipY) (List.replicate size 0)

/-- An extent that follows the other one, rounded up. -/
def scaled (extent target other : Nat) : Nat :=
  min ((extent * target + other - 1) / other) (2 ^ 32 - 1)

/-- What is outside of this repository is the filter that resizes. -/
def bitmap (resize : String → Raster → Nat → Nat → List UInt8) (options : BitmapOptions) :
    Fallible Raster := do
  if 2 ^ 31 ≤ source.width then refuse "image width overflow"
  if 2 ^ 31 ≤ source.height then refuse "image height overflow"
  let rect := options.crop.getD ⟨0, 0, source.width, source.height⟩
  let (x, width) ← turned rect.x rect.width
  let (y, height) ← turned rect.y rect.height
  if width < 0 ∨ height < 0 then refuse "invalid image crop"
  let width := width.toNat
  let height := height.toNat
  let _ ← byteCount width height
  let targetWidth := options.resizeWidth.getD
    ((options.resizeHeight.map fun target => scaled width target height).getD width)
  let targetHeight := options.resizeHeight.getD
    ((options.resizeWidth.map fun target => scaled height target width).getD height)
  let _ ← byteCount targetWidth targetHeight
  if options.resizeQuality ∉ ["pixelated", "low", "medium", "high"] then
    refuse "invalid ImageBitmapOptions.resizeQuality"
  if x = 0 ∧ y = 0 ∧ width = source.width ∧ height = source.height ∧
      targetWidth = width ∧ targetHeight = height ∧ options.flipY = false then
    pure source.toRaster
  else
    let data ← crop source x y width height options.flipY
    if targetWidth ≠ width ∨ targetHeight ≠ height then
      pure ⟨targetWidth, targetHeight,
        resize options.resizeQuality ⟨width, height, data⟩ targetWidth targetHeight⟩
    else pure ⟨targetWidth, targetHeight, data⟩

/-- The pixel of an image at any place of the plane. -/
def Image.at (x y : Int) : List UInt8 :=
  if 0 ≤ x ∧ x < source.width ∧ 0 ≤ y ∧ y < source.height then
    pixel source.data (y.toNat * source.width + x.toNat)
  else List.replicate 4 0

/-- The row of the source that is shown in a row. -/
def shown (row : Nat) : Nat := if flipY then height - row - 1 else row

/-- What a crop shows. -/
structure Shows (data : List UInt8) : Prop where
  length : data.length = width * height * 4
  pixels : ∀ column row, column < width → row < height →
    pixel data (row * width + column) = source.at (x + column) (y + shown height flipY row)

end Cropping

section Pixels
variable {data source out : List UInt8} {index place start : Nat}

theorem pixel_getElem? (data : List UInt8) (index k : Nat) :
    (pixel data index)[k]? = if k < 4 then data[index * 4 + k]? else none := by
  rw [pixel, getElem?_take, getElem?_drop]

variable {count : Nat}

theorem pixel_replicate (inside : index < count) :
    pixel (List.replicate (count * 4) 0) index = List.replicate 4 0 := by
  rw [pixel, drop_replicate, take_replicate]
  congr 1
  omega

theorem pixels_ext (length : data.length = count * 4) (length' : out.length = count * 4)
    (same : ∀ index < count, pixel data index = pixel out index) : data = out := by
  refine ext_getElem? fun k => ?_
  by_cases inside : k < count * 4
  · have read := congrArg (·[k % 4]?) (same (k / 4) (by omega))
    simp only [pixel_getElem?, if_pos (Nat.mod_lt k (show 0 < 4 by decide))] at read
    rwa [Nat.mul_comm, Nat.div_add_mod] at read
  · rw [getElem?_eq_none (by omega), getElem?_eq_none (by omega)]

theorem copyPixel_spec (here : place < count) (length : data.length = count * 4)
    (there : start * 4 + 4 ≤ source.length) :
    ∃ out, copyPixel data (place * 4) source (start * 4) = .ok out ∧ out.length = count * 4 ∧
      ∀ index, pixel out index = if index = place then pixel source start else pixel data index := by
  have inside : place * 4 + 4 ≤ data.length ∧ start * 4 + 4 ≤ source.length := ⟨by omega, there⟩
  rw [copyPixel, if_pos inside]
  refine ⟨_, rfl, ?_, fun index => ext_getElem? fun k => ?_⟩
  · simp only [length_append, length_take, length_drop]
    omega
  · simp only [pixel_getElem?, getElem?_append, getElem?_take, getElem?_drop,
      length_take, length_drop]
    grind [pixel_getElem?]

theorem lineOf_ok {flipY : Bool} {height row : Nat} (below : row < height) :
    lineOf flipY height row = .ok (shown height flipY row) := by
  rw [shown]
  cases flipY with
  | false => rfl
  | true => simp only [lineOf, if_true, less, bind, Except.bind, if_pos below.le,
      if_pos (show 1 ≤ height - row by omega)]

theorem shown_lt {flipY : Bool} {height row : Nat} (below : row < height) :
    shown height flipY row < height := by
  rw [shown]
  split <;> omega

theorem fits_ok {bits value : Nat} (small : value < 2 ^ bits) : fits bits value = .ok value :=
  if_pos small

theorem byteCount_eq {width height : Nat} (bounded : width * height * 4 < 2 ^ 64) :
    byteCount width height = if width = 0 ∨ height = 0 ∨ allocationLimit < width * height * 4 then
      refuse "invalid or oversized image in chuzz" else .ok (width * height * 4) := by
  rw [byteCount, fits_ok bounded]
  rfl

end Pixels

section Crop
variable {source : Image} {x y : Int} {width height : Nat} {flipY : Bool}

/-- The pixels before one place are those of the crop, and the others are blank. -/
def Filled (source : Image) (x y : Int) (width height : Nat) (flipY : Bool) (count : Nat)
    (data : List UInt8) : Prop :=
  data.length = width * height * 4 ∧ ∀ column row, column < width → row < height →
    pixel data (row * width + column) = if row * width + column < count then
      source.at (x + column) (y + shown height flipY row) else List.replicate 4 0

variable {data : List UInt8}

theorem Filled.blank {column row : Nat}
    (filled : Filled source x y width height flipY (row * width + column) data)
    (inside : column < width)
    (outside : source.at (x + column) (y + shown height flipY row) = List.replicate 4 0) :
    Filled source x y width height flipY (row * width + column + 1) data := by
  refine ⟨filled.1, fun column' row' inside' below => ?_⟩
  rw [filled.2 column' row' inside' below]
  by_cases same : row' * width + column' = row * width + column
  · obtain ⟨rfl, rfl⟩ := Rasters.place_inj inside' inside same
    rw [if_neg (lt_irrefl _), if_pos (Nat.lt_succ_self _), outside]
  · exact if_congr (by omega) rfl rfl

theorem cropPixel_filled {column row : Nat}
    (bounded : -2 ^ 31 ≤ x ∧ x < 2 ^ 31) (small : width * height * 4 ≤ allocationLimit)
    (column_lt : column < width) (row_lt : row < height)
    (line : 0 ≤ y + shown height flipY row ∧ y + shown height flipY row < source.height)
    (filled : Filled source x y width height flipY (row * width + column) data) :
    ∃ after, cropPixel source x width (y + shown height flipY row) row data column = .ok after ∧
      Filled source x y width height flipY (row * width + column + 1) after := by
  have place := Rasters.place_lt column_lt row_lt
  rw [allocationLimit] at small
  have bounds : -2 ^ 63 ≤ x + column ∧ x + column < 2 ^ 63 := by omega
  simp only [cropPixel, int64, if_pos bounds, bind, Except.bind]
  split
  next outside =>
    refine ⟨data, rfl, filled.blank column_lt (if_neg ?_)⟩
    omega
  next inside =>
    rw [not_or, not_lt, not_le] at inside
    have there : (y + shown height flipY row).toNat * source.width + (x + column).toNat <
        source.width * source.height := Rasters.place_lt (by omega) (by omega)
    have whole := source.whole
    have allocated := source.allocated
    rw [fits_ok (by omega), fits_ok (by omega)]
    obtain ⟨after, copied, length, pixels⟩ := copyPixel_spec place filled.1
      (show ((y + shown height flipY row).toNat * source.width + (x + column).toNat) * 4 + 4 ≤
        source.data.length by omega)
    refine ⟨after, copied, length, fun column' row' inside' below => ?_⟩
    rw [pixels]
    by_cases same : row' * width + column' = row * width + column
    · obtain ⟨rfl, rfl⟩ := Rasters.place_inj inside' column_lt same
      rw [if_pos rfl, if_pos (Nat.lt_succ_self _), Image.at, if_pos ⟨inside.1, inside.2, line⟩]
    · rw [if_neg same, filled.2 column' row' inside' below]
      exact if_congr (by omega) rfl rfl

theorem cropRow_filled {row : Nat} (bounded : -2 ^ 31 ≤ x ∧ x < 2 ^ 31)
    (bounded' : -2 ^ 31 ≤ y ∧ y < 2 ^ 31) (small : width * height * 4 ≤ allocationLimit)
    (positive : 0 < width) (row_lt : row < height)
    (filled : Filled source x y width height flipY (row * width) data) :
    ∃ after, cropRow source x y width height flipY data row = .ok after ∧
      Filled source x y width height flipY ((row + 1) * width) after := by
  have below : shown height flipY row < height := shown_lt row_lt
  rw [allocationLimit] at small
  have low : height ≤ width * height := Nat.le_mul_of_pos_left _ positive
  have bounds : -2 ^ 63 ≤ y + (shown height flipY row : Nat) ∧
      y + (shown height flipY row : Nat) < 2 ^ 63 := by omega
  rw [cropRow, lineOf_ok row_lt]
  simp only [int64, bind, Except.bind, if_pos bounds]
  rw [Nat.succ_mul]
  split
  next outside =>
    refine ⟨data, rfl, ?_⟩
    have blank : ∀ column ≤ width,
        Filled source x y width height flipY (row * width + column) data := by
      intro column inside
      induction column with
      | zero => exact filled
      | succ column ih =>
        refine (ih (Nat.le_of_succ_le inside)).blank inside (if_neg ?_)
        omega
    exact blank width le_rfl
  next inside =>
    refine Fallible.foldlM_range (fun column data =>
      Filled source x y width height flipY (row * width + column) data) ?_ filled
    intro column column_lt data filled
    exact cropPixel_filled bounded small column_lt row_lt (by omega) filled

theorem crop_shows (bounded : -2 ^ 31 ≤ x ∧ x < 2 ^ 31) (bounded' : -2 ^ 31 ≤ y ∧ y < 2 ^ 31)
    (positive : 0 < width ∧ 0 < height) (small : width * height * 4 ≤ allocationLimit) :
    ∃ data, crop source x y width height flipY = .ok data ∧
      Shows source x y width height flipY data := by
  have counted : byteCount width height = .ok (width * height * 4) := by
    have limited := small
    rw [allocationLimit] at limited
    rw [byteCount_eq (by omega), if_neg (by omega)]
  have blank : Filled source x y width height flipY (0 * width)
      (List.replicate (width * height * 4) 0) := by
    refine ⟨length_replicate, fun column row column_lt row_lt => ?_⟩
    rw [pixel_replicate (Rasters.place_lt column_lt row_lt), if_neg (by omega)]
  obtain ⟨data, cropped, length, pixels⟩ := Fallible.foldlM_range (fun row data =>
    Filled source x y width height flipY (row * width) data) (fun row row_lt data filled =>
      cropRow_filled bounded bounded' small positive.1 row_lt filled) blank
  refine ⟨data, ?_, length, fun column row column_lt row_lt => ?_⟩
  · rw [crop, counted]
    exact cropped
  · rw [pixels column row column_lt row_lt, if_pos]
    rw [Nat.mul_comm height]
    exact Rasters.place_lt column_lt row_lt

theorem Shows.whole
    (shows : Shows source 0 0 source.width source.height false data) : data = source.data := by
  refine pixels_ext shows.length source.whole fun index inside => ?_
  have positive : 0 < source.width := Nat.pos_of_mul_pos_right (Nat.zero_lt_of_lt inside)
  have column := Nat.mod_lt index positive
  have row : index / source.width < source.height := Nat.div_lt_of_lt_mul inside
  have split : index / source.width * source.width + index % source.width = index := by
    rw [Nat.mul_comm, Nat.div_add_mod]
  have here := shows.pixels _ _ column row
  simp only [split, shown, Bool.false_eq_true, if_false, zero_add] at here
  rw [here, Image.at, if_pos ⟨Int.natCast_nonneg _, Int.ofNat_lt.mpr column, Int.natCast_nonneg _,
    Int.ofNat_lt.mpr row⟩, Int.toNat_natCast, Int.toNat_natCast, split]

end Crop

section Bitmap

/-- An extent whose beginning and size are 32-bit integers. -/
def Extent (start size : Int) : Prop := -2 ^ 31 ≤ start + min size 0 ∧ |size| < 2 ^ 31

def Rect.Int32 (rect : Rect) : Prop :=
  (-2 ^ 31 ≤ rect.x ∧ rect.x < 2 ^ 31) ∧ (-2 ^ 31 ≤ rect.y ∧ rect.y < 2 ^ 31) ∧
    rect.width < 2 ^ 31 ∧ rect.height < 2 ^ 31

def BitmapOptions.rect (options : BitmapOptions) (source : Image) : Rect :=
  options.crop.getD ⟨0, 0, source.width, source.height⟩

/-- What is not refused. -/
structure Accepts (source : Image) (options : BitmapOptions) : Prop where
  wide : source.width < 2 ^ 31
  high : source.height < 2 ^ 31
  across : Extent (options.rect source).x (options.rect source).width
  down : Extent (options.rect source).y (options.rect source).height
  positive : (options.rect source).width ≠ 0 ∧ (options.rect source).height ≠ 0
  small : (options.rect source).width.natAbs * (options.rect source).height.natAbs * 4 ≤
    allocationLimit
  quality : options.resizeQuality ∈ ["pixelated", "low", "medium", "high"]

def refusals : List String :=
  ["image width overflow", "image height overflow", "image crop overflow",
    "invalid or oversized image in chuzz", "invalid ImageBitmapOptions.resizeQuality"]

theorem turned_extent {start size : Int} (extent : Extent start size) :
    turned start size = .ok (start + min size 0, |size|) := by
  obtain ⟨low, small⟩ := extent
  rw [turned]
  split
  next negative =>
    rw [min_eq_left negative.le] at low ⊢
    rw [abs_of_neg negative] at small ⊢
    rw [if_neg (by omega)]
    rfl
  next positive =>
    rw [not_lt] at positive
    rw [min_eq_right positive, abs_of_nonneg positive, add_zero]
    rfl

theorem turned_refused {start size : Int} (low : -2 ^ 31 ≤ start) (small : size < 2 ^ 31)
    (large : ¬ Extent start size) : turned start size = refuse "image crop overflow" := by
  rw [turned]
  split
  next negative =>
    rw [Extent, min_eq_left negative.le, abs_of_neg negative] at large
    rw [if_pos (by omega)]
  next positive =>
    rw [not_lt] at positive
    rw [Extent, min_eq_right positive, abs_of_nonneg positive] at large
    exact absurd ⟨by omega, small⟩ large

variable {source : Image} {options : BitmapOptions}
  {resize : String → Raster → Nat → Nat → List UInt8}

/-- The crop of a bitmap that is not resized. -/
def BitmapOptions.Made (options : BitmapOptions) (source : Image) (data : List UInt8) : Prop :=
  let rect := options.rect source
  let x := rect.x + min rect.width 0
  let y := rect.y + min rect.height 0
  External.crop source x y rect.width.natAbs rect.height.natAbs options.flipY = .ok data ∧
    Shows source x y rect.width.natAbs rect.height.natAbs options.flipY data

theorem rect_int32 (wide : source.width < 2 ^ 31) (high : source.height < 2 ^ 31)
    (given : ∀ rect ∈ options.crop, rect.Int32) : (options.rect source).Int32 := by
  rw [BitmapOptions.rect]
  cases cropped : options.crop with
  | none => exact ⟨by simp, by simp, by simpa using Int.ofNat_lt.mpr wide,
      by simpa using Int.ofNat_lt.mpr high⟩
  | some rect => exact given rect cropped

section
variable (given : ∀ rect ∈ options.crop, rect.Int32) (width : options.resizeWidth = none)
  (height : options.resizeHeight = none)
include given width height

theorem bitmap_accepts (accepts : Accepts source options) : ∃ data, bitmap source resize options =
      .ok ⟨(options.rect source).width.natAbs, (options.rect source).height.natAbs, data⟩ ∧
        options.Made source data := by
  obtain ⟨⟨_, right⟩, ⟨_, low⟩, _⟩ := rect_int32 accepts.wide accepts.high given
  have bounded : -2 ^ 31 ≤ (options.rect source).x + min (options.rect source).width 0 ∧
      (options.rect source).x + min (options.rect source).width 0 < 2 ^ 31 :=
    ⟨accepts.across.1, by omega⟩
  have bounded' : -2 ^ 31 ≤ (options.rect source).y + min (options.rect source).height 0 ∧
      (options.rect source).y + min (options.rect source).height 0 < 2 ^ 31 :=
    ⟨accepts.down.1, by omega⟩
  have small := accepts.small
  have positive := accepts.positive
  obtain ⟨data, cropped, shows⟩ : ∃ data, options.Made source data :=
    crop_shows bounded bounded' ⟨Int.natAbs_pos.mpr positive.1, Int.natAbs_pos.mpr positive.2⟩ small
  have counted : byteCount (options.rect source).width.natAbs (options.rect source).height.natAbs =
      .ok ((options.rect source).width.natAbs * (options.rect source).height.natAbs * 4) := by
    have limited := small
    rw [allocationLimit] at limited
    rw [byteCount_eq (by omega), if_neg (by omega)]
  refine ⟨data, ?_, cropped, shows⟩
  rw [bitmap, if_neg accepts.wide.not_ge, if_neg accepts.high.not_ge]
  simp only [← BitmapOptions.rect.eq_1 options source, turned_extent accepts.across,
    turned_extent accepts.down, width, height, bind, Except.bind, Option.getD_none, Option.map_none]
  rw [if_neg (by simp [abs_nonneg, not_lt])]
  simp only [Int.abs_eq_natAbs, Int.toNat_natCast, counted]
  rw [if_neg (not_not.mpr accepts.quality)]
  split
  next same =>
    obtain ⟨x, y, wide, high, -, -, flip⟩ := same
    rw [x, y, wide, high, flip] at shows
    rw [wide, high, shows.whole]
    rfl
  next =>
    rw [cropped]
    dsimp only
    rw [if_neg (by simp)]
    rfl

theorem bitmap_refused (refused : ¬ Accepts source options) :
    ∃ message ∈ refusals, bitmap source resize options = refuse message := by
  by_cases wide : 2 ^ 31 ≤ source.width
  · exact ⟨"image width overflow", by decide, by rw [bitmap, if_pos wide]; rfl⟩
  by_cases high : 2 ^ 31 ≤ source.height
  · exact ⟨"image height overflow", by decide, by rw [bitmap, if_neg wide, if_pos high]; rfl⟩
  obtain ⟨left, top, wider, higher⟩ := rect_int32 (not_le.mp wide) (not_le.mp high) given
  rw [bitmap, if_neg wide, if_neg high]
  dsimp only
  rw [← BitmapOptions.rect.eq_1 options source]
  by_cases across : Extent (options.rect source).x (options.rect source).width
  swap
  · exact ⟨"image crop overflow", by decide, by rw [turned_refused left.1 wider across]; rfl⟩
  by_cases down : Extent (options.rect source).y (options.rect source).height
  swap
  · refine ⟨"image crop overflow", by decide, ?_⟩
    rw [turned_extent across, turned_refused top.1 higher down]
    rfl
  simp only [turned_extent across, turned_extent down, width, height, bind, Except.bind,
    Option.getD_none, Option.map_none]
  simp only [Int.abs_eq_natAbs, Int.toNat_natCast]
  have bounded : (options.rect source).width.natAbs * (options.rect source).height.natAbs * 4 <
      2 ^ 64 := by
    have first := across.2
    have second := down.2
    rw [Int.abs_eq_natAbs] at first second
    have product := Nat.mul_le_mul (show (options.rect source).width.natAbs ≤ 2 ^ 31 - 1 by omega)
      (show (options.rect source).height.natAbs ≤ 2 ^ 31 - 1 by omega)
    omega
  rw [byteCount_eq bounded]
  by_cases fit : (options.rect source).width.natAbs = 0 ∨ (options.rect source).height.natAbs = 0 ∨
      allocationLimit < (options.rect source).width.natAbs * (options.rect source).height.natAbs * 4
  · exact ⟨"invalid or oversized image in chuzz", by decide, by rw [if_pos fit]; rfl⟩
  rw [if_neg fit]
  rw [not_or, not_or, Int.natAbs_eq_zero, Int.natAbs_eq_zero, not_lt] at fit
  refine ⟨"invalid ImageBitmapOptions.resizeQuality", by decide, ?_⟩
  rw [if_pos fun quality => refused ⟨not_le.mp wide, not_le.mp high, across, down,
    ⟨fit.1, fit.2.1⟩, fit.2.2, quality⟩]
  rfl

end

/-- Every crop, the one that leaves an image as it is included. -/
theorem bitmap_crop (resize : String → Raster → Nat → Nat → List UInt8) (source : Image)
    (options : BitmapOptions) (given : ∀ rect ∈ options.crop, rect.Int32)
    (width : options.resizeWidth = none) (height : options.resizeHeight = none) :
    (Accepts source options ∧ ∃ data, bitmap source resize options =
      .ok ⟨(options.rect source).width.natAbs, (options.rect source).height.natAbs, data⟩ ∧
        options.Made source data) ∨
    ¬ Accepts source options ∧
      ∃ message ∈ refusals, bitmap source resize options = refuse message := by
  by_cases accepts : Accepts source options
  · exact .inl ⟨accepts, bitmap_accepts given width height accepts⟩
  · exact .inr ⟨accepts, bitmap_refused given width height accepts⟩

/-- One pixel. -/
def dot : Image where
  width := 1
  height := 1
  data := [10, 20, 30, 40]
  wide := by decide
  high := by decide
  whole := by decide
  allocated := by decide

theorem bitmap_crop_dot : ∃ data,
    bitmap dot (fun _ _ _ _ => []) ⟨some ⟨-1, 1, 3, -2⟩, true, none, none, "low"⟩ =
      .ok ⟨3, 2, data⟩ := by
  obtain ⟨_, data, made, _⟩ | ⟨refused, _⟩ := bitmap_crop (fun _ _ _ _ => []) dot
    ⟨some ⟨-1, 1, 3, -2⟩, true, none, none, "low"⟩
    (fun rect given => by obtain rfl := Option.some.inj given; simp [Rect.Int32]) rfl rfl
  · exact ⟨data, made⟩
  · exact absurd ⟨by decide, by decide, ⟨by decide, by decide⟩, ⟨by decide, by decide⟩, by decide,
      by decide, by decide⟩ refused

end Bitmap

section Copying

inductive TextureFormat where
  | rgba8Unorm
  | rgba8UnormSrgb
  | bgra8Unorm
  | bgra8UnormSrgb
  | other (name : String)

/-- A destination, the sizes and mip levels of which the graphics library has checked. -/
structure Texture where
  format : TextureFormat
  twoDimensional : Bool
  sampleCount : Nat
  copyDst : Bool
  renderAttachment : Bool
  mipLevelCount : Nat
  width : Nat
  height : Nat
  layers : Nat
  mips : mipLevelCount ≤ 32

/-- The sizes and origins are 32-bit integers. -/
structure Copy where
  sourceOrigin : Nat × Nat
  flipY : Bool
  mipLevel : Nat
  origin : Nat × Nat × Nat
  aspect : String
  premultipliedAlpha : Bool
  colorSpace : String
  size : Nat × Nat × Nat

/-- What `write_texture` is called with. -/
structure Write where
  data : List UInt8
  offset : Nat
  bytesPerRow : Nat

/-- Whether the first channel of a format is the blue one. -/
def TextureFormat.bgra : TextureFormat → Fallible Bool
  | rgba8Unorm | rgba8UnormSrgb => pure false
  | bgra8Unorm | bgra8UnormSrgb => pure true
  | other name =>
    refuse ("not implemented in chuzz: GPUQueue.copyExternalImageToTexture.format." ++ name)

/-- All checks of a copy, and the order of the channels of its destination. -/
def checkCopy (image : Image) (copy : Copy) (texture : Texture) : Fallible Bool := do
  let width := copy.size.1
  let height := copy.size.2.1
  let x := copy.sourceOrigin.1
  let y := copy.sourceOrigin.2
  if copy.colorSpace ≠ "srgb" then
    refuse ("not implemented in chuzz: GPUImageCopyTextureTagged.colorSpace." ++ copy.colorSpace)
  else if copy.aspect ≠ "all" ∨ copy.size.2.2 ≠ 1 then
    refuse "invalid external image aspect or depth"
  else if image.width < x ∨ image.height < y ∨ image.width - x < width ∨
      image.height - y < height then
    refuse "external image source range is out of bounds"
  else
    let bgra ← texture.format.bgra
    if !texture.twoDimensional ∨ texture.sampleCount ≠ 1 ∨
        !(texture.copyDst && texture.renderAttachment) ∨ texture.mipLevelCount ≤ copy.mipLevel then
      refuse "invalid external image destination"
    else if 32 ≤ copy.mipLevel then .error .overflow
    else
      let targetWidth := max (texture.width >>> copy.mipLevel) 1
      let targetHeight := max (texture.height >>> copy.mipLevel) 1
      if targetWidth < copy.origin.1 ∨ targetHeight < copy.origin.2.1 ∨
          targetWidth - copy.origin.1 < width ∨ targetHeight - copy.origin.2.1 < height ∨
          texture.layers ≤ copy.origin.2.2 then
        refuse "external image destination range is out of bounds"
      else pure bgra

/-- A channel multiplied by its alpha, and rounded. -/
def premultiplied (channel alpha : UInt8) : UInt8 :=
  UInt8.ofNat ((channel.toNat * alpha.toNat + 127) / 255)

/-- The pixels of a row, converted. -/
def convert (premultiply bgra : Bool) : List UInt8 → List UInt8
  | red :: green :: blue :: alpha :: rest =>
    let scaled (channel : UInt8) := if premultiply then premultiplied channel alpha else channel
    (if bgra then [scaled blue, scaled green, scaled red, alpha]
      else [scaled red, scaled green, scaled blue, alpha]) ++ convert premultiply bgra rest
  | _ => []

/-- One row more of the image that is written. -/
def convertRow (image : Image) (copy : Copy) (bgra : Bool) (data : List UInt8) (row : Nat) :
    Fallible (List UInt8) := do
  let line ← fits 32 (copy.sourceOrigin.2 + (← lineOf copy.flipY copy.size.2.1 row))
  let start ← fits 64 ((line * image.width + copy.sourceOrigin.1) * 4)
  let stop ← fits 64 (start + copy.size.1 * 4)
  if stop ≤ image.data.length then
    pure (data ++ convert copy.premultipliedAlpha bgra ((image.data.drop start).take (copy.size.1 * 4)))
  else .error .overflow

def converted (image : Image) (copy : Copy) (bgra : Bool) : Fallible Write := do
  let _ ← byteCount copy.size.1 copy.size.2.1
  let data ← (List.range copy.size.2.1).foldlM (convertRow image copy bgra) []
  let bytesPerRow ← fits 32 (copy.size.1 * 4)
  pure ⟨data, 0, bytesPerRow⟩

def borrowed (image : Image) (copy : Copy) : Fallible Write := do
  let offset ← fits 64 ((copy.sourceOrigin.2 * image.width + copy.sourceOrigin.1) * 4)
  let bytesPerRow ← fits 32 (image.width * 4)
  pure ⟨image.data, offset, bytesPerRow⟩

/-- The whole operation; nothing is written for an empty size. -/
def copyExternalImage (image : Image) (copy : Copy) (texture : Texture) :
    Fallible (Option Write) := do
  let bgra ← checkCopy image copy texture
  if copy.size.1 = 0 ∨ copy.size.2.1 = 0 then pure none
  else if copy.flipY || copy.premultipliedAlpha || bgra then some <$> converted image copy bgra
  else some <$> borrowed image copy

/-- The bytes that reach a texel. -/
def Write.texel (write : Write) (column row : Nat) : List UInt8 :=
  (write.data.drop (write.offset + row * write.bytesPerRow + 4 * column)).take 4

/-- Every texel is the converted pixel of the source. -/
def Copied (image : Image) (copy : Copy) (bgra : Bool) (write : Write) : Prop :=
  ∀ column row, column < copy.size.1 → row < copy.size.2.1 →
    write.offset + row * write.bytesPerRow + 4 * column + 4 ≤ write.data.length ∧
      write.texel column row = convert copy.premultipliedAlpha bgra (pixel image.data
        ((copy.sourceOrigin.2 + shown copy.size.2.1 copy.flipY row) * image.width +
          (copy.sourceOrigin.1 + column)))

variable {image : Image} {copy : Copy} {texture : Texture} {bgra premultiply : Bool}
  {data rest : List UInt8}

def Copy.Inside (copy : Copy) (image : Image) : Prop :=
  copy.sourceOrigin.1 + copy.size.1 ≤ image.width ∧ copy.sourceOrigin.2 + copy.size.2.1 ≤ image.height

theorem checkCopy_total (image : Image) (copy : Copy) (texture : Texture) :
    (∃ message, checkCopy image copy texture = refuse message) ∨
      ∃ bgra, checkCopy image copy texture = .ok bgra ∧ texture.format.bgra = .ok bgra ∧
        copy.Inside image := by
  have mips := texture.mips
  rw [checkCopy]
  split
  · exact .inl ⟨_, rfl⟩
  split
  · exact .inl ⟨_, rfl⟩
  split
  · exact .inl ⟨_, rfl⟩
  next inside =>
    have fits : copy.Inside image := by
      rw [Copy.Inside]
      omega
    have known : (∃ message, texture.format.bgra = refuse message) ∨
        ∃ bgra, texture.format.bgra = .ok bgra := by
      cases texture.format <;> first | exact .inr ⟨_, rfl⟩ | exact .inl ⟨_, rfl⟩
    obtain ⟨message, unknown⟩ | ⟨bgra, known⟩ := known
    · rw [unknown]
      exact .inl ⟨message, rfl⟩
    · simp only [known, bind, Except.bind]
      split
      · exact .inl ⟨_, rfl⟩
      next usable =>
        rw [if_neg (by omega)]
        split
        · exact .inl ⟨_, rfl⟩
        · exact .inr ⟨bgra, rfl, rfl, fits⟩

theorem pixel_append {first : List UInt8} {count : Nat} (length : first.length = count * 4)
    (index : Nat) : pixel (first ++ rest) index =
      if index < count then pixel first index else pixel rest (index - count) := by
  refine ext_getElem? fun k => ?_
  split <;> simp only [pixel_getElem?, getElem?_append] <;> grind

theorem convert_length (data : List UInt8) :
    (convert premultiply bgra data).length = data.length / 4 * 4 := by
  fun_induction convert premultiply bgra data with
  | case1 red green blue alpha rest scaled ih =>
    rw [length_append, ih]
    cases bgra <;> simp only [Bool.false_eq_true, if_false, if_true, length_cons,
      length_nil] <;> omega
  | case2 data short =>
    match data, short with
    | [], _ | [_], _ | [_, _], _ | [_, _, _], _ => simp
    | red :: green :: blue :: alpha :: rest, short => exact absurd rfl (short red green blue alpha rest)

theorem pixel_convert {index : Nat} (inside : index * 4 + 4 ≤ data.length) :
    pixel (convert premultiply bgra data) index = convert premultiply bgra (pixel data index) := by
  induction index generalizing data with
  | zero =>
    match data, inside with
    | red :: green :: blue :: alpha :: rest, _ =>
      cases bgra <;> simp [pixel, convert]
  | succ index ih =>
    match data, inside with
    | red :: green :: blue :: alpha :: rest, inside =>
      have later : index * 4 + 4 ≤ rest.length := by
        simp only [length_cons] at inside
        omega
      have skip : pixel (red :: green :: blue :: alpha :: rest) (index + 1) = pixel rest index := by
        rw [pixel, Nat.succ_mul]
        rfl
      rw [skip, ← ih later, convert]
      rw [pixel_append (show _ = 1 * 4 by cases bgra <;> rfl), if_neg (by omega), Nat.add_sub_cancel]

theorem convert_plain (four : data.length = 4) : convert false false data = data := by
  match data, four with
  | [red, green, blue, alpha], _ => rfl

theorem pixel_slice {start count column : Nat} (inside : column < count) :
    pixel ((data.drop (start * 4)).take (count * 4)) column = pixel data (start + column) := by
  refine ext_getElem? fun k => ?_
  simp only [pixel_getElem?, getElem?_take, getElem?_drop]
  grind

theorem row_end (inside : copy.Inside image) {row : Nat} (below : row < copy.size.2.1) :
    ((copy.sourceOrigin.2 + row) * image.width + copy.sourceOrigin.1) * 4 + copy.size.1 * 4 ≤
      image.data.length := by
  have steps := Nat.mul_le_mul_right image.width
    (show copy.sourceOrigin.2 + row + 1 ≤ image.height by have := inside.2; omega)
  have across := inside.1
  rw [Nat.succ_mul, Nat.mul_comm image.height] at steps
  rw [image.whole]
  omega

/-- The rows before one are converted. -/
def Rows (image : Image) (copy : Copy) (bgra : Bool) (rows : Nat) (data : List UInt8) : Prop :=
  data.length = rows * copy.size.1 * 4 ∧ ∀ column row, column < copy.size.1 → row < rows →
    pixel data (row * copy.size.1 + column) = convert copy.premultipliedAlpha bgra (pixel image.data
      ((copy.sourceOrigin.2 + shown copy.size.2.1 copy.flipY row) * image.width +
        (copy.sourceOrigin.1 + column)))

theorem convertRow_rows (inside : copy.Inside image) {row : Nat} (below : row < copy.size.2.1)
    (rows : Rows image copy bgra row data) :
    ∃ after, convertRow image copy bgra data row = .ok after ∧ Rows image copy bgra (row + 1) after := by
  have line : shown copy.size.2.1 copy.flipY row < copy.size.2.1 := shown_lt below
  have stop := row_end inside line
  have allocated := image.allocated
  have high := image.high
  have down := inside.2
  simp only [convertRow, lineOf_ok below, bind, Except.bind]
  rw [fits_ok (by omega)]
  dsimp only
  rw [fits_ok (by omega)]
  dsimp only
  rw [fits_ok (by omega)]
  dsimp only
  rw [if_pos stop]
  have taken : (((image.data.drop (((copy.sourceOrigin.2 + shown copy.size.2.1 copy.flipY row) *
      image.width + copy.sourceOrigin.1) * 4)).take (copy.size.1 * 4)).length = copy.size.1 * 4) := by
    rw [length_take, length_drop]
    omega
  refine ⟨_, rfl, ?_, fun column row' across before => ?_⟩
  · rw [length_append, rows.1, convert_length, taken, Nat.mul_div_cancel _ (by decide),
      Nat.succ_mul, Nat.add_mul]
  · rw [pixel_append rows.1]
    rcases Nat.lt_succ_iff_lt_or_eq.mp before with earlier | rfl
    · have place := Rasters.place_lt across earlier
      rw [Nat.mul_comm copy.size.1] at place
      rw [if_pos place, rows.2 column row' across earlier]
    · rw [if_neg (by omega), Nat.add_sub_cancel_left, pixel_convert (by omega), pixel_slice across,
        Nat.add_assoc]

theorem converted_copied (inside : copy.Inside image) :
    (∃ message, converted image copy bgra = refuse message) ∨
      ∃ write, converted image copy bgra = .ok write ∧ Copied image copy bgra write := by
  have product := Nat.mul_le_mul (show copy.size.1 ≤ image.width by have := inside.1; omega)
    (show copy.size.2.1 ≤ image.height by have := inside.2; omega)
  have whole := image.whole
  have allocated := image.allocated
  rw [converted, byteCount_eq (by omega)]
  by_cases refused : copy.size.1 = 0 ∨ copy.size.2.1 = 0 ∨
      allocationLimit < copy.size.1 * copy.size.2.1 * 4
  · exact .inl ⟨_, by rw [if_pos refused]; rfl⟩
  · obtain ⟨data, folded, rows⟩ := Fallible.foldlM_range (Rows image copy bgra)
      (fun row below data rows => convertRow_rows inside below rows)
      (show Rows image copy bgra 0 [] from ⟨by simp, nofun⟩)
    rw [if_neg refused]
    rw [not_or, not_or, not_lt, allocationLimit] at refused
    have narrow : copy.size.1 ≤ copy.size.1 * copy.size.2.1 :=
      Nat.le_mul_of_pos_right _ (Nat.pos_of_ne_zero refused.2.1)
    refine .inr ⟨⟨data, 0, copy.size.1 * 4⟩, ?_, fun column row across below => ?_⟩
    · simp only [folded, bind, Except.bind, fits_ok (show copy.size.1 * 4 < 2 ^ 32 by omega)]
      rfl
    · have start : 0 + row * (copy.size.1 * 4) + 4 * column = (row * copy.size.1 + column) * 4 := by
        ring
      have place := Rasters.place_lt across below
      rw [Write.texel]
      rw [start, ← pixel, rows.2 column row across below, rows.1, Nat.mul_comm copy.size.2.1]
      exact ⟨by omega, rfl⟩

/-- A copy that is read from the image itself. -/
def Borrows (image : Image) (copy : Copy) (texture : Texture) : Prop :=
  checkCopy image copy texture = .ok false ∧ (copy.size.1 ≠ 0 ∧ copy.size.2.1 ≠ 0) ∧
    copy.flipY = false ∧ copy.premultipliedAlpha = false

theorem borrowed_offset (inside : copy.Inside image) (positive : copy.size.2.1 ≠ 0) :
    borrowed image copy = (fits 32 (image.width * 4)).map
      (⟨image.data, (copy.sourceOrigin.2 * image.width + copy.sourceOrigin.1) * 4, ·⟩) := by
  have stop := row_end inside (Nat.pos_of_ne_zero positive)
  have allocated := image.allocated
  rw [borrowed, fits_ok (by rw [Nat.add_zero] at stop; omega)]
  cases fits 32 (image.width * 4) <;> rfl

theorem copyExternalImage_borrows (borrows : Borrows image copy texture)
    (inside : copy.Inside image) : copyExternalImage image copy texture =
      (fits 32 (image.width * 4)).map fun stride => some
        ⟨image.data, (copy.sourceOrigin.2 * image.width + copy.sourceOrigin.1) * 4, stride⟩ := by
  obtain ⟨checked, ⟨wide, high⟩, flip, premultiplied⟩ := borrows
  rw [copyExternalImage, checked]
  simp only [bind, Except.bind, flip, premultiplied, Bool.or_self, Bool.false_eq_true, if_false]
  rw [if_neg (not_or.mpr ⟨wide, high⟩), borrowed_offset inside high]
  cases fits 32 (image.width * 4) <;> rfl

theorem borrowed_copied (inside : copy.Inside image) (flip : copy.flipY = false)
    (plain : copy.premultipliedAlpha = false) : Copied image copy false
      ⟨image.data, (copy.sourceOrigin.2 * image.width + copy.sourceOrigin.1) * 4,
        image.width * 4⟩ := by
  intro column row across below
  have stop := row_end inside below
  have start : (copy.sourceOrigin.2 * image.width + copy.sourceOrigin.1) * 4 +
      row * (image.width * 4) + 4 * column =
        ((copy.sourceOrigin.2 + row) * image.width + (copy.sourceOrigin.1 + column)) * 4 := by ring
  have inner : ((copy.sourceOrigin.2 + row) * image.width + (copy.sourceOrigin.1 + column)) * 4 + 4 ≤
      image.data.length := by omega
  rw [Write.texel]
  dsimp only
  rw [start, ← pixel, flip, plain]
  refine ⟨inner, (convert_plain ?_).symm⟩
  rw [pixel, length_take, length_drop]
  omega

/-- Nothing is out of range, and what is written is what was to be copied: on the path that is
taken, and on the one that converts. -/
def Sound (image : Image) (copy : Copy) (texture : Texture) : Prop :=
  copyExternalImage image copy texture ≠ .error .overflow ∧ ∀ bgra write,
    texture.format.bgra = .ok bgra →
      (copyExternalImage image copy texture = .ok (some write) → Copied image copy bgra write) ∧
      (checkCopy image copy texture = .ok bgra → converted image copy bgra = .ok write →
        Copied image copy bgra write)

theorem converting_sound (inside : copy.Inside image) {write : Write}
    (done : converted image copy bgra = .ok write) : Copied image copy bgra write := by
  obtain ⟨message, refused⟩ | ⟨write', done', copied⟩ := @converted_copied image copy bgra inside
  · cases refused.symm.trans done
  · obtain rfl := Except.ok.inj (done'.symm.trans done)
    exact copied

theorem sound_other (other : ¬ Borrows image copy texture) : Sound image copy texture := by
  obtain ⟨message, refused⟩ | ⟨order, checked, known, inside⟩ := checkCopy_total image copy texture
  · rw [Sound, copyExternalImage, refused]
    exact ⟨nofun, fun _ _ _ => ⟨nofun, nofun⟩⟩
  have same : ∀ {bgra}, texture.format.bgra = .ok bgra → order = bgra := fun known' =>
    Except.ok.inj (known.symm.trans known')
  have slow := @converted_copied image copy order inside
  rw [Sound, copyExternalImage, checked]
  simp only [bind, Except.bind]
  by_cases empty : copy.size.1 = 0 ∨ copy.size.2.1 = 0
  · rw [if_pos empty]
    refine ⟨nofun, fun bgra write _ => ⟨nofun, fun _ done => ?_⟩⟩
    exact converting_sound inside done
  rw [if_neg empty]
  have converts : (copy.flipY || copy.premultipliedAlpha || order) = true := by
    by_contra plain
    simp only [Bool.or_eq_true, not_or, Bool.not_eq_true] at plain
    rw [plain.2] at checked
    exact other ⟨checked, not_or.mp empty, plain.1.1, plain.1.2⟩
  rw [if_pos converts]
  refine ⟨?_, fun bgra write known' => ⟨fun done => ?_, fun _ done => ?_⟩⟩
  · obtain ⟨message, refused⟩ | ⟨write, done, _⟩ := slow
    · rw [refused]
      nofun
    · rw [done]
      nofun
  · obtain rfl := same known'
    obtain ⟨message, refused⟩ | ⟨write', done', copied⟩ := slow
    · rw [refused] at done
      cases done
    · rw [done'] at done
      cases done
      exact copied
  · exact converting_sound inside done

/-- A copy goes right unless it borrows rows that are too long for their length in bytes. -/
theorem copyExternalImage_iff (image : Image) (copy : Copy) (texture : Texture) :
    Sound image copy texture ↔ (Borrows image copy texture → image.width < 2 ^ 30) := by
  by_cases borrows : Borrows image copy texture
  swap
  · exact iff_of_true (sound_other borrows) fun taken => absurd taken borrows
  obtain ⟨message, refused⟩ | ⟨bgra, checked, known, inside⟩ := checkCopy_total image copy texture
  · cases refused.symm.trans borrows.1
  obtain rfl := Except.ok.inj (checked.symm.trans borrows.1)
  have run := copyExternalImage_borrows borrows inside
  constructor
  · intro sound _
    by_contra long
    apply sound.1
    rw [run, fits, if_neg (by omega)]
    rfl
  · intro short
    rw [fits_ok (by have := short borrows; omega)] at run
    refine ⟨by rw [run]; nofun, fun bgra write known' => ⟨fun done => ?_, fun _ done => ?_⟩⟩
    · obtain rfl := Except.ok.inj (known.symm.trans known')
      rw [run] at done
      cases done
      exact borrowed_copied inside borrows.2.2.1 borrows.2.2.2
    · exact converting_sound inside done

/-- One row of so many pixels that its length in bytes is no 32-bit integer. -/
def long : Image where
  width := 2 ^ 30
  height := 1
  data := List.replicate (2 ^ 32) 0
  wide := by decide
  high := by decide
  whole := List.length_replicate
  allocated := by
    rw [List.length_replicate]
    decide

/-- A copy of the first pixel. -/
def first : Copy := ⟨(0, 0), false, 0, (0, 0, 0), "all", false, "srgb", (1, 1, 1)⟩

theorem copyExternalImage_long : ¬ ∀ image copy texture, Sound image copy texture := by
  intro sound
  have run := @copyExternalImage_borrows long first
    ⟨.rgba8Unorm, true, 1, true, true, 1, 1, 1, 1, by decide⟩
    ⟨rfl, by decide, rfl, rfl⟩ ⟨by decide, by decide⟩
  exact (sound _ _ _).1 run

end Copying

end Chuzz.External
