import Chuzz.Library.Rasters

/-! Shadow and filter rasters for one drawing operation. Numbers are those of a field with a
floor, so that the arithmetic is exact. Pixels are premultiplied. -/
namespace Chuzz.Canvas2D.Effects
open Library.Rasters
local instance two_ok : Nat.AtLeastTwo 2 := ⟨by decide⟩

/-- Red, green, blue and alpha. -/
abbrev Pixel (K : Type) := Fin 4 → K

structure Color (K : Type) where
  red : K
  green : K
  blue : K
  alpha : K
deriving DecidableEq

/-- What is not computed here: the colour that a text names, the bell curve of a standard deviation
at a distance, and cosine and sine of an angle in degrees. -/
structure Outside (K : Type) where
  parseColour : String → Except String (Color K)
  gaussian : K → K → K
  cosine : K → K
  sine : K → K

inductive FilterOp (K : Type) where
  | blur (px : K)
  | dropShadow (x y blur : K) (color : String)
  | brightness (amount : K)
  | contrast (amount : K)
  | grayscale (amount : K)
  | invert (amount : K)
  | opacity (amount : K)
  | saturate (amount : K)
  | sepia (amount : K)
  | hueRotate (deg : K)
deriving DecidableEq

structure Shadow (K : Type) where
  offsetX : K
  offsetY : K
  sigma : K
  color : Color K

structure Prepared (K : Type) where
  shadow : Option (Shadow K)
  filter : List (FilterOp K)

/-- The part of the drawing state that effects depend on. -/
structure DrawState (K : Type) where
  shadowBlur : K
  shadowColor : String
  shadowOffsetX : K
  shadowOffsetY : K
  filter : List (FilterOp K)

structure Layer (K : Type) where
  x : ℤ
  y : ℤ
  width : ℕ
  height : ℕ
  pixels : List (Pixel K)
  sized : pixels.length = width * height

structure Outcome (K : Type) where
  shadow : Option (Layer K)
  shape : Layer K

def maxRadius : ℕ := 512

def imageLimit : ℕ := 64 * 1024 * 1024

def extentReached : String := "canvas filter extent reached in chuzz"

namespace Layer
variable {K : Type}

def empty : Layer K := ⟨0, 0, 0, 0, [], rfl⟩

def isEmpty (layer : Layer K) : Bool := layer.width = 0 || layer.height = 0

/-- A layer from a value for each of its columns and rows. -/
def ofRows (x y : ℤ) (width height : ℕ) (value : ℕ → ℕ → Pixel K) : Layer K :=
  ⟨x, y, width, height, rows width height value, rows_length value⟩

def sample [Zero K] (layer : Layer K) (x y : ℤ) : Pixel K :=
  let localX := x - layer.x
  let localY := y - layer.y
  if localX < 0 ∨ localY < 0 ∨ layer.width ≤ localX ∨ layer.height ≤ localY then 0
  else layer.pixels.getD (localY.toNat * layer.width + localX.toNat) 0

end Layer

variable {K : Type} [Field K] [LinearOrder K]

def clamp (value low high : K) : K := min (max value low) high

def Color.premultiply (color : Color K) : Pixel K :=
  ![color.red * color.alpha, color.green * color.alpha, color.blue * color.alpha, color.alpha]

def finiteUnit (value max : K) : Except String Unit :=
  if 0 ≤ value ∧ value ≤ max then pure () else throw "invalid canvas filter"

def validate (outside : Outside K) : FilterOp K → Except String Unit
  | .blur px => finiteUnit px 1000000
  | .dropShadow x y blur color => do
    let _ ← outside.parseColour color
    if |x| ≤ 1000000 ∧ |y| ≤ 1000000 then finiteUnit blur 1000000
    else throw "invalid canvas filter"
  | .brightness amount | .contrast amount | .saturate amount => finiteUnit amount 1000000
  | .grayscale amount | .invert amount | .opacity amount | .sepia amount => finiteUnit amount 1
  | .hueRotate deg => if |deg| ≤ 100000000 then pure () else throw "invalid canvas filter"

/-- The shadow of a state whose shadow shows. -/
def DrawState.shadow (state : DrawState K) (color : Color K) : Option (Shadow K) :=
  if 0 < color.alpha ∧
      (0 < state.shadowBlur ∨ state.shadowOffsetX ≠ 0 ∨ state.shadowOffsetY ≠ 0) then
    some ⟨state.shadowOffsetX, state.shadowOffsetY, state.shadowBlur * (1 / 2), color⟩
  else none

def prepare (outside : Outside K) (state : DrawState K) : Except String (Option (Prepared K)) :=
  if ¬ (0 ≤ state.shadowBlur ∧ state.shadowBlur ≤ 1000000) ∨ 1000000 < |state.shadowOffsetX| ∨
      1000000 < |state.shadowOffsetY| then throw "invalid canvas shadow"
  else do
    let color ← outside.parseColour state.shadowColor
    if 64 < state.filter.length then throw extentReached
    else
      state.filter.forM (validate outside)
      if (state.shadow color).isNone ∧ state.filter = [] then pure none
      else pure (some ⟨state.shadow color, state.filter⟩)

def checkExtent (width height : ℕ) : Except String Unit :=
  if 65535 < width ∨ 65535 < height ∨ imageLimit < width * height * 4 then throw extentReached
  else pure ()

/-- The value as an `i32`. -/
def bounded (value : ℤ) : Except String ℤ :=
  if value < -2 ^ 31 ∨ 2 ^ 31 - 1 < value then throw extentReached else pure value

def shiftedOrigin (origin : ℤ) (radius : ℕ) : Except String ℤ :=
  if origin - radius < -2 ^ 31 then throw extentReached else pure (origin - radius)

/-- `weights` over a row or a column that is transparent outside. -/
def weigh (weights : List K) (extent place : ℕ) (value : ℕ → K) : K :=
  let radius := weights.length / 2
  weights.zipIdx.foldl (fun sum weighted =>
    let position : ℤ := place + weighted.2 - radius
    if 0 ≤ position ∧ position.toNat < extent then sum + value position.toNat * weighted.1
    else sum) 0

def blurPlane (source : List K) (width height : ℕ) (weights : List K) : List K :=
  let horizontal := rows width height fun x y =>
    weigh weights width x fun position => source.getD (y * width + position) 0
  rows width height fun x y =>
    weigh weights height y fun position => horizontal.getD (position * width + x) 0

/-- A plane that holds one channel of the layer, and `radius` transparent pixels around it. -/
def surround (layer : Layer K) (radius : ℕ) (channel : Fin 4) : List K :=
  let width := layer.width + radius * 2
  let height := layer.height + radius * 2
  writes (List.replicate (width * height) 0) (rows layer.width layer.height fun x y =>
    ((y + radius) * width + (x + radius), layer.pixels.getD (y * layer.width + x) 0 channel))

def planeAt (plane : List K) (width height : ℕ) (x y : ℤ) : K :=
  if x < 0 ∨ y < 0 ∨ width ≤ x.toNat ∨ height ≤ y.toNat then 0
  else plane.getD (y.toNat * width + x.toNat) 0

section
variable [FloorRing K]

def radiusFor (sigma : K) : ℕ :=
  if sigma ≤ 0 then 0
  else
    let radius := ⌈sigma * 3⌉
    if maxRadius < radius then maxRadius else if radius = 0 then 1 else radius.toNat

def spread (x y sigma : K) : K := min |x| 1000000 + min |y| 1000000 + radiusFor sigma + 2

def FilterOp.spread : FilterOp K → K
  | .blur px => Effects.spread 0 0 px
  | .dropShadow x y sigma _ => Effects.spread x y sigma
  | _ => 0

def margin (effect : Prepared K) : K :=
  effect.filter.foldl (fun margin op => margin + op.spread)
    (match effect.shadow with
      | some shadow => 0 + spread shadow.offsetX shadow.offsetY shadow.sigma
      | none => 0)

def kernel (outside : Outside K) (sigma : K) : List K :=
  let radius := radiusFor sigma
  if radius = 0 then [1]
  else
    let weights := (List.range (radius * 2 + 1)).map fun index : ℕ =>
      outside.gaussian sigma (index - radius)
    if weights.sum ≤ 0 then [1] else weights.map (· / weights.sum)

def bilinear (plane : List K) (width height : ℕ) (x y : K) : K :=
  let x0 := ⌊x⌋
  let y0 := ⌊y⌋
  let fx := x - x0
  let fy := y - y0
  let a00 := planeAt plane width height x0 y0
  let a10 := planeAt plane width height (x0 + 1) y0
  let a01 := planeAt plane width height x0 (y0 + 1)
  let a11 := planeAt plane width height (x0 + 1) (y0 + 1)
  a00 * (1 - fx) * (1 - fy) + a10 * fx * (1 - fy) + a01 * (1 - fx) * fy + a11 * fx * fy

/-- The colour of a shadow where it covers a pixel so much. -/
def shade (color : Color K) (coverage : K) : Pixel K :=
  if coverage ≤ 0 then 0 else fun channel => clamp (color.premultiply channel) 0 1 * coverage

def makeShadow (outside : Outside K) (source : Layer K) (shadow : Shadow K) :
    Except String (Layer K) :=
  if source.isEmpty then pure .empty
  else do
    let radius := radiusFor shadow.sigma
    let blurredWidth := source.width + radius * 2
    let blurredHeight := source.height + radius * 2
    checkExtent blurredWidth blurredHeight
    let around := surround source radius 3
    let alpha :=
      if 0 < radius then
        blurPlane around blurredWidth blurredHeight (kernel outside shadow.sigma)
      else around
    let blurredX ← shiftedOrigin source.x radius
    let blurredY ← shiftedOrigin source.y radius
    let x0 ← bounded ⌊blurredX + shadow.offsetX⌋
    let y0 ← bounded ⌊blurredY + shadow.offsetY⌋
    let x1 ← bounded ⌈blurredX + blurredWidth + shadow.offsetX⌉
    let y1 ← bounded ⌈blurredY + blurredHeight + shadow.offsetY⌉
    if x1 ≤ x0 ∨ y1 ≤ y0 then pure .empty
    else
      let width := (x1 - x0).toNat
      let height := (y1 - y0).toNat
      checkExtent width height
      pure (.ofRows x0 y0 width height fun x y =>
        let sampleX := ((x0 + x : ℤ) : K) - shadow.offsetX - blurredX
        let sampleY := ((y0 + y : ℤ) : K) - shadow.offsetY - blurredY
        shade shadow.color
          (clamp (bilinear alpha blurredWidth blurredHeight sampleX sampleY) 0 255))

end

/-- A pixel drawn over another one. -/
def cover (src dst : Pixel K) : Pixel K :=
  fun channel => src channel + dst channel * (1 - clamp (src 3 / 255) 0 1)

def sourceOver (under atop : Layer K) : Except String (Layer K) :=
  if under.isEmpty then pure atop
  else if atop.isEmpty then pure under
  else do
    let x0 := min under.x atop.x
    let y0 := min under.y atop.y
    let x1 := max (under.x + under.width) (atop.x + atop.width)
    let y1 := max (under.y + under.height) (atop.y + atop.height)
    let width := (x1 - x0).toNat
    let height := (y1 - y0).toNat
    checkExtent width height
    let originX ← bounded x0
    let originY ← bounded y0
    pure (.ofRows originX originY width height fun x y =>
      cover (atop.sample (originX + x) (originY + y)) (under.sample (originX + x) (originY + y)))

/-- A row of a colour matrix. -/
structure Mix (K : Type) where
  red : K
  green : K
  blue : K
  alpha : K
  constant : K

/-- The rows of red, green, blue and alpha. -/
structure Matrix (K : Type) where
  red : Mix K
  green : Mix K
  blue : Mix K
  alpha : Mix K

def Mix.apply (mix : Mix K) (red green blue alpha : K) : K :=
  clamp (mix.red * red + mix.green * green + mix.blue * blue + mix.alpha * alpha + mix.constant) 0 1

def Matrix.apply (matrix : Matrix K) (pixel : Pixel K) : Pixel K :=
  let alpha := pixel 3
  if alpha ≤ 0 then 0
  else
    let inverse := 1 / alpha
    let red := clamp (pixel 0 * inverse) 0 1
    let green := clamp (pixel 1 * inverse) 0 1
    let blue := clamp (pixel 2 * inverse) 0 1
    let straightAlpha := clamp (alpha / 255) 0 1
    let nextRed := matrix.red.apply red green blue straightAlpha
    let nextGreen := matrix.green.apply red green blue straightAlpha
    let nextBlue := matrix.blue.apply red green blue straightAlpha
    let nextAlpha := matrix.alpha.apply red green blue straightAlpha
    ![nextRed * nextAlpha * 255, nextGreen * nextAlpha * 255, nextBlue * nextAlpha * 255,
      nextAlpha * 255]

def mapColors (layer : Layer K) (matrix : Matrix K) : Layer K :=
  { layer with pixels := layer.pixels.map matrix.apply, sized := by rw [List.length_map, layer.sized] }

/-- The alpha of a matrix that keeps it. -/
def Mix.keepAlpha : Mix K := ⟨0, 0, 0, 1, 0⟩

def brightness (amount : K) : Matrix K :=
  ⟨⟨amount, 0, 0, 0, 0⟩, ⟨0, amount, 0, 0, 0⟩, ⟨0, 0, amount, 0, 0⟩, .keepAlpha⟩

def contrast (amount : K) : Matrix K :=
  let intercept := (1 / 2) * (1 - amount)
  ⟨⟨amount, 0, 0, 0, intercept⟩, ⟨0, amount, 0, 0, intercept⟩, ⟨0, 0, amount, 0, intercept⟩,
    .keepAlpha⟩

def invert (amount : K) : Matrix K :=
  let slope := 1 - 2 * amount
  ⟨⟨slope, 0, 0, 0, amount⟩, ⟨0, slope, 0, 0, amount⟩, ⟨0, 0, slope, 0, amount⟩, .keepAlpha⟩

def opacity (amount : K) : Matrix K :=
  ⟨⟨1, 0, 0, 0, 0⟩, ⟨0, 1, 0, 0, 0⟩, ⟨0, 0, 1, 0, 0⟩, ⟨0, 0, 0, amount, 0⟩⟩

def grayscale (amount : K) : Matrix K :=
  let keep := 1 - amount
  let red := 0.2126 * amount
  let green := 0.7152 * amount
  let blue := 0.0722 * amount
  ⟨⟨red + keep, green, blue, 0, 0⟩, ⟨red, green + keep, blue, 0, 0⟩,
    ⟨red, green, blue + keep, 0, 0⟩, .keepAlpha⟩

def sepia (amount : K) : Matrix K :=
  let mix := fun sepia identity : K => sepia * amount + identity * (1 - amount)
  ⟨⟨mix 0.393 1, mix 0.769 0, mix 0.189 0, 0, 0⟩, ⟨mix 0.349 0, mix 0.686 1, mix 0.168 0, 0, 0⟩,
    ⟨mix 0.272 0, mix 0.534 0, mix 0.131 1, 0, 0⟩, .keepAlpha⟩

def saturate (amount : K) : Matrix K :=
  ⟨⟨0.213 + 0.787 * amount, 0.715 - 0.715 * amount, 0.072 - 0.072 * amount, 0, 0⟩,
    ⟨0.213 - 0.213 * amount, 0.715 + 0.285 * amount, 0.072 - 0.072 * amount, 0, 0⟩,
    ⟨0.213 - 0.213 * amount, 0.715 - 0.715 * amount, 0.072 + 0.928 * amount, 0, 0⟩, .keepAlpha⟩

def hueRotate (outside : Outside K) (deg : K) : Matrix K :=
  let cos := outside.cosine deg
  let sin := outside.sine deg
  ⟨⟨0.213 + cos * 0.787 - sin * 0.213, 0.715 - cos * 0.715 - sin * 0.715,
      0.072 - cos * 0.072 + sin * 0.928, 0, 0⟩,
    ⟨0.213 - cos * 0.213 + sin * 0.143, 0.715 + cos * 0.285 + sin * 0.140,
      0.072 - cos * 0.072 - sin * 0.283, 0, 0⟩,
    ⟨0.213 - cos * 0.213 - sin * 0.787, 0.715 - cos * 0.715 + sin * 0.715,
      0.072 + cos * 0.928 + sin * 0.072, 0, 0⟩, .keepAlpha⟩

section
variable [FloorRing K]

def blurLayer (outside : Outside K) (layer : Layer K) (sigma : K) : Except String (Layer K) :=
  let radius := radiusFor sigma
  if radius = 0 ∨ layer.isEmpty then pure layer
  else do
    let width := layer.width + radius * 2
    let height := layer.height + radius * 2
    checkExtent width height
    let weights := kernel outside sigma
    let planes := fun channel => blurPlane (surround layer radius channel) width height weights
    let x ← shiftedOrigin layer.x radius
    let y ← shiftedOrigin layer.y radius
    pure ⟨x, y, width, height, (List.range (width * height)).map fun index channel =>
      (planes channel).getD index 0, by rw [List.length_map, List.length_range]⟩

def applyOp (outside : Outside K) (layer : Layer K) : FilterOp K → Except String (Layer K)
  | .blur px => blurLayer outside layer px
  | .dropShadow x y blur color => do
    let color ← outside.parseColour color
    let under ← makeShadow outside layer ⟨x, y, blur, color⟩
    sourceOver under layer
  | .brightness amount => pure (mapColors layer (brightness amount))
  | .contrast amount => pure (mapColors layer (contrast amount))
  | .grayscale amount => pure (mapColors layer (grayscale amount))
  | .invert amount => pure (mapColors layer (invert amount))
  | .opacity amount => pure (mapColors layer (opacity amount))
  | .saturate amount => pure (mapColors layer (saturate amount))
  | .sepia amount => pure (mapColors layer (sepia amount))
  | .hueRotate deg => pure (mapColors layer (hueRotate outside deg))

def apply (outside : Outside K) (shape : Layer K) (effect : Prepared K) :
    Except String (Outcome K) := do
  let shape ← effect.filter.foldlM (applyOp outside) shape
  match effect.shadow with
  | some shadow =>
    let shadow ← makeShadow outside shape shadow
    pure ⟨some shadow, shape⟩
  | none => pure ⟨none, shape⟩

end

structure Rect (K : Type) where
  x0 : K
  y0 : K
  x1 : K
  y1 : K

def Rect.inflate (rect : Rect K) (width height : K) : Rect K :=
  ⟨rect.x0 - width, rect.y0 - height, rect.x1 + width, rect.y1 + height⟩

def Rect.intersect (rect other : Rect K) : Rect K :=
  let x0 := max rect.x0 other.x0
  let y0 := max rect.y0 other.y0
  ⟨x0, y0, max (min rect.x1 other.x1) x0, max (min rect.y1 other.y1) y0⟩

def Layer.rect (layer : Layer K) : Rect K :=
  ⟨layer.x, layer.y, layer.x + layer.width, layer.y + layer.height⟩

/-- The part of a layer that a raster of the area holds: every pixel that the area touches. -/
def Layer.crop [FloorRing K] (layer : Layer K) (area : Rect K) : Layer K :=
  let area := layer.rect.intersect area
  let x0 := ⌊area.x0⌋
  let y0 := ⌊area.y0⌋
  let x1 := ⌈area.x1⌉
  let y1 := ⌈area.y1⌉
  if area.x1 ≤ area.x0 ∨ area.y1 ≤ area.y0 then .empty
  else
    .ofRows x0 y0 (x1 - x0).toNat (y1 - y0).toNat fun x y => layer.sample (x0 + x) (y0 + y)

/-- A rectangle that is not empty touches the pixel. -/
structure Rect.Touches [FloorRing K] (rect : Rect K) (place : ℤ × ℤ) : Prop where
  wide : rect.x0 < rect.x1
  high : rect.y0 < rect.y1
  left : ⌊rect.x0⌋ ≤ place.1
  right : place.1 < ⌈rect.x1⌉
  top : ⌊rect.y0⌋ ≤ place.2
  bottom : place.2 < ⌈rect.y1⌉

end Chuzz.Canvas2D.Effects
