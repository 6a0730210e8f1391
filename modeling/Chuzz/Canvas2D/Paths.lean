import Chuzz.Canvas2D.Native

/-! The path that the commands of a canvas build. The functions of real numbers and the affine maps
are parameters; what the commands do with them is as in the source. -/
namespace Chuzz.Canvas2D.Paths

structure Point where
  x : Float
  y : Float
deriving DecidableEq

/-- `==` on points. -/
def Point.same (a b : Point) : Bool := a.x == b.x && a.y == b.y

/-- `a - b` -/
def Point.minus (a b : Point) : Point := ⟨a.x - b.x, a.y - b.y⟩
def Point.plus (a b : Point) : Point := ⟨a.x + b.x, a.y + b.y⟩
def Point.times (a : Point) (k : Float) : Point := ⟨a.x * k, a.y * k⟩
def Point.over (a : Point) (k : Float) : Point := ⟨a.x / k, a.y / k⟩
def Point.cross (a b : Point) : Float := a.x * b.y - a.y * b.x
def Point.dot (a b : Point) : Float := a.x * b.x + a.y * b.y
def Point.hypot2 (a : Point) : Float := a.dot a

/-- The functions of real numbers, and the affine maps `A`. -/
structure Maths (A : Type) where
  sqrt : Float → Float
  sin : Float → Float
  cos : Float → Float
  tan : Float → Float
  acos : Float → Float
  atan2 : Float → Float → Float
  remEuclid : Float → Float → Float
  ceil : Float → Nat
  least : Float → Float → Float
  greatest : Float → Float → Float
  pi : Float
  apply : A → Point → Point
  compose : A → A → A
  translate : Float → Float → A
  rotate : Float → A
  scale : Float → Float → A
  determinant : A → Float
  inverse : A → A

inductive PathEl where
  | moveTo (point : Point)
  | lineTo (point : Point)
  | quadTo (control stop : Point)
  | curveTo (first second stop : Point)
  | closePath
deriving DecidableEq

structure Path where
  path : List PathEl := []
  current : Option Point := none
  start : Option Point := none
deriving DecidableEq

variable {A : Type} (maths : Maths A)

def Maths.hypot (a : Point) : Float := maths.sqrt a.hypot2

namespace Path

def moveTo (self : Path) (point : Point) : Path :=
  ⟨self.path ++ [.moveTo point], some point, some point⟩

def lineTo (self : Path) (point : Point) : Path :=
  if self.current.isNone then self.moveTo point
  else { self with path := self.path ++ [.lineTo point], current := some point }

def close (self : Path) : Path :=
  if self.current.isSome then
    { self with path := self.path ++ [.closePath], current := self.start }
  else self

def quadTo (self : Path) (control stop : Point) : Path :=
  let self := if self.current.isNone then self.moveTo control else self
  { self with path := self.path ++ [.quadTo control stop], current := some stop }

/-- `bezierCurveTo` -/
def bezierTo (self : Path) (first second stop : Point) : Path :=
  let self := if self.current.isNone then self.moveTo first else self
  { self with path := self.path ++ [.curveTo first second stop], current := some stop }

/-- A part of an arc, which is drawn without a look at the current point. -/
def curveTo (self : Path) (first second stop : Point) : Path :=
  { self with path := self.path ++ [.curveTo first second stop], current := some stop }

structure Ellipse where
  x : Float
  y : Float
  rx : Float
  ry : Float
  rotation : Float := 0
  start : Float
  stop : Float
  ccw : Float := 0

def Ellipse.sweep (n : Ellipse) : Float :=
  let tau := 2 * maths.pi
  let sweep := n.stop - n.start
  if n.ccw == 0 then
    if tau ≤ sweep then tau else maths.remEuclid sweep tau
  else if sweep ≤ -tau then -tau else -(maths.remEuclid (-sweep) tau)

def ellipse (self : Path) (n : Ellipse) (transform : A) : Path :=
  let sweep := n.sweep maths
  let origin := maths.remEuclid n.start (2 * maths.pi)
  let matrix := maths.compose (maths.compose (maths.compose transform (maths.translate n.x n.y))
    (maths.rotate n.rotation)) (maths.scale n.rx n.ry)
  let self := self.lineTo (maths.apply matrix ⟨maths.cos origin, maths.sin origin⟩)
  if sweep == 0 then self
  else
    let segments := maths.ceil (sweep.abs / (maths.pi / 2))
    let step := sweep / Float.ofNat segments
    (List.range segments).foldl (fun self index =>
      let a := origin + step * Float.ofNat index
      let b := a + step
      let k := 4 / 3 * maths.tan (step / 4)
      self.curveTo
        (maths.apply matrix ⟨maths.cos a - k * maths.sin a, maths.sin a + k * maths.cos a⟩)
        (maths.apply matrix ⟨maths.cos b + k * maths.sin b, maths.sin b - k * maths.cos b⟩)
        (maths.apply matrix ⟨maths.cos b, maths.sin b⟩)) self

/-- Where an arc to `p2` around the corner `p1` begins, and the arc. -/
def corner (p0 p1 p2 : Point) (radius : Float) : Point × Ellipse :=
  let a := p0.minus p1
  let b := p2.minus p1
  let u := a.over (maths.hypot a)
  let v := b.over (maths.hypot b)
  let cosine := u.dot v
  let angle := maths.acos (if cosine < -1 then -1 else if 1 < cosine then 1 else cosine)
  let distance := radius / maths.tan (angle * 0.5)
  let t1 := p1.plus (u.times distance)
  let t2 := p1.plus (v.times distance)
  let normal := (Point.mk (-u.y) u.x).times (if 0 < a.cross b then 1 else -1)
  let center := t1.plus (normal.times radius)
  (t1, { x := center.x, y := center.y, rx := radius, ry := radius,
         start := maths.atan2 (t1.y - center.y) (t1.x - center.x),
         stop := maths.atan2 (t2.y - center.y) (t2.x - center.x),
         ccw := if 0 < a.cross b then 1 else 0 })

def arcTo (self : Path) (p1 p2 : Point) (radius : Float) (transform : A) : Path :=
  match self.current with
  | none => self.moveTo (maths.apply transform p1)
  | some current =>
    if (maths.determinant transform).abs < 1e-20 then self.lineTo (maths.apply transform p1)
    else
      let p0 := maths.apply (maths.inverse transform) current
      let a := p0.minus p1
      let b := p2.minus p1
      let lengths := maths.hypot a * maths.hypot b
      if radius == 0 || lengths == 0 || (a.cross b).abs < 1e-12 * lengths then
        self.lineTo (maths.apply transform p1)
      else
        let (t1, arc) := corner maths p0 p1 p2 radius
        (self.lineTo (maths.apply transform t1)).ellipse maths arc transform

/-- A corner of a rounded rectangle and the side behind it. -/
def roundCorner (transform : A) (self : Path) (side : (Float × Float) × Point × Float × Point) :
    Path :=
  let ((rx, ry), center, start, next) := side
  let self :=
    if rx == 0 || ry == 0 then
      let stop := start + maths.pi / 2
      self.lineTo (maths.apply transform
        ⟨center.x + rx * maths.cos stop, center.y + ry * maths.sin stop⟩)
    else
      self.ellipse maths
        { x := center.x, y := center.y, rx, ry, start, stop := start + maths.pi / 2 } transform
  self.lineTo (maths.apply transform next)

def roundRect (self : Path) (x y w h : Float) (r0 r1 r2 r3 : Float × Float) (transform : A) :
    Path :=
  let ratios := [w / (r0.1 + r1.1), w / (r3.1 + r2.1), h / (r0.2 + r3.2), h / (r1.2 + r2.2)]
  let factor := maths.greatest (ratios.foldl maths.least 1) 0
  let shrink (r : Float × Float) := (r.1 * factor, r.2 * factor)
  let (r0, r1, r2, r3) := (shrink r0, shrink r1, shrink r2, shrink r3)
  let self := self.moveTo (maths.apply transform ⟨x + r0.1, y⟩)
  let self := self.lineTo (maths.apply transform ⟨x + w - r1.1, y⟩)
  let sides : List ((Float × Float) × Point × Float × Point) :=
    [(r1, ⟨x + w - r1.1, y + r1.2⟩, -(maths.pi / 2), ⟨x + w, y + h - r2.2⟩),
     (r2, ⟨x + w - r2.1, y + h - r2.2⟩, 0, ⟨x + r3.1, y + h⟩),
     (r3, ⟨x + r3.1, y + h - r3.2⟩, maths.pi / 2, ⟨x, y + r0.2⟩),
     (r0, ⟨x + r0.1, y + r0.2⟩, maths.pi, ⟨x + r0.1, y⟩)]
  (sides.foldl (roundCorner maths transform) self).close

/-- `numbers` -/
def numbers (values : List Float) (count : Nat) : Except String Unit :=
  if values.length ≠ count ∨ values.any fun n => !n.isFinite || 1e7 < n.abs then
    throw "invalid or oversized canvas coordinates in chuzz"
  else .ok ()

/-- Carries out a command, or leaves the path alone (`none`) if it is not one of a path. -/
def command (self : Path) (op : Op) (n : List Float) (transform : A) :
    Except String (Option Path) := do
  let some count := op.count | return none
  numbers n count
  let at' (i : Nat) : Float := n.getD i 0
  let point (offset : Nat) : Point := maths.apply transform ⟨at' offset, at' (offset + 1)⟩
  match op with
  | .beginPath => return some {}
  | .closePath => return some self.close
  | .moveTo => return some (self.moveTo (point 0))
  | .lineTo => return some (self.lineTo (point 0))
  | .quadraticCurveTo => return some (self.quadTo (point 0) (point 2))
  | .bezierCurveTo => return some (self.bezierTo (point 0) (point 2) (point 4))
  | .rect =>
    let self := self.moveTo (point 0)
    let self := self.lineTo (maths.apply transform ⟨at' 0 + at' 2, at' 1⟩)
    let self := self.lineTo (maths.apply transform ⟨at' 0 + at' 2, at' 1 + at' 3⟩)
    let self := self.lineTo (maths.apply transform ⟨at' 0, at' 1 + at' 3⟩)
    return some self.close
  | .arc =>
    if at' 2 < 0 then throw "negative canvas arc radius"
    return some (self.ellipse maths
      { x := at' 0, y := at' 1, rx := at' 2, ry := at' 2, start := at' 3, stop := at' 4,
        ccw := at' 5 } transform)
  | .ellipse =>
    if at' 2 < 0 ∨ at' 3 < 0 then throw "negative canvas ellipse radius"
    return some (self.ellipse maths
      { x := at' 0, y := at' 1, rx := at' 2, ry := at' 3, rotation := at' 4, start := at' 5,
        stop := at' 6, ccw := at' 7 } transform)
  | .arcTo =>
    if at' 4 < 0 then throw "negative canvas arcTo radius"
    return some (self.arcTo maths ⟨at' 0, at' 1⟩ ⟨at' 2, at' 3⟩ (at' 4) transform)
  | .roundRect =>
    if at' 2 < 0 ∨ at' 3 < 0 ∨ (n.drop 4).any (· < 0) then
      throw "invalid canvas roundRect radius"
    return some (self.roundRect maths (at' 0) (at' 1) (at' 2) (at' 3) (at' 4, at' 5)
      (at' 6, at' 7) (at' 8, at' 9) (at' 10, at' 11) transform)
  | _ => return none

end Path
end Chuzz.Canvas2D.Paths
