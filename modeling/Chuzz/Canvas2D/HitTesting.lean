import Chuzz.Canvas2D.Paths

/-! Whether a point is in a path, or in its stroke. Curves are flattened into lines, and the lines
make up the contours. What the dashes leave of a line is a parameter. -/
namespace Chuzz.Canvas2D.Paths
variable {A : Type} (maths : Maths A)

def epsilon : Float := 2.220446049250313e-16

def midpoint (a b : Point) : Point := ⟨(a.x + b.x) * 0.5, (a.y + b.y) * 0.5⟩

def distanceToLine (point a b : Point) : Float :=
  let edge := b.minus a
  let length := maths.hypot edge
  if length ≤ epsilon then maths.hypot (point.minus a)
  else (edge.cross (point.minus a)).abs / length

/-- The points behind `a`, with this depth left. -/
def flattenQuad : (depth : Nat) → (a control b : Point) → List Point
  | 0, _, _, b => [b]
  | depth + 1, a, control, b =>
    if distanceToLine maths control a b ≤ 0.1 then [b]
    else
      let ac := midpoint a control
      let cb := midpoint control b
      let middle := midpoint ac cb
      flattenQuad depth a ac middle ++ flattenQuad depth middle cb b

def flattenCubic : (depth : Nat) → (a c1 c2 b : Point) → List Point
  | 0, _, _, _, b => [b]
  | depth + 1, a, c1, c2, b =>
    if maths.greatest (distanceToLine maths c1 a b) (distanceToLine maths c2 a b) ≤ 0.1 then [b]
    else
      let a1 := midpoint a c1
      let c12 := midpoint c1 c2
      let c2b := midpoint c2 b
      let a2 := midpoint a1 c12
      let b1 := midpoint c12 c2b
      let middle := midpoint a2 b1
      flattenCubic depth a a1 a2 middle ++ flattenCubic depth middle b1 c2b b

structure Contour where
  points : List Point := []
  closed : Bool := false
deriving DecidableEq

/-- What the loop over the elements carries. -/
structure Tracing where
  result : List Contour := []
  active : Contour := {}
  current : Point := ⟨0, 0⟩

/-- The active contour is done with. -/
def Tracing.finish (self : Tracing) : List Contour :=
  if self.active.points ≠ [] then self.result ++ [self.active] else self.result

/-- More points of the active contour. -/
def Tracing.draw (self : Tracing) (points : List Point) (stop : Point) : Tracing :=
  { self with active := { self.active with points := self.active.points ++ points }, current := stop }

def Tracing.element (self : Tracing) : PathEl → Tracing
  | .moveTo point => ⟨self.finish, ⟨[point], false⟩, point⟩
  | .lineTo point => self.draw [point] point
  | .quadTo control stop => self.draw (flattenQuad maths 12 self.current control stop) stop
  | .curveTo first second stop =>
    self.draw (flattenCubic maths 12 self.current first second stop) stop
  | .closePath =>
    match self.active.points.head? with
    | none => self
    | some first =>
      let back := self.active.points.getLast?.all fun last => !last.same first
      { self with
        active := ⟨if back then self.active.points ++ [first] else self.active.points, true⟩
        current := first }

def contours (path : List PathEl) : List Contour :=
  (path.foldl (Tracing.element maths) {}).finish

/-! The fill. -/

def onSegment (point a b : Point) : Bool :=
  let edge := b.minus a
  let relative := point.minus a
  if edge.hypot2 ≤ epsilon then relative.hypot2 ≤ 1e-14
  else if 1e-7 * maths.greatest (maths.hypot edge) 1 < (edge.cross relative).abs then false
  else
    let projection := relative.dot edge
    projection ≥ -1e-7 && projection ≤ edge.dot edge + 1e-7

/-- The winding number and the crossings. -/
structure Tally where
  winding : Int := 0
  crossings : Nat := 0
deriving DecidableEq

/-- One more edge, or `none` where the point lies on it. -/
def Tally.edge (point : Point) (self : Tally) (edge : Point × Point) : Option Tally :=
  let (a, b) := edge
  if onSegment maths point a b then none
  else if (a.y ≤ point.y ∧ point.y < b.y) ∨ (point.y < a.y ∧ b.y ≤ point.y) then
    let side := (b.minus a).cross (point.minus a)
    if (a.y < b.y ∧ 0 < side) ∨ (b.y < a.y ∧ side < 0) then
      some ⟨self.winding + (if a.y < b.y then 1 else -1), self.crossings + 1⟩
    else some self
  else some self

/-- The edges of a contour, with the one back to its first point. -/
def Contour.edges (contour : Contour) : List (Point × Point) :=
  if contour.points.length < 2 then []
  else contour.points.zip (contour.points.rotate 1)

/-- The loops over the contours and their edges. -/
def tally (path : List PathEl) (point : Point) : Option Tally :=
  (contours maths path).foldlM
    (fun self contour => contour.edges.foldlM (Tally.edge maths point) self) {}

inductive Fill where
  | nonZero
  | evenOdd

def containsFill (path : List PathEl) (point : Point) (fill : Fill) : Bool :=
  match tally maths path point with
  | none => true
  | some tally =>
    match fill with
    | .evenOdd => tally.crossings % 2 = 1
    | .nonZero => tally.winding ≠ 0

/-! The stroke. -/

inductive Cap where
  | butt
  | round
  | square
  | other
deriving DecidableEq

inductive Join where
  | round
  | bevel
  | miter
  | other
deriving DecidableEq

/-- What the stroke reads of the draw state. -/
structure DrawState where
  matrix : List Float
  width : Float
  cap : Cap
  join : Join
  miter : Float
  dash : List Float
  dashOffset : Float

/-- The checks of `stroke`. -/
def DrawState.stroke (self : DrawState) : Except String Unit := do
  Path.numbers self.matrix 6
  if !self.width.isFinite || self.width ≤ 0 || 1e7 < self.width || !self.miter.isFinite ||
      self.miter ≤ 0 || 1e7 < self.miter || !self.dashOffset.isFinite || 1024 < self.dash.length ||
      self.dash.any fun n => !n.isFinite || n < 0 || 1e7 < n then
    throw "invalid canvas stroke"
  if self.cap = .other then throw "invalid canvas lineCap"
  if self.join = .other then throw "invalid canvas lineJoin"

def triangleContains (point a b c : Point) : Bool :=
  let ab := (b.minus a).cross (point.minus a)
  let bc := (c.minus b).cross (point.minus b)
  let ca := (a.minus c).cross (point.minus c)
  (-1e-7 ≤ ab && -1e-7 ≤ bc && -1e-7 ≤ ca) || (ab ≤ 1e-7 && bc ≤ 1e-7 && ca ≤ 1e-7)

def lineContains (point a b : Point) (radius : Float) (cap : Cap) (first last : Bool) : Bool :=
  let edge := b.minus a
  let length := maths.hypot edge
  if length ≤ epsilon then cap ≠ .butt && maths.hypot (point.minus a) ≤ radius
  else
    let direction := edge.over length
    let along := (point.minus a).dot direction
    let across := (direction.cross (point.minus a)).abs
    let lower := if first && cap = .square then -radius else 0
    let upper := length + (if last && cap = .square then radius else 0)
    (lower ≤ along && along ≤ upper && across ≤ radius) ||
      (cap = .round && ((first && maths.hypot (point.minus a) ≤ radius) ||
        (last && maths.hypot (point.minus b) ≤ radius)))

def joinContains (point before corner after : Point) (radius : Float) (join : Join)
    (limit : Float) : Bool :=
  let incoming := corner.minus before
  let outgoing := after.minus corner
  let aLen := maths.hypot incoming
  let bLen := maths.hypot outgoing
  let a := incoming.over aLen
  let b := outgoing.over bLen
  let turn := a.cross b
  if aLen ≤ epsilon || bLen ≤ epsilon then false
  else if turn.abs < 1e-10 then false
  else if join = .round then maths.hypot (point.minus corner) ≤ radius
  else
    let side : Float := if 0 < turn then -1 else 1
    let p1 := corner.plus ((Point.mk (-a.y) a.x).times (radius * side))
    let p2 := corner.plus ((Point.mk (-b.y) b.x).times (radius * side))
    let tip := p1.plus (a.times ((p2.minus p1).cross b / turn))
    if join = .miter && maths.hypot (tip.minus corner) ≤ radius * limit then
      triangleContains point p1 tip p2 || triangleContains point corner p1 p2
    else triangleContains point corner p1 p2

def strokePiece (points : List Point) (closed : Bool) (point : Point) (state : DrawState) : Bool :=
  let radius := state.width * 0.5
  let count := points.length - 1
  let here (i : Nat) : Point := points.getD i ⟨0, 0⟩
  match points with
  | [] => false
  | [only] => state.cap ≠ .butt && maths.hypot (point.minus only) ≤ radius
  | _ =>
    (List.range count).any (fun index => lineContains maths point (here index) (here (index + 1))
      radius state.cap (!closed && index = 0) (!closed && index + 1 = count)) ||
    ((List.range count).drop 1).any (fun index => joinContains maths point (here (index - 1))
      (here index) (here (index + 1)) radius state.join state.miter) ||
    (closed && 4 ≤ points.length && joinContains maths point (here (points.length - 2)) (here 0)
      (here 1) radius state.join state.miter)

/-- What the dashes leave of a line. -/
abbrev Dashing := (points : List Point) → (pattern : List Float) → (offset : Float) →
  List (List Point)

/-- A contour in the stroke. -/
def Contour.contains (dashedPieces : Dashing) (point : Point) (state : DrawState)
    (contour : Contour) : Bool :=
  if state.dash = [] ∨ state.dash.all (· == 0) then
    strokePiece maths contour.points contour.closed point state
  else
    (dashedPieces contour.points state.dash state.dashOffset).any fun piece =>
      strokePiece maths piece false point state

def containsStroke (dashedPieces : Dashing) (path : List PathEl) (point : Point)
    (state : DrawState) : Except String Bool := do
  state.stroke
  return (contours maths path).any (·.contains maths dashedPieces point state)

end Chuzz.Canvas2D.Paths
