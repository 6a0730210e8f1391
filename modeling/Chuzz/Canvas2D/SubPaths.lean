import Chuzz.Canvas2D.HitTesting

/-! The sub-paths of a path, and whether hit testing tells them apart. What is drawn behind the end
of a closed sub-path is taken for a part of it. -/
namespace Chuzz.Canvas2D.Paths
open List
variable {A : Type} {maths : Maths A}

/-- A path that commands have built. -/
inductive Built (maths : Maths A) : Path → Prop where
  | new : Built maths {}
  | command {path after : Path} {op : Op} {n : List Float} {transform : A} : Built maths path →
      path.command maths op n transform = .ok (some after) → Built maths after

def PathEl.draws : PathEl → Bool
  | .lineTo _ | .quadTo .. | .curveTo .. => true
  | .moveTo _ | .closePath => false

/-- The sub-paths from here on: the elements of one so far, where it began, and whether it has been
closed. What is drawn behind that begins a new one at the same point. -/
def subpathsFrom : (start : Point) → (closed : Bool) → (sub : List PathEl) → List PathEl →
    List (List PathEl)
  | _, _, sub, [] => [sub]
  | _, _, sub, .moveTo point :: rest => sub :: subpathsFrom point false [.moveTo point] rest
  | start, _, sub, .closePath :: rest => subpathsFrom start true (sub ++ [.closePath]) rest
  | start, false, sub, element :: rest => subpathsFrom start false (sub ++ [element]) rest
  | start, true, sub, element :: rest =>
    sub :: subpathsFrom start false [.moveTo start, element] rest

/-- The sub-paths of a path, each one with the point where it begins. -/
def subpaths : List PathEl → List (List PathEl)
  | .moveTo point :: rest => subpathsFrom point false [.moveTo point] rest
  | _ => []

def Tally.plus (self other : Tally) : Tally :=
  ⟨self.winding + other.winding, self.crossings + other.crossings⟩

/-- The sum, if the point is on no edge of any. -/
def Tally.sum : List (Option Tally) → Option Tally
  | [] => some {}
  | tally :: rest => do return (← tally).plus (← sum rest)

/-- Hit testing tells the sub-paths apart. -/
structure Respects (maths : Maths A) (path : List PathEl) : Prop where
  contours : (contours maths path).map ([·]) = (subpaths path).map (contours maths)
  closed : List.Forall₂ (fun contour sub => contour.closed = true ↔ .closePath ∈ sub)
    (Paths.contours maths path) (subpaths path)
  stroke : ∀ (dashedPieces : Dashing) point state,
    containsStroke maths dashedPieces path point state = .ok true ↔
      ∃ sub ∈ subpaths path, containsStroke maths dashedPieces sub point state = .ok true
  fill : ∀ point, tally maths path point = Tally.sum ((subpaths path).map (tally maths · point))

/-- Something is drawn behind a closed sub-path. -/
def DrawsOn (path : List PathEl) : Prop :=
  ∃ front element back, path = front ++ .closePath :: element :: back ∧ element.draws = true

/-! The paths that are built. -/

/-- A path that has a current point begins with a point. -/
def Path.Begun (path : Path) : Prop :=
  path.current = none ∧ path.path = [] ∨
    path.current.isSome ∧ path.start.isSome ∧ ∃ point rest, path.path = .moveTo point :: rest

namespace Path
variable {path : Path} {point first second stop : Point}

theorem append_begun (begun : path.Begun) (some : path.current.isSome) (elements : List PathEl)
    {current : Option Point} (left : current.isSome) :
    Begun { path with path := path.path ++ elements, current } := by
  rcases begun with ⟨none, _⟩ | ⟨_, start, first, rest, same⟩
  · rw [none] at some
    cases some
  · exact .inr ⟨left, start, first, rest ++ elements, by rw [same, cons_append]⟩

theorem moveTo_begun (begun : path.Begun) (point : Point) : (path.moveTo point).Begun := by
  rcases begun with ⟨_, none⟩ | ⟨_, _, first, rest, some⟩
  · refine .inr ⟨rfl, rfl, point, [], ?_⟩
    unfold moveTo
    rw [none, nil_append]
  · refine .inr ⟨rfl, rfl, first, rest ++ [.moveTo point], ?_⟩
    unfold moveTo
    rw [some, cons_append]

theorem lineTo_begun (begun : path.Begun) (point : Point) : (path.lineTo point).Begun := by
  unfold lineTo
  split
  · exact moveTo_begun begun point
  · rename_i some
    exact append_begun begun (Option.isSome_iff_ne_none.mpr fun none => some (by rw [none]; rfl)) _ rfl

theorem lineTo_current (path : Path) (point : Point) :
    (path.lineTo point).current = some point := by
  unfold lineTo
  split <;> rfl

section
variable (begun : path.Begun)
include begun

theorem close_begun : path.close.Begun := by
  unfold close
  split
  · rename_i some
    have start : path.start.isSome := by
      rcases begun with ⟨none, _⟩ | ⟨_, start, _⟩
      · rw [none] at some
        cases some
      · exact start
    exact append_begun begun some _ start
  · exact begun

theorem ensured_begun (point : Point) :
    (if path.current.isNone then path.moveTo point else path).Begun ∧
      (if path.current.isNone then path.moveTo point else path).current.isSome := by
  split
  · exact ⟨moveTo_begun begun point, rfl⟩
  · rename_i some
    exact ⟨begun, Option.isSome_iff_ne_none.mpr fun none => some (by rw [none]; rfl)⟩

theorem quadTo_begun (control stop : Point) : (path.quadTo control stop).Begun := by
  obtain ⟨begun, some⟩ := ensured_begun begun control
  exact append_begun begun some _ rfl

theorem bezierTo_begun (first second stop : Point) : (path.bezierTo first second stop).Begun := by
  obtain ⟨begun, some⟩ := ensured_begun begun first
  exact append_begun begun some _ rfl

theorem ellipse_begun (n : Ellipse) (transform : A) : (path.ellipse maths n transform).Begun := by
  unfold ellipse
  dsimp only
  generalize maths.apply _ _ = first
  have begun := lineTo_begun begun first
  have some : (path.lineTo first).current.isSome := by rw [lineTo_current]; rfl
  generalize path.lineTo first = path at begun some
  split
  · exact begun
  · generalize List.range _ = indices
    induction indices generalizing path with
    | nil => exact begun
    | cons index indices ih => exact ih _ (append_begun begun some _ rfl) rfl

theorem arcTo_begun (p1 p2 : Point) (radius : Float) (transform : A) :
    (path.arcTo maths p1 p2 radius transform).Begun := by
  unfold arcTo
  split
  · exact moveTo_begun begun _
  · dsimp only
    split
    · exact lineTo_begun begun _
    · split
      · exact lineTo_begun begun _
      · exact ellipse_begun (lineTo_begun begun _) _ _

theorem roundCorner_begun (transform : A) (side : (Float × Float) × Point × Float × Point) :
    (roundCorner maths transform path side).Begun := by
  unfold roundCorner
  refine lineTo_begun ?_ _
  split
  · exact lineTo_begun begun _
  · exact ellipse_begun begun _ _

end

theorem foldl_begun {B : Type} {draw : Path → B → Path}
    (step : ∀ path item, path.Begun → (draw path item).Begun) (begun : path.Begun)
    (items : List B) : (items.foldl draw path).Begun := by
  induction items generalizing path with
  | nil => exact begun
  | cons item items ih => exact ih (step path item begun)

theorem roundRect_begun (begun : path.Begun) (x y w h : Float) (r0 r1 r2 r3 : Float × Float)
    (transform : A) : (path.roundRect maths x y w h r0 r1 r2 r3 transform).Begun := by
  refine close_begun (foldl_begun (fun path side begun => roundCorner_begun begun transform side) ?_ _)
  exact lineTo_begun (moveTo_begun begun _) _

theorem command_begun (begun : path.Begun) {op : Op} {n : List Float} {transform : A} {after : Path}
    (done : path.command maths op n transform = .ok (some after)) : after.Begun := by
  unfold command at done
  cases counted : op.count with
  | none =>
    rw [counted] at done
    cases done
  | some count =>
    rw [counted] at done
    obtain ⟨_, _, done⟩ := Library.Fallible.bind_ok done
    split at done
    · cases done
      exact .inl ⟨rfl, rfl⟩
    · cases done
      exact close_begun begun
    · cases done
      exact moveTo_begun begun _
    · cases done
      exact lineTo_begun begun _
    · cases done
      exact quadTo_begun begun _ _
    · cases done
      exact bezierTo_begun begun _ _ _
    · cases done
      exact close_begun (lineTo_begun (lineTo_begun (lineTo_begun (moveTo_begun begun _) _) _) _)
    · obtain ⟨_, done⟩ := Library.Fallible.guard_ok done
      cases done
      exact ellipse_begun begun _ _
    · obtain ⟨_, done⟩ := Library.Fallible.guard_ok done
      cases done
      exact ellipse_begun begun _ _
    · obtain ⟨_, done⟩ := Library.Fallible.guard_ok done
      cases done
      exact arcTo_begun begun _ _ _ _
    · obtain ⟨_, done⟩ := Library.Fallible.guard_ok done
      cases done
      exact roundRect_begun begun _ _ _ _ _ _ _ _ _
    · cases done

end Path

theorem Built.begun {path : Path} (built : Built maths path) : path.Begun := by
  induction built with
  | new => exact .inl ⟨rfl, rfl⟩
  | command _ done ih => exact Path.command_begun ih done

/-! The contours of the sub-paths. -/

/-- The loop over the elements of a sub-path alone. -/
def traced (maths : Maths A) (sub : List PathEl) : Tracing := sub.foldl (Tracing.element maths) {}

theorem traced_append (sub : List PathEl) (element : PathEl) :
    traced maths (sub ++ [element]) = Tracing.element maths (traced maths sub) element := by
  unfold traced
  rw [foldl_append]
  rfl

/-- Nothing is drawn behind a closed sub-path, of which this is what follows. -/
def Fine : (closed : Bool) → List PathEl → Prop
  | _, [] => True
  | _, .moveTo _ :: rest => Fine false rest
  | _, .closePath :: rest => Fine true rest
  | closed, _ :: rest => closed = false ∧ Fine false rest

/-- How often something is drawn behind a closed sub-path. -/
def reopenings : (closed : Bool) → List PathEl → Nat
  | _, [] => 0
  | _, .moveTo _ :: rest => reopenings false rest
  | _, .closePath :: rest => reopenings true rest
  | closed, _ :: rest => (if closed then 1 else 0) + reopenings false rest

def moves (path : List PathEl) : Nat := path.countP fun element => element matches .moveTo _

theorem element_kinds (element : PathEl) :
    (∃ point, element = .moveTo point) ∨ element = .closePath ∨ element.draws = true := by
  cases element with
  | moveTo point => exact .inl ⟨point, rfl⟩
  | closePath => exact .inr (.inl rfl)
  | lineTo | quadTo | curveTo => exact .inr (.inr rfl)

section Drawing
variable {element : PathEl} (draws : element.draws = true)
include draws

variable {closed : Bool}

theorem subpathsFrom_draw {start : Point} {sub rest : List PathEl} :
    subpathsFrom start closed sub (element :: rest) =
      if closed then sub :: subpathsFrom start false [.moveTo start, element] rest
      else subpathsFrom start false (sub ++ [element]) rest := by
  cases element with
  | moveTo | closePath => cases draws
  | lineTo | quadTo | curveTo => cases closed <;> rfl

variable {rest : List PathEl}

theorem reopenings_draw :
    reopenings closed (element :: rest) = (if closed then 1 else 0) + reopenings false rest := by
  cases element with
  | moveTo | closePath => cases draws
  | lineTo | quadTo | curveTo => rfl

theorem fine_draw : Fine closed (element :: rest) ↔ closed = false ∧ Fine false rest := by
  cases element with
  | moveTo | closePath => cases draws
  | lineTo | quadTo | curveTo => rfl

theorem moves_draw : moves (element :: rest) = moves rest := by
  cases element with
  | moveTo | closePath => cases draws
  | lineTo | quadTo | curveTo => rfl

theorem element_draw (self : Tracing) : ∃ points stop,
    Tracing.element maths self element = self.draw points stop := by
  cases element with
  | moveTo | closePath => cases draws
  | lineTo | quadTo | curveTo => exact ⟨_, _, rfl⟩

theorem draw_within (point : Point) : element ≠ .moveTo point := by
  rintro rfl
  cases draws

end Drawing

/-- A sub-path is done with when its elements have been seen. -/
structure Whole (maths : Maths A) (sub : List PathEl) : Prop where
  result : (traced maths sub).result = []
  points : (traced maths sub).active.points ≠ []
  closed : (traced maths sub).active.closed = true ↔ .closePath ∈ sub

variable {element : PathEl}

theorem element_result (self : Tracing) (within : ∀ point, element ≠ .moveTo point)
    (result : List Contour) : Tracing.element maths { self with result } element =
      { Tracing.element maths self element with result } := by
  cases element with
  | moveTo point => exact absurd rfl (within point)
  | lineTo point => rfl
  | quadTo control stop => rfl
  | curveTo first second stop => rfl
  | closePath =>
    unfold Tracing.element
    cases self.active.points.head? <;> rfl

theorem whole_first (point : Point) : Whole maths [.moveTo point] :=
  ⟨rfl, cons_ne_nil _ _, by simp [traced, Tracing.element]⟩

variable {sub : List PathEl}

theorem Whole.draw (whole : Whole maths sub)
    (draws : element.draws = true) : Whole maths (sub ++ [element]) := by
  have last := @traced_append A maths sub element
  obtain ⟨points, stop, drawn⟩ := @element_draw A maths element draws (traced maths sub)
  have open' : .closePath ≠ element := by
    rintro rfl
    cases draws
  refine ⟨?_, ?_, ?_⟩
  · rw [last, drawn]
    exact whole.result
  · rw [last, drawn]
    exact append_ne_nil_of_left_ne_nil whole.points _
  · rw [last, drawn, mem_append, mem_singleton, or_iff_left open']
    exact whole.closed

theorem element_close (self : Tracing) (some : self.active.points ≠ []) :
    ∃ points current, points ≠ [] ∧ Tracing.element maths self .closePath =
      { self with active := ⟨points, true⟩, current } := by
  obtain ⟨first, rest, points⟩ := exists_cons_of_ne_nil some
  unfold Tracing.element
  rw [points, head?_cons]
  refine ⟨_, first, ?_, rfl⟩
  split
  · exact append_ne_nil_of_left_ne_nil (cons_ne_nil _ _) _
  · exact cons_ne_nil _ _

theorem Whole.close (whole : Whole maths sub) : Whole maths (sub ++ [.closePath]) := by
  obtain ⟨points, current, some, closed⟩ := @element_close A maths (traced maths sub) whole.points
  have last := (traced_append sub .closePath).trans closed
  refine ⟨?_, ?_, ?_⟩
  · rw [last]
    exact whole.result
  · rw [last]
    exact some
  · rw [last]
    exact iff_of_true rfl (mem_append_right _ (mem_singleton_self _))

theorem Whole.contours (whole : Whole maths sub) :
    contours maths sub = [(traced maths sub).active] := by
  change (if (traced maths sub).active.points ≠ [] then (traced maths sub).result ++ _ else _) = _
  rw [if_pos whole.points, whole.result, nil_append]
  rfl

variable {closed : Bool}

/-- Where nothing is, the loop does for each sub-path what it does for it alone. -/
theorem contours_subpaths {rest sub : List PathEl} (fine : Fine closed rest)
    (whole : Whole maths sub) (start : Point) (done : List Contour) :
    (rest.foldl (Tracing.element maths) { traced maths sub with result := done }).finish =
        done ++ (subpathsFrom start closed sub rest).map (fun sub => (traced maths sub).active) ∧
      ∀ other ∈ subpathsFrom start closed sub rest, Whole maths other := by
  induction rest generalizing closed sub start done with
  | nil =>
    refine ⟨if_pos whole.points, fun other member => ?_⟩
    rw [mem_singleton.mp member]
    exact whole
  | cons element rest ih =>
    rw [foldl_cons]
    have within (inside : ∀ point, element ≠ .moveTo point) :
        Tracing.element maths { traced maths sub with result := done } element =
          { traced maths (sub ++ [element]) with result := done } := by
      rw [element_result _ inside, traced_append]
    rcases element_kinds element with ⟨point, rfl⟩ | rfl | draws
    · have next : Tracing.element maths { traced maths sub with result := done } (.moveTo point) =
          { traced maths [.moveTo point] with result := done ++ [(traced maths sub).active] } := by
        unfold Tracing.element Tracing.finish
        rw [if_pos whole.points]
        rfl
      obtain ⟨same, wholes⟩ := ih fine (whole_first point) point (done ++ [(traced maths sub).active])
      refine ⟨?_, fun other member => ?_⟩
      · rw [next, same, append_assoc]
        rfl
      · rcases mem_cons.mp member with rfl | member
        · exact whole
        · exact wholes other member
    · rw [within nofun]
      exact ih fine whole.close start done
    · obtain ⟨rfl, later⟩ := (fine_draw draws).mp fine
      rw [within (draw_within draws), subpathsFrom_draw draws]
      exact ih later (whole.draw draws) start done

/-! How many there are. -/

variable {rest : List PathEl}

theorem contours_length (self : Tracing) (some : self.active.points ≠ []) :
    (rest.foldl (Tracing.element maths) self).finish.length =
      self.result.length + 1 + moves rest := by
  induction rest generalizing self with
  | nil =>
    unfold Tracing.finish
    rw [foldl_nil, if_pos some, length_append]
    rfl
  | cons element rest ih =>
    rw [foldl_cons]
    rcases element_kinds element with ⟨point, rfl⟩ | rfl | draws
    · rw [ih _ (cons_ne_nil _ _)]
      change self.finish.length + 1 + moves rest = _
      unfold Tracing.finish
      rw [if_pos some, length_append]
      simp [moves]
      omega
    · obtain ⟨points, current, some', closed⟩ := @element_close A maths self some
      rw [closed]
      exact ih _ some'
    · obtain ⟨points, stop, drawn⟩ := @element_draw A maths element draws self
      rw [drawn, moves_draw draws]
      exact ih _ (append_ne_nil_of_left_ne_nil some _)

theorem subpathsFrom_length (start : Point) (closed : Bool) (sub rest : List PathEl) :
    (subpathsFrom start closed sub rest).length = 1 + moves rest + reopenings closed rest := by
  induction rest generalizing start closed sub with
  | nil => rfl
  | cons element rest ih =>
    rcases element_kinds element with ⟨point, rfl⟩ | rfl | draws
    · change (subpathsFrom point false [.moveTo point] rest).length + 1 = _
      rw [ih]
      simp [moves, reopenings]
      omega
    · change (subpathsFrom start true _ rest).length = _
      rw [ih]
      simp [moves, reopenings]
    · rw [subpathsFrom_draw draws, reopenings_draw draws, moves_draw draws]
      cases closed with
      | false =>
        rw [if_neg Bool.false_ne_true, if_neg Bool.false_ne_true, ih]
        omega
      | true =>
        rw [if_pos rfl, if_pos rfl, length_cons, ih]
        omega

/-- Where there are as many sub-paths as contours, nothing is drawn on. -/
theorem fine_of_reopenings (none : reopenings closed rest = 0) : Fine closed rest := by
  induction rest generalizing closed with
  | nil => trivial
  | cons element rest ih =>
    rcases element_kinds element with ⟨point, rfl⟩ | rfl | draws
    · exact ih none
    · exact ih none
    · rw [reopenings_draw draws] at none
      rw [fine_draw draws]
      cases closed with
      | false => exact ⟨rfl, ih (by simpa using none)⟩
      | true => exact absurd none (by simp)

theorem drawsOn_cons : DrawsOn (element :: rest) ↔
    (element = .closePath ∧ ∃ next ∈ rest.head?, next.draws = true) ∨ DrawsOn rest := by
  constructor
  · rintro ⟨front, next, back, split, draws⟩
    cases front with
    | nil =>
      obtain ⟨rfl, rfl⟩ := List.cons.inj split
      exact .inl ⟨rfl, next, rfl, draws⟩
    | cons first front =>
      obtain ⟨rfl, rfl⟩ := List.cons.inj split
      exact .inr ⟨front, next, back, rfl, draws⟩
  · rintro (⟨rfl, next, first, draws⟩ | ⟨front, next, back, rfl, draws⟩)
    · cases rest with
      | nil => cases first
      | cons other back =>
        obtain rfl := Option.some.inj first
        exact ⟨[], other, back, rfl, draws⟩
    · exact ⟨element :: front, next, back, rfl, draws⟩

theorem fine_iff {path : List PathEl} : Fine closed path ↔
    ¬ DrawsOn path ∧ (closed = true → ¬ ∃ next ∈ path.head?, next.draws = true) := by
  induction path generalizing closed with
  | nil =>
    refine iff_of_true trivial ⟨?_, fun _ => by simp⟩
    rintro ⟨front, _, _, split, _⟩
    cases front <;> cases split
  | cons element rest ih =>
    rw [drawsOn_cons]
    rcases element_kinds element with ⟨point, rfl⟩ | rfl | draws
    · change Fine false rest ↔ _
      rw [ih]
      simp [PathEl.draws]
    · change Fine true rest ↔ _
      rw [ih]
      simp [PathEl.draws]
      tauto
    · rw [fine_draw draws, ih]
      have other : element ≠ .closePath := by
        rintro rfl
        cases draws
      simp [draws, other]
      tauto

/-! Hit testing. -/

theorem Tally.plus_assoc (a b c : Tally) : (a.plus b).plus c = a.plus (b.plus c) := by
  simp [Tally.plus, Int.add_assoc, Nat.add_assoc]

theorem Tally.zero_plus (a : Tally) : Tally.plus {} a = a := by simp [Tally.plus]

section
variable {B : Type} {step : Tally → B → Option Tally}
  (adds : ∀ self item, step self item = (step {} item).map self.plus) (items : List B)
include adds items

theorem foldlM_plus (self : Tally) : items.foldlM step self =
      (Tally.sum (items.map (step {}))).map self.plus := by
  induction items generalizing self with
  | nil => simp [Tally.sum, Tally.plus]
  | cons item items ih =>
    rw [foldlM_cons, adds self, map_cons, Tally.sum]
    cases step {} item with
    | none => rfl
    | some tally =>
      change items.foldlM step (self.plus tally) = _
      rw [ih]
      cases Tally.sum (items.map (step {})) with
      | none => rfl
      | some rest => exact congrArg some (Tally.plus_assoc self tally rest)

theorem sum_plus : items.foldlM step {} = Tally.sum (items.map (step {})) := by
  rw [foldlM_plus adds, show Tally.plus {} = id from funext Tally.zero_plus, Option.map_id, id]

end

theorem edge_adds (point : Point) (self : Tally) (edge : Point × Point) :
    Tally.edge maths point self edge = (Tally.edge maths point {} edge).map self.plus := by
  unfold Tally.edge Tally.plus
  dsimp only
  split
  · rfl
  · split
    · split
      · simp
      · simp
    · simp

theorem tally_sum (path : List PathEl) (point : Point) : tally maths path point =
    Tally.sum ((contours maths path).map fun contour =>
      contour.edges.foldlM (Tally.edge maths point) {}) := by
  refine sum_plus (fun self contour => ?_) _
  rw [foldlM_plus (edge_adds point), sum_plus (edge_adds point)]

theorem containsStroke_iff {dashedPieces : Dashing} {path : List PathEl} {point : Point}
    {state : DrawState} : containsStroke maths dashedPieces path point state = .ok true ↔
      state.stroke = .ok () ∧
        ∃ contour ∈ contours maths path, contour.contains maths dashedPieces point state = true := by
  unfold containsStroke
  cases state.stroke with
  | error error => simp [bind, Except.bind]
  | ok _ => simp [bind, Except.bind, pure, Except.pure]

theorem subpaths_contours {path : Path} (begun : path.Begun) (fine : ¬ DrawsOn path.path) :
    contours maths path.path =
        (subpaths path.path).map (fun sub => (traced maths sub).active) ∧
      ∀ sub ∈ subpaths path.path, Whole maths sub := by
  rcases begun with ⟨_, none⟩ | ⟨_, _, point, rest, some⟩
  · rw [none]
    exact ⟨rfl, nofun⟩
  · rw [some] at fine ⊢
    have fine : Fine false rest := (@fine_iff false (.moveTo point :: rest)).mpr ⟨fine, nofun⟩
    exact contours_subpaths fine (whole_first point) point []

theorem respects_of_fine {path : Path} (begun : path.Begun) (fine : ¬ DrawsOn path.path) :
    Respects maths path.path := by
  obtain ⟨same, whole⟩ := @subpaths_contours A maths path begun fine
  have alone (sub : List PathEl) (member : sub ∈ subpaths path.path) :=
    (whole sub member).contours
  refine ⟨?_, ?_, fun dashedPieces point state => ?_, fun point => ?_⟩
  · rw [same, map_map]
    exact map_congr_left fun sub member => (alone sub member).symm
  · rw [same, List.forall₂_map_left_iff, List.forall₂_same]
    exact fun sub member => (whole sub member).closed
  · rw [containsStroke_iff, same]
    constructor
    · rintro ⟨accepted, contour, member, contains⟩
      obtain ⟨sub, inside, rfl⟩ := mem_map.mp member
      refine ⟨sub, inside, containsStroke_iff.mpr ⟨accepted, _, ?_, contains⟩⟩
      rw [alone sub inside]
      exact mem_singleton_self _
    · rintro ⟨sub, inside, contains⟩
      obtain ⟨accepted, contour, member, contains⟩ := containsStroke_iff.mp contains
      rw [alone sub inside, mem_singleton] at member
      exact ⟨accepted, contour, mem_map.mpr ⟨sub, inside, member.symm⟩, contains⟩
  · rw [tally_sum, same, map_map]
    congr 1
    refine map_congr_left fun sub member => ?_
    have single (tally : Option Tally) : Tally.sum [tally] = tally := by
      cases tally with
      | none => rfl
      | some tally => simp [Tally.sum, Tally.plus]
    rw [tally_sum, alone sub member, map_singleton, single]
    rfl

/-- Hit testing tells the sub-paths of a path apart unless something is drawn behind a closed
one. -/
theorem respects_iff {path : Path} (built : Built maths path) :
    Respects maths path.path ↔ ¬ DrawsOn path.path := by
  refine ⟨fun respects => ?_, respects_of_fine built.begun⟩
  rcases built.begun with ⟨_, none⟩ | ⟨_, _, point, rest, some⟩
  · rw [none]
    rintro ⟨front, _, _, split, _⟩
    cases front <;> cases split
  · have lengths := congrArg List.length respects.contours
    rw [length_map, length_map, some] at lengths
    have traced : (contours maths (.moveTo point :: rest)).length = 0 + 1 + moves rest :=
      contours_length (Tracing.element maths {} (.moveTo point)) (cons_ne_nil _ _)
    have apart : (subpaths (.moveTo point :: rest)).length = 1 + moves rest + reopenings false rest :=
      subpathsFrom_length point false _ rest
    have fine : Fine false rest := fine_of_reopenings (by omega)
    rw [some]
    exact (@fine_iff false (.moveTo point :: rest)).mp fine |>.1

/-- Maths without a transform, for lines. -/
def plain : Maths Unit where
  sqrt := Float.sqrt
  sin := Float.sin
  cos := Float.cos
  tan := Float.tan
  acos := Float.acos
  atan2 := Float.atan2
  remEuclid a b := a - b * (a / b).floor
  ceil a := a.ceil.toUInt64.toNat
  least a b := if b < a then b else a
  greatest a b := if a < b then b else a
  pi := 3.141592653589793
  apply _ point := point
  compose _ _ := ()
  translate _ _ := ()
  rotate _ := ()
  scale _ _ := ()
  determinant _ := 1
  inverse _ := ()

/-- A square, closed. -/
def square : Path :=
  ⟨[.moveTo ⟨0, 0⟩, .lineTo ⟨1, 0⟩, .lineTo ⟨1, 1⟩, .lineTo ⟨0, 1⟩, .closePath],
    some ⟨0, 0⟩, some ⟨0, 0⟩⟩

theorem square_built : Built plain square := by
  have done : Path.command plain {} .rect [0, 0, 1, 1] () = .ok (some square) := by decide
  exact .command .new done

theorem square_respects : Respects plain square.path :=
  (respects_iff square_built).mpr ((@fine_iff false square.path).mp ⟨rfl, rfl, rfl, trivial⟩).1

/-- A line behind a square, from its corner. -/
def flag : Path := square.lineTo ⟨5, 5⟩

theorem flag_built : Built plain flag := by
  have done : Path.command plain square .lineTo [5, 5] () = .ok (some flag) := by decide
  exact .command square_built done

theorem flag_merged : ¬ ∀ path : Path, Built plain path → Respects plain path.path := by
  intro respects
  have lengths := congrArg List.length (respects flag flag_built).contours
  have merged : (contours plain flag.path).length = 1 := by decide
  have apart : (subpaths flag.path).length = 2 := by decide
  cases lengths

end Chuzz.Canvas2D.Paths
