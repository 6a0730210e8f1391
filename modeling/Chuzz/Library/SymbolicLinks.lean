import Mathlib

/-! Trees of directories, files and symbolic links, and the walk that resolves a path in one.
Each directory and file has one canonical name, the list of its names from the root; a walk
that arrives anywhere arrives at a canonical name, and a canonical name resolves to itself. -/
namespace Library.SymbolicLinks
open List
variable {Name Contents : Type*}

/-- What one component of a path asks of the walk. -/
inductive Step (Name : Type*)
  | stay
  | up
  | down (name : Name)
deriving DecidableEq

/-- Where a path starts and how it goes on from there. -/
structure Route (Name : Type*) where
  absolute : Bool
  steps : List (Step Name)
deriving DecidableEq

inductive Entry (Name Contents : Type*)
  | directory
  | file (contents : Contents)
  | link (target : Route Name)

/-- What stands under each name, counted from the root. -/
abbrev Tree (Name Contents : Type*) := List Name → Option (Entry Name Contents)

inductive Progress (Name : Type*)
  | arrived (real : List Name)
  | missing
  | follow (here : List Name) (steps : List (Step Name))

/-- Where the walk stands, at its end or at a link. -/
def Progress.Stands (P : List Name → Prop) : Progress Name → Prop
  | arrived real => P real
  | missing => True
  | follow here _ => P here

/-- The walk up to its end or to the first link on its way. Every component, `.` and the
empty one too, asks for a directory to stand in. -/
def advance (tree : Tree Name Contents) (here : List Name) : List (Step Name) → Progress Name
  | [] => .arrived here
  | step :: rest =>
    match tree here with
    | some .directory =>
      match step with
      | .stay => advance tree here rest
      | .up => advance tree here.dropLast rest
      | .down name =>
        match tree (here ++ [name]) with
        | some (.link target) =>
          .follow (if target.absolute then [] else here) (target.steps ++ rest)
        | some _ => advance tree (here ++ [name]) rest
        | none => .missing
    | _ => .missing

/-- The walk with at most so many links followed. -/
def resolve (tree : Tree Name Contents) (links : Nat) (here : List Name)
    (steps : List (Step Name)) : Option (List Name) :=
  match advance tree here steps with
  | .arrived real => some real
  | .missing => none
  | .follow here steps =>
    match links with
    | 0 => none
    | links + 1 => resolve tree links here steps

/-- A canonical name: every name on it stands in a directory and is no link. -/
inductive Real (tree : Tree Name Contents) : List Name → Prop
  | root : Real tree []
  | child {here : List Name} {name : Name} {entry : Entry Name Contents} (real : Real tree here)
      (directory : tree here = some .directory) (stands : tree (here ++ [name]) = some entry)
      (plain : ∀ target, entry ≠ .link target) : Real tree (here ++ [name])

variable {tree : Tree Name Contents} {here real : List Name} {steps : List (Step Name)}

example (empty : tree [] = none) : resolve tree 0 [] [.up, .stay] = none := by
  rw [resolve.eq_def, SymbolicLinks.advance.eq_def, empty]

theorem Real.parent (standing : Real tree here) : Real tree here.dropLast := by
  cases standing with
  | root => exact .root
  | child parent => rwa [dropLast_concat]

/-- What a walk from a canonical name comes to is canonical, at its end and at a link. -/
theorem advance_real (standing : Real tree here) (steps : List (Step Name)) :
    (advance tree here steps).Stands (Real tree) := by
  induction steps generalizing here with
  | nil => exact standing
  | cons step rest ih =>
    rw [SymbolicLinks.advance.eq_def]
    cases directory : tree here with
    | none => trivial
    | some entry =>
      cases entry with
      | file contents => trivial
      | link target => trivial
      | directory =>
        cases step with
        | stay => exact ih standing
        | up => exact ih standing.parent
        | down name =>
          dsimp only
          cases stands : tree (here ++ [name]) with
          | none => trivial
          | some entry =>
            cases entry with
            | link target =>
              cases absolute : target.absolute with
              | false => simpa [Progress.Stands, absolute] using standing
              | true => simpa [Progress.Stands, absolute] using Real.root
            | directory => exact ih (.child standing directory stands (by simp))
            | file contents => exact ih (.child standing directory stands (by simp))

variable {links : Nat}

theorem resolve_real (standing : Real tree here)
    (arrives : resolve tree links here steps = some real) : Real tree real := by
  induction links generalizing here steps with
  | zero =>
    have kept := advance_real standing steps
    rw [resolve.eq_def] at arrives
    cases progress : advance tree here steps with
    | arrived last =>
      rw [progress] at arrives kept
      cases arrives
      exact kept
    | missing => simp [progress] at arrives
    | follow mid more => simp [progress] at arrives
  | succ links ih =>
    have kept := advance_real standing steps
    rw [resolve.eq_def] at arrives
    cases progress : advance tree here steps with
    | arrived last =>
      rw [progress] at arrives kept
      cases arrives
      exact kept
    | missing => simp [progress] at arrives
    | follow mid more =>
      rw [progress] at arrives kept
      exact ih kept arrives

theorem advance_append {mid : List Name} {more : List (Step Name)}
    (arrives : advance tree here steps = .arrived mid) :
    advance tree here (steps ++ more) = advance tree mid more := by
  induction steps generalizing here with
  | nil => cases arrives; rfl
  | cons step rest ih =>
    rw [cons_append, SymbolicLinks.advance.eq_def]
    rw [SymbolicLinks.advance.eq_def] at arrives
    dsimp only at arrives ⊢
    split at arrives
    next =>
      cases step with
      | stay => exact ih arrives
      | up => exact ih arrives
      | down name =>
        dsimp only at arrives ⊢
        split at arrives
        next => cases arrives
        next => exact ih arrives
        next => cases arrives
    next => cases arrives

/-- A canonical name is walked without a link. -/
theorem Real.advance (standing : Real tree real) :
    advance tree [] (real.map .down) = .arrived real := by
  induction standing with
  | root => rfl
  | @child here name entry _ directory stands plain ih =>
    rw [map_append, advance_append ih]
    cases entry with
    | link target => exact absurd rfl (plain target)
    | directory => simp [SymbolicLinks.advance, directory, stands]
    | file contents => simp [SymbolicLinks.advance, directory, stands]

/-- A walk that gets past its first component starts in a directory. -/
theorem resolve_directory {step : Step Name}
    (arrives : resolve tree links here (step :: steps) = some real) :
    tree here = some .directory := by
  rw [resolve.eq_def, SymbolicLinks.advance.eq_def] at arrives
  dsimp only at arrives
  split at arrives
  next arrived =>
    split at arrived
    next directory => exact directory
    next => cases arrived
  next => cases arrives
  next followed =>
    split at followed
    next directory => exact directory
    next => cases followed

theorem resolve_stay (directory : tree here = some .directory) :
    resolve tree links here (.stay :: steps) = resolve tree links here steps := by
  rw [resolve.eq_def, SymbolicLinks.advance.eq_def, directory, ← resolve.eq_def]

/-- Resolving is idempotent: what a walk from the root arrived at resolves to itself. -/
theorem resolve_resolved (arrives : resolve tree links [] steps = some real) (more : Nat) :
    resolve tree more [] (real.map .down) = some real := by
  have walked := (resolve_real .root arrives).advance
  rw [resolve.eq_def, walked]

theorem Real.rooted (standing : Real tree real) (below : real ≠ []) :
    tree [] = some .directory := by
  induction standing with
  | root => exact absurd rfl below
  | @child here _ _ _ directory _ _ ih =>
    cases here with
    | nil => exact directory
    | cons name rest => exact ih (cons_ne_nil _ _)

/-- A walk goes down only by the names it is asked for. -/
theorem advance_mem (arrives : advance tree here steps = .arrived real) :
    ∀ name ∈ real, name ∈ here ∨ .down name ∈ steps := by
  induction steps generalizing here with
  | nil =>
    cases arrives
    exact fun name member => .inl member
  | cons step rest ih =>
    rw [SymbolicLinks.advance.eq_def] at arrives
    dsimp only at arrives
    split at arrives
    next =>
      cases step with
      | stay => exact fun name member => (ih arrives name member).imp id (mem_cons_of_mem _)
      | up =>
        exact fun name member => (ih arrives name member).imp (fun inside => dropLast_subset _ inside)
          (mem_cons_of_mem _)
      | down next =>
        dsimp only at arrives
        split at arrives
        next => cases arrives
        next =>
          intro name member
          rcases ih arrives name member with inside | asked
          · rcases mem_append.mp inside with inside | last
            · exact .inl inside
            · exact .inr (mem_singleton.mp last ▸ mem_cons_self)
          · exact .inr (mem_cons_of_mem _ asked)
        next => cases arrives
    next => cases arrives

theorem advance_linkless (linkless : ∀ names target, tree names ≠ some (.link target))
    (more : List (Step Name)) : advance tree here steps ≠ .follow here' more := by
  induction steps generalizing here with
  | nil => nofun
  | cons step rest ih =>
    rw [SymbolicLinks.advance.eq_def]
    dsimp only
    split
    next =>
      cases step with
      | stay => exact ih
      | up => exact ih
      | down name =>
        dsimp only
        split
        next found => exact absurd found (linkless _ _)
        next => exact ih
        next => nofun
    next => nofun

theorem resolve_mem (linkless : ∀ names target, tree names ≠ some (.link target))
    (arrives : resolve tree links [] steps = some real) : ∀ name ∈ real, .down name ∈ steps := by
  rw [resolve.eq_def] at arrives
  split at arrives
  next arrived =>
    cases arrives
    exact fun name member => (advance_mem arrived name member).resolve_left (not_mem_nil)
  next => cases arrives
  next followed => exact absurd followed (advance_linkless linkless _)

end Library.SymbolicLinks
