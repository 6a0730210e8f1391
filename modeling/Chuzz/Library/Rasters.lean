import Mathlib

/-! Rasters: lists that hold the rows of a rectangle one after the other. -/
namespace Library.Rasters
open List
universe u
variable {α : Type u} {width height : Nat}

/-- The rows of a rectangle, from a value for each column and row. -/
def rows (width height : Nat) (value : Nat → Nat → α) : List α :=
  (List.range height).flatMap fun y => (List.range width).map fun x => value x y

/-- Every place of the list is overwritten in turn. -/
def writes (list : List α) (places : List (Nat × α)) : List α :=
  places.foldl (fun list place => list.set place.1 place.2) list

theorem rows_succ (value : Nat → Nat → α) : rows width (height + 1) value =
    rows width height value ++ (List.range width).map fun x => value x height := by
  rw [rows, range_succ, flatMap_append, flatMap_singleton]
  rfl

@[simp] theorem rows_length (value : Nat → Nat → α) :
    (rows width height value).length = width * height := by
  induction height with
  | zero => rfl
  | succ height ih =>
    rw [rows_succ, length_append, ih, length_map, length_range, Nat.mul_succ]

theorem rows_getElem? {x y : Nat} (value : Nat → Nat → α) (column : x < width) (row : y < height) :
    (rows width height value)[y * width + x]? = some (value x y) := by
  induction height with
  | zero => exact absurd row (Nat.not_lt_zero y)
  | succ height ih =>
    rw [rows_succ]
    rcases Nat.lt_succ_iff_lt_or_eq.mp row with before | rfl
    · have inside : y * width + x < width * height := by
        have steps := Nat.mul_le_mul_right width (Nat.succ_le_of_lt before)
        rw [Nat.succ_mul, Nat.mul_comm height] at steps
        omega
      rw [getElem?_append_left (by rwa [rows_length])]
      exact ih before
    · rw [getElem?_append_right (by rw [rows_length, Nat.mul_comm]; omega), rows_length,
        Nat.mul_comm y, Nat.add_sub_cancel_left, getElem?_map, getElem?_range column]
      rfl

theorem rows_getD {x y : Nat} (value : Nat → Nat → α) (column : x < width) (row : y < height)
    (default : α) : (rows width height value).getD (y * width + x) default = value x y := by
  rw [getD_eq_getElem?_getD, rows_getElem? value column row]
  rfl

theorem mem_rows {value : Nat → Nat → α} {item : α} : item ∈ rows width height value ↔
    ∃ x y, x < width ∧ y < height ∧ value x y = item := by
  rw [rows, mem_flatMap]
  constructor
  · rintro ⟨y, row, member⟩
    obtain ⟨x, column, same⟩ := mem_map.mp member
    exact ⟨x, y, mem_range.mp column, mem_range.mp row, same⟩
  · rintro ⟨x, y, column, row, same⟩
    exact ⟨y, mem_range.mpr row, mem_map.mpr ⟨x, mem_range.mpr column, same⟩⟩

/-- Two places of a rectangle are the same in the list only if they are the same. -/
theorem place_inj {x y x' y' : Nat} (column : x < width) (column' : x' < width)
    (same : y * width + x = y' * width + x') : x = x' ∧ y = y' := by
  have positive : 0 < width := Nat.zero_lt_of_lt column
  have rows : (y * width + x) / width = y := by
    rw [Nat.add_comm, Nat.add_mul_div_right _ _ positive, Nat.div_eq_of_lt column, Nat.zero_add]
  have rows' : (y' * width + x') / width = y' := by
    rw [Nat.add_comm, Nat.add_mul_div_right _ _ positive, Nat.div_eq_of_lt column', Nat.zero_add]
  obtain rfl : y = y' := by rw [← rows, same, rows']
  exact ⟨by omega, rfl⟩

theorem place_lt {x y : Nat} (column : x < width) (row : y < height) :
    y * width + x < width * height := by
  have steps := Nat.mul_le_mul_right width (Nat.succ_le_of_lt row)
  rw [Nat.succ_mul, Nat.mul_comm height] at steps
  omega

variable {places : List (Nat × α)}

theorem writes_other {list : List α} {index : Nat}
    (other : ∀ place ∈ places, place.1 ≠ index) : (writes list places)[index]? = list[index]? := by
  induction places generalizing list with
  | nil => rfl
  | cons place rest ih =>
    rw [writes, foldl_cons, ← writes, ih fun place member => other place (.tail _ member),
      getElem?_set_ne (other place (.head _))]

/-- What is written to a place, if it is the same each time. -/
theorem writes_here {list : List α} {index : Nat} {value : α}
    (inside : index < list.length) (member : (index, value) ∈ places)
    (same : ∀ place ∈ places, place.1 = index → place.2 = value) :
    (writes list places)[index]? = some value := by
  induction places generalizing list with
  | nil => cases member
  | cons place rest ih =>
    rw [writes, foldl_cons, ← writes]
    by_cases later : (index, value) ∈ rest
    · exact ih (by rwa [length_set]) later fun place member => same place (.tail _ member)
    · have here : place = (index, value) := by
        rcases mem_cons.mp member with rfl | other
        · rfl
        · exact absurd other later
      rw [writes_other, here, getElem?_set_self inside]
      intro other place index
      apply later
      rw [← index, ← same other (.tail _ place) index]
      exact place

end Library.Rasters

/-! Operators on fields of values that look at each place no further than a distance. Run one after
the other they look no further than the sum of their distances, so that a part of a field that is
large enough decides what comes out in the middle of it. -/
namespace Library.Locality
universe u v w x y
variable {P : Type u} {D : Type v} {A : Type w} {B : Type x} {C : Type y}

/-- Which places are within a distance of a place. -/
class Nearness (D : Type v) (P : outParam (Type u)) [AddCommMonoid D] [LE D] where
  near : D → P → P → Prop
  near_self : ∀ place, near 0 place place
  near_add : ∀ {first second place middle other}, near first place middle →
    near second middle other → near (first + second) place other
  near_mono : ∀ {first second place other}, first ≤ second → near first place other →
    near second place other

variable [AddCommMonoid D] [LE D] [Nearness D P]

/-- What the operator gives at a place is decided within the distance of it. -/
def Local (distance : D) (operator : (P → A) → P → B) : Prop :=
  ∀ (first second : P → A) (place : P),
    (∀ other, Nearness.near distance place other → first other = second other) →
      operator first place = operator second place

namespace Local
variable {distance further : D} {operator : (P → A) → P → B}

theorem mono (local_ : Local distance operator) (longer : distance ≤ further) :
    Local further operator := fun first second place same =>
  local_ first second place fun other near => same other (Nearness.near_mono longer near)

/-- An operator that looks at nothing but the place. -/
theorem pointwise (change : A → B) : Local (0 : D) fun (field : P → A) place => change (field place) :=
  fun _ _ place same => congrArg change (same place (Nearness.near_self place))

theorem id : Local (0 : D) fun (field : P → A) => field := pointwise fun value => value

theorem comp {after : (P → B) → P → C} (outer : Local distance after)
    (inner : Local further operator) :
    Local (distance + further) fun field => after (operator field) := by
  intro first second place same
  apply outer
  intro middle near
  apply inner
  intro other nearer
  exact same other (Nearness.near_add near nearer)

/-- A list of operators run one after the other. -/
theorem chain {I : Type*} {run : I → (P → A) → P → A} {reach : I → D} (items : List I)
    (each : ∀ item ∈ items, Local (reach item) (run item)) :
    Local (items.map reach).sum fun field =>
      items.foldl (fun field item => run item field) field := by
  induction items with
  | nil => exact id
  | cons item rest ih =>
    rw [List.map_cons, List.sum_cons, add_comm]
    exact (ih fun item member => each item (.tail _ member)).comp (each item (.head _))

end Local

end Library.Locality
