import Mathlib

/-! The values of an extensional tree map, in ascending order of their keys, and
how inserting or erasing one entry changes them. Lookups say what the list
contains; permutations carry over to sums and to any other measure that does
not depend on the order. -/
namespace Library.TreeMapValues
open Std List ExtTreeMap
variable {V : Type*}

def values (m : ExtTreeMap Nat V) : List V := m.toList.map Prod.snd

variable {m : ExtTreeMap Nat V}

theorem mem_values {v : V} : v ∈ values m ↔ ∃ k : Nat, m[k]? = some v := by
  simp [values, mem_toList_iff_getElem?_eq_some]

theorem toList_nodup (m : ExtTreeMap Nat V) : m.toList.Nodup := by
  refine List.Pairwise.imp ?_ (distinct_keys_toList (t := m))
  intro a b distinct same
  exact distinct (by simp [same])

theorem perm_of_getElem? {l : List (Nat × V)} (m : ExtTreeMap Nat V) (nodup : l.Nodup)
    (same : ∀ k v, (k, v) ∈ l ↔ m[k]? = some v) : m.toList.Perm l := by
  apply (perm_ext_iff_of_nodup (toList_nodup m) nodup).mpr
  rintro ⟨k, v⟩
  rw [same k v, mem_toList_iff_getElem?_eq_some]

theorem not_mem_erase (m : ExtTreeMap Nat V) (k : Nat) (v : V) : (k, v) ∉ (m.erase k).toList := by
  simp [mem_toList_iff_getElem?_eq_some]

theorem toList_insert (m : ExtTreeMap Nat V) (k : Nat) (v : V) :
    (m.insert k v).toList.Perm ((k, v) :: (m.erase k).toList) := by
  apply perm_of_getElem? _ (List.nodup_cons.mpr ⟨not_mem_erase m k v, toList_nodup _⟩)
  intro k' v'
  rw [List.mem_cons, ExtTreeMap.mem_toList_iff_getElem?_eq_some, ExtTreeMap.getElem?_insert,
    ExtTreeMap.getElem?_erase]
  by_cases h : k = k'
  · subst h
    simp [eq_comm]
  · simp [h, Ne.symm h]

theorem toList_erase (present : m[k]? = some v) : m.toList.Perm ((k, v) :: (m.erase k).toList) := by
  apply perm_of_getElem? _ (nodup_cons.mpr ⟨not_mem_erase m k v, toList_nodup _⟩)
  intro k' v'
  rw [mem_cons, mem_toList_iff_getElem?_eq_some, getElem?_erase]
  by_cases h : k = k'
  · subst h
    simp [present, eq_comm]
  · simp [h, Ne.symm h]

theorem values_insert (m : ExtTreeMap Nat V) (k : Nat) (v : V) :
    (values (m.insert k v)).Perm (v :: values (m.erase k)) :=
  (toList_insert m k v).map Prod.snd

theorem values_erase (present : m[k]? = some v) : (values m).Perm (v :: values (m.erase k)) :=
  (toList_erase present).map Prod.snd

theorem erase_of_absent (absent : m[k]? = none) : m.erase k = m := by
  apply ExtTreeMap.ext_getElem?
  intro k'
  rw [getElem?_erase]
  by_cases h : k = k'
  · subst h
    simp [absent]
  · simp [h]

theorem insert_same (present : m[k]? = some v) : m.insert k v = m := by
  apply ExtTreeMap.ext_getElem?
  intro k'
  rw [ExtTreeMap.getElem?_insert]
  by_cases h : k = k'
  · subst h
    simp [present]
  · simp [h]

/-- Putting the old value back undoes an insertion. -/
theorem insert_restore (present : m[k]? = some v) (w : V) : (m.insert k w).insert k v = m := by
  apply ExtTreeMap.ext_getElem?
  intro k'
  rw [ExtTreeMap.getElem?_insert, ExtTreeMap.getElem?_insert]
  by_cases h : k = k'
  · subst h
    simp [present]
  · simp [h]

theorem values_map {W : Type*} (f : V → W) (m : ExtTreeMap Nat V) :
    values (m.map fun _ v => f v) = (values m).map f := by
  simp only [values, ExtTreeMap.toList_map, List.map_map]
  rfl

def total (f : V → Nat) (m : ExtTreeMap Nat V) : Nat := ((values m).map f).sum

theorem total_insert (f : V → Nat) (m : ExtTreeMap Nat V) (k : Nat) (v : V) :
    total f (m.insert k v) = f v + total f (m.erase k) := by
  simp only [total, ((values_insert m k v).map f).sum_eq, map_cons, sum_cons]

theorem total_erase (f : V → Nat) (present : m[k]? = some v) :
    total f m = f v + total f (m.erase k) := by
  simp only [total, ((values_erase present).map f).sum_eq, map_cons, sum_cons]

theorem total_erase_le (f : V → Nat) (m : ExtTreeMap Nat V) (k : Nat) :
    total f (m.erase k) ≤ total f m := by
  cases h : m[k]? with
  | none => exact Nat.le_of_eq (congrArg (total f) (erase_of_absent h))
  | some v => exact (total_erase f h).symm ▸ Nat.le_add_left _ _

end Library.TreeMapValues
