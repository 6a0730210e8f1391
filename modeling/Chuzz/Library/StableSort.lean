import Mathlib

/-! Stable insertion of new elements behind a sorted list. Sorting the
concatenation leaves the old list as a prefix exactly when no new element sorts
before an old one. What is found first in a sorted list has the least key, and of
equal keys the first place. -/
namespace Library.StableSort
open List
variable {α : Type*} {r : α → α → Prop} [DecidableRel r]

theorem insertionSort_append {old new : List α} (sorted : old.Pairwise r)
    (behind : ∀ a ∈ old, ∀ b ∈ new, r a b) :
    (old ++ new).insertionSort r = old ++ new.insertionSort r := by
  induction old with
  | nil => rfl
  | cons a rest ih =>
    obtain ⟨first, sorted⟩ := pairwise_cons.mp sorted
    have tail := ih sorted (fun x hx => behind x (mem_cons_of_mem _ hx))
    have least : ∀ b ∈ rest ++ new.insertionSort r, r a b := by
      intro b hb
      rcases mem_append.mp hb with hb | hb
      · exact first b hb
      · exact behind a mem_cons_self b ((mem_insertionSort r).mp hb)
    rw [cons_append, insertionSort_cons, tail]
    cases h : rest ++ new.insertionSort r with
    | nil => simp [h]
    | cons b _ => rw [orderedInsert_cons_of_le _ _ (least b (by simp [h])), cons_append, h]

theorem prefix_insertionSort_iff [Std.Total r] [IsTrans α r] {old new : List α}
    (sorted : old.Pairwise r) :
    old <+: (old ++ new).insertionSort r ↔ ∀ a ∈ old, ∀ b ∈ new, r a b := by
  constructor
  · rintro ⟨rest, same⟩ a ha b hb
    have ordered := pairwise_insertionSort r (old ++ new)
    rw [← same] at ordered
    have permuted : (old ++ rest).Perm (old ++ new) := same ▸ perm_insertionSort r (old ++ new)
    have member := ((perm_append_left_iff old).mp permuted).mem_iff.mpr hb
    exact (pairwise_append.mp ordered).2.2 a ha b member
  · intro behind
    rw [insertionSort_append sorted behind]
    exact prefix_append _ _

variable {κ : Type*} [LinearOrder κ]

/-- What is found first behind the insertion of one element. -/
theorem find?_orderedInsert {key : α → κ} {found : α → Bool} {x : α} {sorted : List α}
    (ordered : sorted.Pairwise fun a b => key a ≤ key b) :
    (sorted.orderedInsert (fun a b => key a ≤ key b) x).find? found =
      if found x then
        match sorted.find? found with
        | none => some x
        | some a => if key x ≤ key a then some x else some a
      else sorted.find? found := by
  induction sorted with
  | nil => cases h : found x <;> simp [h]
  | cons b rest ih =>
    obtain ⟨least, ordered⟩ := pairwise_cons.mp ordered
    by_cases first : key x ≤ key b
    · rw [orderedInsert_cons, if_pos first, find?_cons]
      cases passes : found x with
      | false => rfl
      | true =>
        cases present : (b :: rest).find? found with
        | none => rfl
        | some a =>
          have behind : key b ≤ key a := by
            rcases mem_cons.mp (mem_of_find?_eq_some present) with rfl | later
            · exact le_rfl
            · exact least a later
          simp [first.trans behind]
    · rw [orderedInsert_cons, if_neg first, find?_cons, find?_cons, ih ordered]
      cases here : found b with
      | false => rfl
      | true =>
        cases found x with
        | false => rfl
        | true => simp [first]

/-- The first element that is found in a sorted list: the least key, and of equal keys the first
place in the list that was sorted. -/
theorem find?_insertionSort {key : α → κ} {found : α → Bool} {l : List α} {a : α}
    (first : (l.insertionSort fun a b => key a ≤ key b).find? found = some a) :
    ∃ i : ℕ, l[i]? = some a ∧ ∀ (j : ℕ) b, l[j]? = some b → found b →
      key a < key b ∨ key a = key b ∧ i ≤ j := by
  induction l generalizing a with
  | nil => cases first
  | cons x rest ih =>
    rw [insertionSort_cons, find?_orderedInsert (pairwise_insertionSort _ rest)] at first
    have keep (later : (rest.insertionSort fun a b => key a ≤ key b).find? found = some a)
        (behind : found x → key a < key x) : ∃ i : ℕ, (x :: rest)[i]? = some a ∧
        ∀ (j : ℕ) b, (x :: rest)[j]? = some b → found b → key a < key b ∨ key a = key b ∧ i ≤ j := by
      obtain ⟨i, held, least⟩ := ih later
      refine ⟨i + 1, held, fun j b inside passes => ?_⟩
      cases j with
      | zero =>
        cases inside
        exact .inl (behind passes)
      | succ j =>
        rcases least j b inside passes with less | ⟨same, before⟩
        · exact .inl less
        · exact .inr ⟨same, Nat.succ_le_succ before⟩
    by_cases passes : found x
    · rw [if_pos passes] at first
      cases later : (rest.insertionSort fun a b => key a ≤ key b).find? found with
      | none =>
        rw [later] at first
        cases first
        refine ⟨0, rfl, fun j b inside passes' => ?_⟩
        cases j with
        | zero =>
          cases inside
          exact .inr ⟨rfl, le_rfl⟩
        | succ j =>
          have member : b ∈ rest := mem_of_getElem? inside
          have member := (mem_insertionSort fun a b => key a ≤ key b).mpr member
          exact absurd passes' (find?_eq_none.mp later b member)
      | some first' =>
        rw [later] at first
        dsimp only at first
        split at first
        · rename_i before
          cases first
          obtain ⟨i, _, least⟩ := ih later
          refine ⟨0, rfl, fun j b inside passes' => ?_⟩
          cases j with
          | zero =>
            cases inside
            exact .inr ⟨rfl, le_rfl⟩
          | succ j =>
            have most : key x ≤ key b := by
              rcases least j b inside passes' with less | ⟨same, _⟩
              · exact before.trans less.le
              · exact before.trans same.le
            rcases most.lt_or_eq with less | same
            · exact .inl less
            · exact .inr ⟨same, Nat.zero_le _⟩
        · rename_i behind
          rw [Option.some.inj first] at later behind
          exact keep later fun _ => not_le.mp behind
    · rw [if_neg passes] at first
      exact keep first fun passes' => absurd passes' passes

end Library.StableSort
