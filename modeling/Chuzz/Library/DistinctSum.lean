import Mathlib

/-! Sums over a list in which each key counts once, whichever element carries it
first. When equal keys mean equal elements such a sum is one over a finite set,
so it does not depend on order or repetition and grows with the list. -/
namespace Library.DistinctSum
variable {A K : Type*} {key : A → K} {weight : A → Nat}

def distinctSum [DecidableEq K] (key : A → K) (weight : A → Nat) : (seen : List K) → List A → Nat
  | _, [] => 0
  | seen, item :: rest =>
    if key item ∈ seen then distinctSum key weight seen rest
    else weight item + distinctSum key weight (key item :: seen) rest

/-- The key says which element it is. -/
def Keyed (key : A → K) (items : List A) : Prop :=
  ∀ a ∈ items, ∀ b ∈ items, key a = key b → a = b

theorem Keyed.mono {items fewer : List A} (keyed : Keyed key items)
    (within : ∀ a ∈ fewer, a ∈ items) : Keyed key fewer :=
  fun a member b member' => keyed a (within a member) b (within b member')

variable [DecidableEq A] [DecidableEq K]

theorem distinctSum_unseen {items : List A} (keyed : Keyed key items) (seen : List K) :
    distinctSum key weight seen items =
      ∑ a ∈ items.toFinset.filter (key · ∉ seen), weight a := by
  induction items generalizing seen with
  | nil => rfl
  | cons item rest ih =>
    have tail : Keyed key rest := keyed.mono fun _ => List.mem_cons_of_mem _
    simp only [distinctSum, List.toFinset_cons, Finset.filter_insert]
    split
    · exact ih tail seen
    · have others : (insert item (rest.toFinset.filter (key · ∉ seen))) =
          insert item (rest.toFinset.filter (key · ∉ key item :: seen)) := by
        ext a
        simp only [Finset.mem_insert, Finset.mem_filter, List.mem_toFinset, List.mem_cons, not_or]
        constructor
        · rintro (rfl | ⟨member, unseen⟩)
          · exact .inl rfl
          · by_cases same : key a = key item
            · exact .inl (keyed a (List.mem_cons_of_mem _ member) item List.mem_cons_self same)
            · exact .inr ⟨member, same, unseen⟩
        · rintro (rfl | ⟨member, _, unseen⟩)
          · exact .inl rfl
          · exact .inr ⟨member, unseen⟩
      rw [others, Finset.sum_insert (by simp), ih tail]

theorem distinctSum_eq {items : List A} (keyed : Keyed key items) :
    distinctSum key weight [] items = ∑ a ∈ items.toFinset, weight a := by
  rw [distinctSum_unseen keyed]
  simp

theorem distinctSum_le {items fewer : List A} (keyed : Keyed key items)
    (within : ∀ a ∈ fewer, a ∈ items) :
    distinctSum key weight [] fewer ≤ distinctSum key weight [] items := by
  rw [distinctSum_eq keyed, distinctSum_eq (keyed.mono within)]
  refine Finset.sum_le_sum_of_subset fun a member => ?_
  simp only [List.mem_toFinset] at member ⊢
  exact within a member

/-- One more element, however often it occurs, adds its weight. -/
theorem distinctSum_insert {items more : List A} {new : A} (keyed : Keyed key more)
    (fresh : new ∉ items) (added : ∀ a, a ∈ more ↔ a = new ∨ a ∈ items) :
    distinctSum key weight [] more = weight new + distinctSum key weight [] items := by
  have within : ∀ a ∈ items, a ∈ more := fun a member => (added a).mpr (.inr member)
  have elements : more.toFinset = insert new items.toFinset := by
    ext a
    simp only [List.mem_toFinset, Finset.mem_insert, added]
  rw [distinctSum_eq keyed, distinctSum_eq (keyed.mono within), elements,
    Finset.sum_insert (by simpa using fresh)]

end Library.DistinctSum
