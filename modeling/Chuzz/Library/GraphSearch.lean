import Mathlib

/-! Acyclic relations, and a worklist search that tells whether one more edge
would close a cycle. The fuel of the search only bounds its loop: with one unit
for each start and each edge, and one more, it is never used up. -/
namespace Library.GraphSearch
open Relation List
variable {V : Type*} {r : V → V → Prop}

def Acyclic (r : V → V → Prop) : Prop := ∀ x, ¬ TransGen r x x

theorem Acyclic.mono {smaller : V → V → Prop} (acyclic : Acyclic r)
    (within : ∀ x y, smaller x y → r x y) : Acyclic smaller :=
  fun x loop => acyclic x (TransGen.mono within x x loop)

/-- A path with one more edge either does not use it or goes through it. -/
theorem transGen_insert {a b x y : V}
    (path : TransGen (fun x y => r x y ∨ x = a ∧ y = b) x y) :
    TransGen r x y ∨ ReflTransGen r x a ∧ ReflTransGen r b y := by
  induction path with
  | single edge =>
    rcases edge with edge | ⟨rfl, rfl⟩
    · exact .inl (.single edge)
    · exact .inr ⟨.refl, .refl⟩
  | tail _ edge ih =>
    rcases ih with path | ⟨before, after⟩ <;> rcases edge with edge | ⟨rfl, rfl⟩
    · exact .inl (path.tail edge)
    · exact .inr ⟨path.to_reflTransGen, .refl⟩
    · exact .inr ⟨before, after.tail edge⟩
    · exact .inr ⟨before, .refl⟩

/-- An edge may be added when its end does not reach its start. -/
theorem Acyclic.insert {a b : V} (acyclic : Acyclic r) (apart : ¬ ReflTransGen r b a) :
    Acyclic fun x y => r x y ∨ x = a ∧ y = b := by
  intro x loop
  rcases transGen_insert loop with loop | ⟨before, after⟩
  · exact acyclic x loop
  · exact apart (after.trans before)

/-- The vertices along a chain are distinct. -/
theorem Acyclic.chain_nodup {path : List V} (acyclic : Acyclic r) (chain : path.IsChain r) :
    path.Nodup := by
  have far : path.IsChain (TransGen r) := chain.imp fun _ _ edge => .single edge
  refine far.pairwise.imp ?_
  rintro x _ loop rfl
  exact acyclic x loop

variable [DecidableEq V] {next : V → List V} {target : V}

/-- Depth-first search with a stack of pending vertices. -/
def search (next : V → List V) (target : V) :
    (fuel : Nat) → (pending visited : List V) → Option Bool
  | 0, _, _ => none
  | _ + 1, [], _ => some false
  | fuel + 1, id :: pending, visited =>
    if id = target then some true
    else if id ∈ visited then search next target fuel pending visited
    else search next target fuel ((next id).reverse ++ pending) (id :: visited)

variable {pending visited : List V}

/-- A vertex that the search has seen or will see never leads to the target. -/
theorem search_missed {fuel : Nat} (missed : search next target fuel pending visited = some false)
    (closed : ∀ v ∈ visited, v ≠ target ∧ ∀ w ∈ next v, w ∈ visited ∨ w ∈ pending) :
    ∀ start, start ∈ visited ∨ start ∈ pending →
      ¬ ReflTransGen (fun x y => y ∈ next x) start target := by
  induction fuel generalizing pending visited with
  | zero => contradiction
  | succ fuel ih =>
    match pending with
    | [] =>
      intro start seen path
      have stays : target ∈ visited := by
        induction path using ReflTransGen.head_induction_on with
        | refl => exact seen.resolve_right not_mem_nil
        | head edge _ ih' => exact ih' ((closed _ (seen.resolve_right not_mem_nil)).2 _ edge)
      exact (closed target stays).1 rfl
    | id :: pending =>
      simp only [search] at missed
      split at missed
      · contradiction
      · rename_i other
        split at missed
        · rename_i old
          intro start seen
          refine ih missed (fun v member => ⟨(closed v member).1, fun w edge => ?_⟩) start ?_
          · rcases (closed v member).2 w edge with seen | here
            · exact .inl seen
            · exact (mem_cons.mp here).elim (fun same => .inl (same ▸ old)) .inr
          · exact seen.elim .inl fun here =>
              (mem_cons.mp here).elim (fun same => .inl (same ▸ old)) .inr
        · intro start seen
          refine ih missed (fun v member => ?_) start ?_
          · rcases mem_cons.mp member with rfl | member
            · exact ⟨other, fun w edge =>
                .inr (mem_append_left _ (mem_reverse.mpr edge))⟩
            · refine ⟨(closed v member).1, fun w edge => ?_⟩
              rcases (closed v member).2 w edge with seen | here
              · exact .inl (mem_cons_of_mem _ seen)
              · rcases mem_cons.mp here with rfl | later
                · exact .inl mem_cons_self
                · exact .inr (mem_append_right _ later)
          · rcases seen with seen | here
            · exact .inl (mem_cons_of_mem _ seen)
            · rcases mem_cons.mp here with rfl | later
              · exact .inl mem_cons_self
              · exact .inr (mem_append_right _ later)

/-- The edges out of the vertices that are not visited yet. -/
def unseen (next : V → List V) (all visited : List V) : Nat :=
  ((all.filter (· ∉ visited)).map fun v => (next v).length).sum

theorem unseen_cons {all visited : List V} {id : V} (nodup : all.Nodup) (fresh : id ∉ visited)
    (known : id ∉ all → next id = []) :
    unseen next all (id :: visited) + (next id).length = unseen next all visited := by
  induction all with
  | nil => simp [unseen, known]
  | cons v rest ih =>
    obtain ⟨apart, nodup⟩ := nodup_cons.mp nodup
    by_cases same : v = id
    · subst same
      have others : rest.filter (· ∉ v :: visited) = rest.filter (· ∉ visited) := by
        refine filter_congr fun w member => ?_
        have other : w ≠ v := fun same => apart (same ▸ member)
        simp [other]
      simp only [unseen, filter_cons, mem_cons, true_or, not_true_eq_false, decide_false,
        Bool.false_eq_true, if_false, fresh, not_false_eq_true, decide_true, if_true,
        map_cons, sum_cons]
      simp only [mem_cons] at others
      rw [others, Nat.add_comm]
    · have rest' := ih nodup fun absent =>
        known fun member => absent ((mem_cons.mp member).resolve_left (Ne.symm same))
      by_cases seen : v ∈ visited
      · simpa [unseen, filter_cons, same, seen] using rest'
      · simp only [unseen, filter_cons, mem_cons, same, seen, or_self, not_false_eq_true,
          decide_true, if_true, map_cons, sum_cons] at rest' ⊢
        omega

/-- With enough fuel the search answers. -/
theorem search_answers {all : List V} (nodup : all.Nodup) (known : ∀ v ∉ all, next v = [])
    {fuel : Nat} (enough : pending.length + unseen next all visited < fuel) :
    ∃ answer, search next target fuel pending visited = some answer := by
  induction fuel generalizing pending visited with
  | zero => contradiction
  | succ fuel ih =>
    match pending with
    | [] => exact ⟨false, rfl⟩
    | id :: pending =>
      simp only [search, length_cons] at enough ⊢
      split
      · exact ⟨true, rfl⟩
      · split
        · exact ih (by omega)
        · rename_i fresh
          have fewer := unseen_cons nodup fresh (known id)
          refine ih ?_
          rw [length_append, length_reverse]
          omega

end Library.GraphSearch
