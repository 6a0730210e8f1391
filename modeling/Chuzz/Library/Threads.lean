import Mathlib

/-! Threads that take turns. One of them moves and the others stand still, so what is said of every
thread, or counted over all of them, changes by what the one that has moved contributes. -/
namespace Library.Threads
open List
variable {T : Type u} {threads : List T} {k : Nat} {before after : T}

/-- What the threads weigh together. -/
def total (weight : T → Nat) (threads : List T) : Nat := (threads.map weight).sum

variable {weight : T → Nat}

@[simp] theorem total_nil : total weight ([] : List T) = 0 := rfl

@[simp] theorem total_cons (first : T) : total weight (first :: threads) =
    weight first + total weight threads := rfl

@[simp] theorem total_append (more : List T) :
    total weight (threads ++ more) = total weight threads + total weight more := by
  simp [total]

theorem le_total (weight : T → Nat) (member : before ∈ threads) : weight before ≤ total weight threads := by
  induction threads with
  | nil => contradiction
  | cons first rest ih =>
    rcases mem_cons.mp member with rfl | member
    · exact Nat.le_add_right _ _
    · exact (ih member).trans (Nat.le_add_left _ _)

theorem total_eq_zero (none : ∀ thread ∈ threads, weight thread = 0) : total weight threads = 0 := by
  induction threads with
  | nil => rfl
  | cons first rest ih =>
    rw [total_cons, none first (by simp), ih fun thread member => none thread (by simp [member])]

theorem total_set (weight : T → Nat) (after : T) (at_k : threads[k]? = some before) :
    total weight (threads.set k after) + weight before = total weight threads + weight after := by
  induction threads generalizing k with
  | nil => contradiction
  | cons first rest ih =>
    cases k with
    | zero =>
      cases at_k
      simp only [set_cons_zero, total_cons]
      omega
    | succ k =>
      have moved := ih at_k
      simp only [set_cons_succ, total_cons]
      omega

/-- Where one thread has all that there is, the others have nothing. -/
theorem others_of_total (at_k : threads[k]? = some before) (held : 0 < weight before)
    (one : total weight threads ≤ 1) :
    ∀ thread ∈ threads.set k after, thread = after ∨ weight thread = 0 := by
  induction threads generalizing k with
  | nil => contradiction
  | cons first rest ih =>
    rw [total_cons] at one
    intro thread member
    cases k with
    | zero =>
      cases at_k
      refine (mem_cons.mp member).imp_right fun member => ?_
      have le := le_total weight member
      omega
    | succ k =>
      have rest_k : rest[k]? = some before := at_k
      have le := le_total weight (mem_of_getElem? rest_k)
      rcases mem_cons.mp member with rfl | member
      · exact .inr (by omega)
      · exact ih rest_k (by omega) thread member

theorem forall_set {P : T → Prop} (others : ∀ thread ∈ threads, P thread) (moved : P after) :
    ∀ thread ∈ threads.set k after, P thread := fun _ member =>
  (mem_or_eq_of_mem_set member).elim (others _) (· ▸ moved)

/-- A thread that stands still is still there. -/
theorem mem_set (after : T) (member : thread ∈ threads) (at_k : threads[k]? = some before) :
    thread = before ∨ thread ∈ threads.set k after := by
  obtain ⟨j, at_j⟩ := mem_iff_getElem?.mp member
  by_cases same : j = k
  · subst same
    exact .inl (Option.some.inj (at_j.symm.trans at_k))
  · refine .inr (mem_of_getElem? (i := j) ?_)
    rw [getElem?_set_ne (Ne.symm same)]
    exact at_j

theorem forall_concat {P : T → Prop} (others : ∀ thread ∈ threads, P thread) (new : P after) :
    ∀ thread ∈ threads ++ [after], P thread := fun thread member =>
  (mem_append.mp member).elim (others thread) fun member => mem_singleton.mp member ▸ new

end Library.Threads
