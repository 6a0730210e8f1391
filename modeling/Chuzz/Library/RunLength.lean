import Mathlib

/-! Run lengths over symbols of one width: what a list of runs stands for, and how a run that was
found in the items joins what came before it. -/
namespace Library.RunLength
variable {α : Type}

/-- Each run is the number of times its symbol is repeated. -/
def expand (runs : List (Nat × List α)) : List α :=
  runs.flatMap fun run => (List.replicate run.1 run.2).flatten

/-- The symbol at an index. -/
def block (items : List α) (index width : Nat) : List α := (items.drop index).take width

@[simp] theorem expand_nil : expand ([] : List (Nat × List α)) = [] := rfl

@[simp] theorem expand_cons (count : Nat) (symbol : List α) (runs : List (Nat × List α)) :
    expand ((count, symbol) :: runs) = (List.replicate count symbol).flatten ++ expand runs := rfl

theorem expand_append (runs more : List (Nat × List α)) :
    expand (runs ++ more) = expand runs ++ expand more := List.flatMap_append

theorem length_replicate_flatten (count : Nat) (symbol : List α) :
    (List.replicate count symbol).flatten.length = count * symbol.length := by simp

theorem length_expand {runs : List (Nat × List α)} {width : Nat}
    (widths : ∀ run ∈ runs, run.2.length = width) :
    (expand runs).length = (runs.map Prod.fst).sum * width := by
  induction runs with
  | nil => simp
  | cons run rest ih =>
    obtain ⟨count, symbol⟩ := run
    have here : symbol.length = width := widths _ List.mem_cons_self
    rw [expand_cons, List.length_append, length_replicate_flatten, here,
      ih fun other member => widths other (List.mem_cons_of_mem _ member)]
    simp [Nat.add_mul]

theorem length_block {items : List α} {index width : Nat} (within : index + width ≤ items.length) :
    (block items index width).length = width := by
  rw [block, List.length_take, List.length_drop]
  omega

/-- The items up to the end of a run are those before it and the symbol repeated. -/
theorem take_run {items symbol : List α} {index width count : Nat}
    (same : ∀ step < count, block items (index + step * width) width = symbol) :
    items.take (index + count * width) =
      items.take index ++ (List.replicate count symbol).flatten := by
  induction count with
  | zero => simp
  | succ count ih =>
    have before := ih fun step earlier => same step (Nat.lt_succ_of_lt earlier)
    have last : (items.drop (index + count * width)).take width = symbol :=
      same count (Nat.lt_succ_self count)
    rw [Nat.succ_mul, ← Nat.add_assoc, List.take_add, before, last, List.append_assoc,
      List.replicate_succ', List.flatten_append]
    simp

end Library.RunLength
