import Mathlib

/-! Monitors: automata that read a trace of events and say of each one whether it may come
next. A property of the form "this is never done before that" is a monitor. -/
namespace Library
universe u v

structure Monitor (S : Type u) (E : Type v) where
  initial : S
  after : S → E → S
  allows : S → E → Bool

namespace Monitor
variable {S : Type u} {E : Type v} (monitor : Monitor S E)

/-- What the monitor knows at the end of the trace. -/
def follow (trace : List E) : S := trace.foldl monitor.after monitor.initial

def keepsFrom : S → List E → Bool
  | _, [] => true
  | state, event :: rest => monitor.allows state event && keepsFrom (monitor.after state event) rest

/-- Every event of the trace is allowed when it comes. -/
def keeps (trace : List E) : Bool := monitor.keepsFrom monitor.initial trace

@[simp] theorem follow_concat (trace : List E) (event : E) :
    monitor.follow (trace ++ [event]) = monitor.after (monitor.follow trace) event := by
  simp only [follow, List.foldl_append, List.foldl_cons, List.foldl_nil]

theorem keepsFrom_concat (state : S) (trace : List E) (event : E) :
    monitor.keepsFrom state (trace ++ [event]) =
      (monitor.keepsFrom state trace && monitor.allows (trace.foldl monitor.after state) event) := by
  induction trace generalizing state with
  | nil => simp [keepsFrom]
  | cons first rest ih =>
    simp only [List.cons_append, keepsFrom, List.foldl_cons]
    rw [ih, Bool.and_assoc]

@[simp] theorem keeps_concat (trace : List E) (event : E) :
    monitor.keeps (trace ++ [event]) =
      (monitor.keeps trace && monitor.allows (monitor.follow trace) event) :=
  monitor.keepsFrom_concat monitor.initial trace event

end Monitor
end Library

/-! A condition on each element of a list and on what precedes it there, as for the events of a
trace: it grows with the list, one element at a time. -/
namespace Library.Preceding
variable {α : Type u} {P : List α → α → Prop} {l : List α} {a : α}

/-- Each element meets the condition with the elements before it. -/
def Each (P : List α → α → Prop) (l : List α) : Prop :=
  ∀ before a after, l = before ++ a :: after → P before a

theorem each_nil : Each P [] := fun _ _ _ split => by simp at split

theorem each_concat : Each P (l ++ [a]) ↔ Each P l ∧ P l a := by
  constructor
  · intro each
    refine ⟨fun before b after split => ?_, each l a [] rfl⟩
    exact each before b (after ++ [a]) (by rw [split, List.append_assoc]; rfl)
  · rintro ⟨each, last⟩ before b after split
    rcases List.eq_nil_or_concat after with rfl | ⟨init, final, rfl⟩
    · obtain ⟨rfl, same⟩ := List.append_inj' split rfl
      cases same
      exact last
    · rw [List.concat_eq_append, ← List.cons_append, ← List.append_assoc] at split
      exact each before b init (List.append_inj' split rfl).1

theorem each_pairwise {R : α → α → Prop} :
    Each (fun before b => ∀ a ∈ before, R a b) l ↔ l.Pairwise R := by
  induction l using List.reverseRecOn with
  | nil => exact iff_of_true each_nil .nil
  | append_singleton l a ih =>
    rw [each_concat, ih, List.pairwise_append]
    simp

end Library.Preceding
