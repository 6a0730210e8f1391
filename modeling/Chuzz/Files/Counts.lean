import Chuzz.Files.Moves

/-! How many events a read has. A read goes on while something of it is waiting, and nothing but the
event that ends it ends it. -/
namespace Chuzz.Files
open List

/-- The dispatch leads to more of the read. -/
def Frame.leads (generation : Nat) : Frame → Bool
  | .begins reading | .loads reading => reading.generation = generation
  | _ => false

/-- The bytes of the read are yet to come. -/
def Frame.awaits (generation : Nat) : Frame → Bool
  | .begins reading => reading.generation = generation
  | _ => false

/-- Behind the dispatch comes the last event of the read. -/
def Frame.owes (generation : Nat) : Frame → Bool
  | .ends reading _ => reading.generation = generation
  | .aborts read => read = generation
  | _ => false

def Task.of (generation : Nat) (task : Task) : Bool := task.reading.generation = generation

def Task.awaits (generation : Nat) (task : Task) : Bool :=
  task.reading.generation = generation &&
    match task.stage with
    | .caught _ => false
    | _ => true

section Kinds
variable (reading : Reading) (loaded generation : Nat) (error : String)

@[simp] theorem leads_begins :
    (Frame.begins reading).leads generation = decide (reading.generation = generation) := rfl

@[simp] theorem leads_loads :
    (Frame.loads reading).leads generation = decide (reading.generation = generation) := rfl

@[simp] theorem leads_ends : (Frame.ends reading loaded).leads generation = false := rfl

@[simp] theorem leads_aborts : (Frame.aborts loaded).leads generation = false := rfl

@[simp] theorem leads_rest : Frame.rest.leads generation = false := rfl

@[simp] theorem awaits_begins :
    (Frame.begins reading).awaits generation = decide (reading.generation = generation) := rfl

@[simp] theorem awaits_loads : (Frame.loads reading).awaits generation = false := rfl

@[simp] theorem awaits_ends : (Frame.ends reading loaded).awaits generation = false := rfl

@[simp] theorem awaits_aborts : (Frame.aborts loaded).awaits generation = false := rfl

@[simp] theorem awaits_rest : Frame.rest.awaits generation = false := rfl

@[simp] theorem owes_begins : (Frame.begins reading).owes generation = false := rfl

@[simp] theorem owes_loads : (Frame.loads reading).owes generation = false := rfl

@[simp] theorem owes_ends :
    (Frame.ends reading loaded).owes generation = decide (reading.generation = generation) := rfl

@[simp] theorem owes_aborts :
    (Frame.aborts loaded).owes generation = decide (loaded = generation) := rfl

@[simp] theorem owes_rest : Frame.rest.owes generation = false := rfl

@[simp] theorem of_task (stage : Stage) :
    (Task.mk reading stage).of generation = decide (reading.generation = generation) := rfl

@[simp] theorem awaits_timer :
    (Task.mk reading .timer).awaits generation = decide (reading.generation = generation) :=
  Bool.and_true _

@[simp] theorem awaits_buffer :
    (Task.mk reading .buffer).awaits generation = decide (reading.generation = generation) :=
  Bool.and_true _

@[simp] theorem awaits_caught : (Task.mk reading (.caught error)).awaits generation = false :=
  Bool.and_false _

end Kinds

def Fired.ends (read : Nat) (fired : Fired) : Bool := fired.type.terminal && fired.read = read

def Fired.closes (read : Nat) (fired : Fired) : Bool := fired.type = .loadend && fired.read = read

namespace FileReader
variable (reader : FileReader) (generation : Nat)

/-- What is waiting of a read. -/
def waiting : Nat :=
  reader.tasks.countP (·.of generation) + reader.frames.countP (·.leads generation)

def unread : Nat :=
  reader.tasks.countP (·.awaits generation) + reader.frames.countP (·.awaits generation) +
    reader.made.countP (·.1 = generation)

def terminals : Nat := reader.log.countP (·.ends generation)

def loadends : Nat := reader.log.countP (·.closes generation)

def owed : Nat := reader.frames.countP (·.owes generation)

/-- The read goes on. -/
def Going : Prop := reader.state = .loading ∧ reader.generation = generation

/-- No read has a generation that is yet to come. -/
structure Unused : Prop where
  waiting : reader.waiting generation = 0
  unread : reader.unread generation = 0
  terminals : reader.terminals generation = 0
  accepted : generation ∉ reader.accepted

structure Counts : Prop where
  unused : ∀ generation, reader.generation < generation → reader.Unused generation
  /-- Of the last read one thing is waiting, if it goes on. -/
  live : reader.waiting reader.generation = if reader.state = .loading then 1 else 0
  current : reader.state = .loading → reader.generation ∈ reader.accepted
  ended : ∀ read ∈ reader.accepted, ¬ reader.Going read → reader.terminals read = 1
  going : ∀ read, read ∉ reader.accepted ∨ reader.Going read → reader.terminals read = 0
  closed : ∀ read, reader.loadends read + reader.owed read ≤ reader.terminals read
  once : ∀ generation, reader.unread generation ≤ 1

theorem counts_initial : Counts {} where
  unused _ _ := ⟨rfl, rfl, rfl, not_mem_nil⟩
  live := rfl
  current := nofun
  ended := nofun
  going _ _ := rfl
  closed _ := Nat.le_refl 0
  once _ := Nat.zero_le 1

theorem countP_cons_toNat {α : Type} (p : α → Bool) (first : α) (rest : List α) :
    (first :: rest).countP p = rest.countP p + (p first).toNat := by
  rw [countP_cons]
  cases p first <;> rfl

theorem countP_concat_toNat {α : Type} (p : α → Bool) (last : α) (others : List α) :
    (others ++ [last]).countP p = others.countP p + (p last).toNat := by
  rw [countP_append, countP_singleton]
  cases p last <;> rfl

section Fire
variable (reader : FileReader) (type : EventType) (read loaded : Nat) (total : Option Nat)
  (next : Frame) (generation : Nat)

theorem fire_waiting : (reader.fire type read loaded total next).waiting generation =
    reader.waiting generation + (next.leads generation).toNat := by
  simp only [fire, waiting, countP_cons_toNat, Nat.add_assoc]

theorem fire_unread : (reader.fire type read loaded total next).unread generation =
    reader.unread generation + (next.awaits generation).toNat := by
  simp only [fire, unread, countP_cons_toNat]
  omega

theorem fire_owed : (reader.fire type read loaded total next).owed generation =
    reader.owed generation + (next.owes generation).toNat := by
  simp only [fire, owed, countP_cons_toNat]

theorem fire_terminals : (reader.fire type read loaded total next).terminals generation =
    reader.terminals generation + (type.terminal && read = generation).toNat := by
  simp only [fire, terminals, countP_concat_toNat, Fired.ends]

theorem fire_loadends : (reader.fire type read loaded total next).loadends generation =
    reader.loadends generation + (type = .loadend && read = generation : Bool).toNat := by
  simp only [fire, loadends, countP_concat_toNat, Fired.closes]

end Fire

variable {conversions : Conversions} {reader : FileReader} {label : Label} {after : FileReader}

theorem Taken.count {task : Task} {others : List Task} (taken : reader.Taken task others)
    (p : Task → Bool) : reader.tasks.countP p = others.countP p + (p task).toNat := by
  rw [taken.2.countP_eq, countP_cons_toNat]

section
variable (counts : reader.Counts)
include counts

theorem Counts.kept (generation : after.generation = reader.generation)
    (state : after.state = reader.state) (accepted : after.accepted = reader.accepted)
    (waiting : ∀ g, after.waiting g ≤ reader.waiting g)
    (live : after.waiting reader.generation = reader.waiting reader.generation)
    (unread : ∀ g, after.unread g ≤ reader.unread g)
    (terminals : ∀ g, after.terminals g = reader.terminals g)
    (closed : ∀ g, after.loadends g + after.owed g ≤ reader.loadends g + reader.owed g) :
    after.Counts where
  unused g later := by
    have before := counts.unused g (generation ▸ later)
    refine ⟨?_, ?_, (terminals g).trans before.terminals, accepted ▸ before.accepted⟩
    · exact Nat.eq_zero_of_le_zero (before.waiting ▸ waiting g)
    · exact Nat.eq_zero_of_le_zero (before.unread ▸ unread g)
  live := by rw [generation, live, state, counts.live]
  current loading := by
    rw [generation, accepted]
    exact counts.current (state ▸ loading)
  ended read among going := by
    unfold Going at going
    rw [generation, state] at going
    rw [terminals, counts.ended read (accepted ▸ among) going]
  going read going := by
    unfold Going at going
    rw [generation, state, accepted] at going
    rw [terminals, counts.going read going]
  closed read := Nat.le_trans (closed read) (terminals read ▸ counts.closed read)
  once g := Nat.le_trans (unread g) (counts.once g)

theorem Counts.finished (loading : reader.state = .loading)
    (generation : after.generation = reader.generation) (state : after.state = .done)
    (accepted : after.accepted = reader.accepted)
    (waiting : ∀ g, after.waiting g + (decide (reader.generation = g)).toNat ≤ reader.waiting g)
    (unread : ∀ g, after.unread g ≤ reader.unread g)
    (terminals : ∀ g, after.terminals g =
      reader.terminals g + (decide (reader.generation = g)).toNat)
    (closed : ∀ g, after.loadends g + after.owed g ≤
      reader.loadends g + reader.owed g + (decide (reader.generation = g)).toNat) :
    after.Counts where
  unused g later := by
    rw [generation] at later
    have before := counts.unused g later
    refine ⟨?_, ?_, ?_, accepted ▸ before.accepted⟩
    · have less := waiting g
      rw [before.waiting] at less
      omega
    · exact Nat.eq_zero_of_le_zero (before.unread ▸ unread g)
    · rw [terminals, before.terminals, decide_eq_false (Nat.ne_of_lt later)]
      rfl
  live := by
    have less := waiting reader.generation
    rw [counts.live, if_pos loading, decide_eq_true rfl, Bool.toNat_true] at less
    rw [generation, state, if_neg nofun]
    omega
  current same := by
    rw [state] at same
    cases same
  ended read among _ := by
    rw [accepted] at among
    rw [terminals]
    by_cases last : reader.generation = read
    · rw [decide_eq_true last, counts.going read (.inr ⟨loading, last⟩)]
      rfl
    · rw [decide_eq_false last, counts.ended read among fun going => last going.2]
      rfl
  going read going := by
    have outside : read ∉ reader.accepted := by
      rcases going with outside | ⟨same, _⟩
      · exact accepted ▸ outside
      · rw [state] at same
        cases same
    have other : reader.generation ≠ read := fun same => outside (same ▸ counts.current loading)
    rw [terminals, decide_eq_false other, counts.going read (.inl outside)]
    rfl
  closed read := by
    have before := counts.closed read
    have now := closed read
    rw [terminals]
    omega
  once g := Nat.le_trans (unread g) (counts.once g)

theorem Counts.loading (waits : 0 < reader.waiting reader.generation) :
    reader.state = .loading := by
  by_contra idle
  rw [counts.live, if_neg idle] at waits
  exact Nat.lt_irrefl 0 waits

theorem Counts.taken {reading : Reading} {stage : Stage} {others : List Task}
    (taken : reader.Taken ⟨reading, stage⟩ others)
    (live : reading.generation = reader.generation) : reader.state = .loading := by
  refine counts.loading ?_
  simp only [waiting, taken.count, of_task, live, decide_true, Bool.toNat_true]
  omega

theorem Counts.renewed (generation : after.generation = reader.generation + 1) (idle : after.state ≠ .loading)
    (accepted : after.accepted = reader.accepted)
    (waiting : ∀ g, after.waiting g = reader.waiting g)
    (unread : ∀ g, after.unread g = reader.unread g)
    (terminals : ∀ g, after.terminals g = reader.terminals g +
      (reader.state = .loading && reader.generation = g : Bool).toNat)
    (closed : ∀ g, after.loadends g + after.owed g ≤ reader.loadends g + reader.owed g +
      (reader.state = .loading && reader.generation = g : Bool).toNat) : after.Counts where
  unused g later := by
    rw [generation] at later
    have before := counts.unused g (Nat.lt_of_succ_lt later)
    refine ⟨(waiting g).trans before.waiting, (unread g).trans before.unread, ?_,
      accepted ▸ before.accepted⟩
    rw [terminals, before.terminals, decide_eq_false (Nat.ne_of_lt (Nat.lt_of_succ_lt later)),
      Bool.and_false]
    rfl
  live := by
    rw [if_neg idle, generation, waiting]
    exact (counts.unused _ (Nat.lt_succ_self _)).waiting
  current same := absurd same idle
  ended read among _ := by
    rw [accepted] at among
    rw [terminals]
    by_cases going : reader.Going read
    · rw [counts.going read (.inr going), decide_eq_true going.1, decide_eq_true going.2]
      rfl
    · rw [counts.ended read among going]
      have none : (reader.state = .loading && reader.generation = read : Bool) = false := by
        simpa [Going] using going
      rw [none]
      rfl
  going read going := by
    have outside : read ∉ reader.accepted := by
      rcases going with outside | ⟨same, _⟩
      · exact accepted ▸ outside
      · exact absurd same idle
    have none : (reader.state = .loading && reader.generation = read : Bool) = false := by
      rw [Bool.and_eq_false_imp, decide_eq_true_eq]
      exact fun loading => decide_eq_false fun same => outside (same ▸ counts.current loading)
    rw [terminals, none, counts.going read (.inl outside)]
    rfl
  closed read := by
    have before := counts.closed read
    have now := closed read
    rw [terminals]
    omega
  once g := Nat.le_trans (Nat.le_of_eq (unread g)) (counts.once g)

theorem Counts.begun (request : Request) (idle : reader.state ≠ .loading) : Counts { reader with
      state := .loading, result := none, error := none, generation := reader.generation + 1
      tasks := reader.tasks ++ [⟨⟨request, reader.generation + 1⟩, .timer⟩]
      accepted := reader.accepted ++ [reader.generation + 1], last := none } := by
  have new := counts.unused (reader.generation + 1) (Nat.lt_succ_self _)
  refine ⟨fun g later => ?_, ?_, fun _ => ?_, fun read among going => ?_, fun read going => ?_,
    counts.closed, fun g => ?_⟩
  · change reader.generation + 1 < g at later
    have before := counts.unused g (Nat.lt_of_succ_lt later)
    have other : decide (reader.generation + 1 = g) = false := decide_eq_false (Nat.ne_of_lt later)
    refine ⟨?_, ?_, before.terminals, ?_⟩
    · have none := before.waiting
      simp only [waiting, countP_concat_toNat, of_task, other, Bool.toNat_false] at none ⊢
      omega
    · have none := before.unread
      simp only [unread, countP_concat_toNat, awaits_timer, other, Bool.toNat_false] at none ⊢
      omega
    · rw [mem_append, mem_singleton, not_or]
      exact ⟨before.accepted, Nat.ne_of_gt later⟩
  · have none := new.waiting
    simp only [waiting, countP_concat_toNat, of_task, decide_true, Bool.toNat_true] at none ⊢
    rw [if_pos trivial]
    omega
  · exact mem_append_right _ mem_cons_self
  · rcases mem_append.mp among with among | last
    · exact counts.ended read among fun before => idle before.1
    · exact absurd ⟨rfl, (mem_singleton.mp last).symm⟩ going
  · by_cases last : read = reader.generation + 1
    · rw [last]
      exact new.terminals
    · refine counts.going read (.inl fun among => ?_)
      rcases going with outside | going
      · exact outside (mem_append_left _ among)
      · exact last going.2.symm
  · have before := counts.once g
    simp only [unread, countP_concat_toNat, awaits_timer] at before ⊢
    by_cases same : reader.generation + 1 = g
    · have none := new.unread
      rw [same] at none
      rw [decide_eq_true same, Bool.toNat_true]
      unfold unread at none
      omega
    · rw [decide_eq_false same, Bool.toNat_false]
      omega

theorem counts_moves (moves : Moves conversions reader label after) : after.Counts := by
  cases moves with
  | stays => exact counts
  | @reads request idle => exact counts.begun request idle
  | aborts loading =>
    refine counts.renewed rfl nofun rfl (fun g => ?_) (fun g => ?_) (fun g => ?_) (fun g => ?_)
    · rw [fire_waiting]
      rfl
    · rw [fire_unread]
      rfl
    · rw [fire_terminals, loading]
      rfl
    · rw [fire_loadends, fire_owed, loading]
      simp only [loadends, owed, owes_aborts, reduceCtorEq, decide_false, Bool.false_and,
        Bool.toNat_false, decide_true, Bool.true_and]
      omega
  | resets idle =>
    have none (g : Nat) : (reader.state = .loading && reader.generation = g : Bool).toNat = 0 := by
      rw [decide_eq_false idle, Bool.false_and]
      rfl
    refine counts.renewed rfl idle rfl (fun g => rfl) (fun g => rfl) (fun g => ?_) (fun g => ?_)
    · rw [none]
      rfl
    · exact Nat.le_add_right _ _
  | @skips label task tasks taken other old =>
    refine counts.kept rfl rfl rfl (fun g => ?_) ?_ (fun g => ?_) (fun g => rfl) (fun g => Nat.le_refl _)
    · simp only [waiting, taken.count]
      omega
    · simp [waiting, taken.count, Task.of, old]
    · simp only [unread, taken.count]
      omega
  | @starts index reading tasks taken live =>
    refine counts.kept rfl rfl rfl (fun g => ?_) ?_ (fun g => ?_) (fun g => ?_) (fun g => ?_)
    · rw [fire_waiting]
      simp only [waiting, taken.count, leads_begins, of_task]
      omega
    · rw [fire_waiting]
      simp only [waiting, taken.count, leads_begins, of_task]
      omega
    · rw [fire_unread]
      simp only [unread, taken.count, awaits_begins, awaits_timer]
      omega
    · rw [fire_terminals]
      rfl
    · rw [fire_loadends, fire_owed]
      exact Nat.le_refl _
  | @fails index answer reading tasks error taken =>
    refine counts.kept rfl rfl rfl (fun g => ?_) ?_ (fun g => ?_) (fun g => rfl) (fun g => Nat.le_refl _)
    · simp only [waiting, taken.count, countP_concat_toNat, of_task]
      omega
    · simp only [waiting, taken.count, countP_concat_toNat, of_task]
    · simp only [unread, taken.count, countP_concat_toNat, awaits_caught, awaits_buffer,
        Bool.toNat_false]
      omega
  | @arrives index answer reading tasks value taken live =>
    refine counts.kept rfl rfl rfl (fun g => ?_) ?_ (fun g => ?_) (fun g => ?_) (fun g => ?_)
    · rw [fire_waiting]
      simp only [waiting, taken.count, leads_loads, of_task]
      omega
    · rw [fire_waiting]
      simp only [waiting, taken.count, leads_loads, of_task]
      omega
    · rw [fire_unread]
      simp only [unread, taken.count, countP_concat_toNat, awaits_loads, awaits_buffer,
        Bool.toNat_false]
      omega
    · rw [fire_terminals]
      rfl
    · rw [fire_loadends, fire_owed]
      exact Nat.le_refl _
  | @catches index reading error tasks taken live =>
    refine counts.finished (counts.taken taken live) rfl rfl rfl (fun g => ?_) (fun g => ?_)
      (fun g => ?_) (fun g => ?_)
    · rw [fire_waiting]
      simp only [waiting, taken.count, leads_ends, of_task, live, Bool.toNat_false]
      omega
    · rw [fire_unread]
      simp only [unread, taken.count, awaits_ends, awaits_caught, Bool.toNat_false]
      omega
    · rw [fire_terminals, live]
      rfl
    · rw [fire_loadends, fire_owed]
      simp only [loadends, owed, owes_ends, live, reduceCtorEq, decide_false, Bool.false_and,
        Bool.toNat_false]
      omega
  | @drops frame frames top calm old =>
    have aside : frame.leads reader.generation = false := by
      cases frame with
      | begins reading => exact decide_eq_false (old reading (.inl rfl))
      | loads reading => exact decide_eq_false (old reading (.inr rfl))
      | ends reading loaded => rfl
      | aborts read => rfl
      | rest => rfl
    refine counts.kept rfl rfl rfl (fun g => ?_) ?_ (fun g => ?_) (fun g => rfl) (fun g => ?_)
    · simp only [waiting, top, countP_cons_toNat]
      omega
    · simp only [waiting, top, countP_cons_toNat, aside, Bool.toNat_false, Nat.add_zero]
    · simp only [unread, top, countP_cons_toNat]
      omega
    · simp only [owed, top, countP_cons_toNat]
      exact Nat.add_le_add_left (Nat.le_add_right _ _) _
  | @begins reading frames top live =>
    refine counts.kept rfl rfl rfl (fun g => ?_) ?_ (fun g => ?_) (fun g => rfl) (fun g => ?_)
    · simp only [waiting, top, countP_cons_toNat, countP_concat_toNat, leads_begins, of_task]
      omega
    · simp only [waiting, top, countP_cons_toNat, countP_concat_toNat, leads_begins, of_task]
      omega
    · simp only [unread, top, countP_cons_toNat, countP_concat_toNat, awaits_begins, awaits_buffer]
      omega
    · simp only [owed, top, countP_cons_toNat]
      exact Nat.add_le_add_left (Nat.le_add_right _ _) _
  | @loads reading frames top live =>
    have loading : reader.state = .loading := by
      refine counts.loading ?_
      simp only [waiting, top, countP_cons_toNat, leads_loads, live, decide_true, Bool.toNat_true]
      omega
    refine counts.finished loading rfl rfl rfl (fun g => ?_) (fun g => ?_) (fun g => ?_)
      (fun g => ?_)
    · rw [fire_waiting]
      simp only [waiting, top, countP_cons_toNat, leads_ends, leads_loads, live, Bool.toNat_false]
      omega
    · rw [fire_unread]
      simp only [unread, top, countP_cons_toNat, awaits_ends, awaits_loads, Bool.toNat_false]
      omega
    · rw [fire_terminals, live]
      rfl
    · rw [fire_loadends, fire_owed]
      simp only [loadends, owed, top, countP_cons_toNat, owes_ends, owes_loads, live, reduceCtorEq,
        decide_false, Bool.false_and, Bool.toNat_false]
      omega
  | @ends reading loaded frames top live =>
    refine counts.kept rfl rfl rfl (fun g => ?_) ?_ (fun g => ?_) (fun g => ?_) (fun g => ?_)
    · rw [fire_waiting]
      simp only [waiting, top, countP_cons_toNat, leads_rest, Bool.toNat_false]
      omega
    · rw [fire_waiting]
      simp only [waiting, top, countP_cons_toNat, leads_rest, leads_ends, Bool.toNat_false]
      omega
    · rw [fire_unread]
      simp only [unread, top, countP_cons_toNat, awaits_rest, Bool.toNat_false]
      omega
    · rw [fire_terminals]
      rfl
    · rw [fire_loadends, fire_owed]
      simp only [loadends, owed, top, countP_cons_toNat, owes_ends, owes_rest, Bool.toNat_false,
        decide_true, Bool.true_and]
      omega
  | @strays read frames top =>
    refine counts.kept rfl rfl rfl (fun g => ?_) ?_ (fun g => ?_) (fun g => ?_) (fun g => ?_)
    · rw [fire_waiting]
      simp only [waiting, top, countP_cons_toNat, leads_rest, Bool.toNat_false]
      omega
    · rw [fire_waiting]
      simp only [waiting, top, countP_cons_toNat, leads_rest, leads_aborts, Bool.toNat_false]
      omega
    · rw [fire_unread]
      simp only [unread, top, countP_cons_toNat, awaits_rest, Bool.toNat_false]
      omega
    · rw [fire_terminals]
      rfl
    · rw [fire_loadends, fire_owed]
      simp only [loadends, owed, top, countP_cons_toNat, owes_aborts, owes_rest, Bool.toNat_false,
        decide_true, Bool.true_and]
      omega

end

end FileReader
end Chuzz.Files
