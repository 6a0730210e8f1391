import Chuzz.Files.Counts

/-! What a reader holds when a read has ended is what became of that read. -/
namespace Chuzz.Files
open List

/-- The reader, when the event was fired, held what became of the read. -/
def Fired.Describes (made : List (Nat × Except String Value)) (fired : Fired) : Prop :=
  match fired.type with
  | .load => fired.readyState = .done ∧ fired.error = none ∧
      ∃ value, (fired.read, .ok value) ∈ made ∧ fired.result = some value
  | .error => fired.readyState = .done ∧ fired.result = none ∧
      ∃ error, (fired.read, .error error) ∈ made ∧ fired.error = some error
  | .abort => fired.readyState = .done ∧ fired.result = none ∧ fired.error = none
  | _ => True

theorem Fired.Describes.mono {made more : List (Nat × Except String Value)} {fired : Fired}
    (describes : fired.Describes made) (includes : ∀ entry ∈ made, entry ∈ more) :
    fired.Describes more := by
  unfold Fired.Describes at describes ⊢
  split at describes
  · obtain ⟨done, clean, value, among, same⟩ := describes
    exact ⟨done, clean, value, includes _ among, same⟩
  · obtain ⟨done, none, error, among, same⟩ := describes
    exact ⟨done, none, error, includes _ among, same⟩
  · exact describes
  · trivial

/-- The reader holds what the event found. -/
structure Fired.Stands (fired : Fired) (reader : FileReader) : Prop where
  logged : fired ∈ reader.log
  terminal : fired.type.terminal = true
  state : reader.state = .done
  readyState : fired.readyState = reader.state
  result : fired.result = reader.result
  error : fired.error = reader.error

namespace FileReader
variable (reader : FileReader)

structure Outcomes : Prop where
  clean : reader.state = .loading → reader.error = none
  loads : ∀ reading, .loads reading ∈ reader.frames → reading.generation = reader.generation →
    ∃ value, (reading.generation, .ok value) ∈ reader.made ∧ reader.result = some value
  caught : ∀ reading error, ⟨reading, .caught error⟩ ∈ reader.tasks →
    (reading.generation, .error error) ∈ reader.made
  describes : ∀ fired ∈ reader.log, fired.Describes reader.made
  last : ∀ fired, reader.last = some fired → fired.Stands reader

theorem outcomes_initial : Outcomes {} := ⟨nofun, nofun, nofun, nofun, nofun⟩

variable {conversions : Conversions} {reader : FileReader} {label : Label} {after : FileReader}

theorem Taken.inside {task : Task} {others : List Task} (taken : reader.Taken task others) :
    ∀ other ∈ others, other ∈ reader.tasks :=
  fun _ member => taken.2.mem_iff.mpr (mem_cons_of_mem _ member)

theorem Counts.lead_le (counts : reader.Counts) {reading : Reading}
    (member : .loads reading ∈ reader.frames) : reading.generation ≤ reader.generation := by
  by_contra later
  have none := (counts.unused _ (Nat.lt_of_not_le later)).waiting
  have some : 0 < reader.frames.countP (·.leads reading.generation) :=
    countP_pos_iff.mpr ⟨_, member, decide_eq_true rfl⟩
  unfold waiting at none
  omega

theorem Outcomes.kept (outcomes : reader.Outcomes) (generation : after.generation = reader.generation)
    (state : after.state = reader.state) (result : after.result = reader.result)
    (error : after.error = reader.error)
    (frames : ∀ reading, .loads reading ∈ after.frames → .loads reading ∈ reader.frames)
    (tasks : ∀ reading error, ⟨reading, .caught error⟩ ∈ after.tasks →
      ⟨reading, .caught error⟩ ∈ reader.tasks ∨ (reading.generation, .error error) ∈ after.made)
    (made : ∀ entry ∈ reader.made, entry ∈ after.made)
    (log : ∀ fired ∈ after.log, fired ∈ reader.log ∨ fired.Describes after.made)
    (logged : ∀ fired ∈ reader.log, fired ∈ after.log) (last : after.last = reader.last) :
    after.Outcomes where
  clean loading := by
    rw [error]
    exact outcomes.clean (state ▸ loading)
  loads reading member same := by
    obtain ⟨value, among, held⟩ := outcomes.loads reading (frames reading member) (generation ▸ same)
    exact ⟨value, made _ among, result ▸ held⟩
  caught reading error member := by
    rcases tasks reading error member with before | now
    · exact made _ (outcomes.caught reading error before)
    · exact now
  describes fired member := by
    rcases log fired member with before | now
    · exact (outcomes.describes fired before).mono made
    · exact now
  last fired same := by
    have stands := outcomes.last fired (last ▸ same)
    exact ⟨logged fired stands.logged, stands.terminal, state ▸ stands.state,
      state ▸ stands.readyState, result ▸ stands.result, error ▸ stands.error⟩

theorem Outcomes.ended {type : EventType} {read loaded : Nat} {total : Option Nat} {next : Frame}
    (terminal : type.terminal = true) (done : reader.state = .done)
    (calm : ∀ reading, .loads reading ∈ next :: reader.frames → reading.generation ≠ reader.generation)
    (caught : ∀ reading error, ⟨reading, .caught error⟩ ∈ reader.tasks →
      (reading.generation, .error error) ∈ reader.made)
    (describes : ∀ fired ∈ reader.log, fired.Describes reader.made)
    (now : Fired.Describes reader.made
      ⟨type, read, loaded, total, reader.state, reader.result, reader.error⟩) :
    (reader.fire type read loaded total next).Outcomes where
  clean loading := by
    change reader.state = .loading at loading
    rw [done] at loading
    cases loading
  loads reading member same := absurd same (calm reading member)
  caught := caught
  describes := forall_mem_append.mpr ⟨describes, forall_mem_singleton.mpr now⟩
  last fired same := by
    change (if type.terminal then some _ else reader.last) = some fired at same
    rw [if_pos terminal] at same
    obtain rfl := Option.some.inj same
    exact ⟨mem_append_right _ mem_cons_self, terminal, done, rfl, rfl, rfl⟩

theorem Outcomes.no_last (outcomes : reader.Outcomes) (loading : reader.state = .loading) :
    reader.last = none := by
  cases same : reader.last with
  | none => rfl
  | some fired =>
    have done := (outcomes.last fired same).state
    rw [loading] at done
    cases done

theorem mem_concat {fired new : Fired} {log : List Fired} {made : List (Nat × Except String Value)}
    (now : new.Describes made) (member : fired ∈ log ++ [new]) :
    fired ∈ log ∨ fired.Describes made := by
  rcases mem_append.mp member with before | last
  · exact .inl before
  · exact .inr (mem_singleton.mp last ▸ now)

theorem outcomes_moves (counts : reader.Counts) (outcomes : reader.Outcomes)
    (moves : Moves conversions reader label after) : after.Outcomes := by
  cases moves with
  | stays => exact outcomes
  | @reads request idle =>
    refine ⟨fun _ => rfl, fun reading member same => ?_, fun reading error member => ?_,
      outcomes.describes, nofun⟩
    · have before := counts.lead_le member
      change reading.generation = reader.generation + 1 at same
      omega
    · rcases mem_append.mp member with member | new
      · exact outcomes.caught reading error member
      · cases mem_singleton.mp new
  | aborts loading =>
    refine Outcomes.ended rfl rfl (fun reading member same => ?_) outcomes.caught outcomes.describes
      ⟨rfl, rfl, rfl⟩
    rcases mem_cons.mp member with other | member
    · cases other
    · have before := counts.lead_le member
      change reading.generation = reader.generation + 1 at same
      omega
  | resets idle =>
    refine ⟨fun loading => absurd loading idle, fun reading member same => ?_, outcomes.caught,
      outcomes.describes, nofun⟩
    have before := counts.lead_le member
    change reading.generation = reader.generation + 1 at same
    omega
  | @skips label task tasks taken other old =>
    exact outcomes.kept rfl rfl rfl rfl (fun _ => id) (fun _ _ member => .inl (taken.inside _ member))
      (fun _ => id) (fun _ => .inl) (fun _ => id) rfl
  | @starts index reading tasks taken live =>
    refine outcomes.kept rfl rfl rfl rfl (fun other member => ?_)
      (fun _ _ member => .inl (taken.inside _ member)) (fun _ => id) (fun _ => mem_concat trivial)
      (fun _ => mem_append_left _) rfl
    rcases mem_cons.mp member with new | member
    · cases new
    · exact member
  | @fails index answer reading tasks error taken =>
    refine outcomes.kept rfl rfl rfl rfl (fun _ => id) (fun other reason member => ?_)
      (fun _ => mem_append_left _)
      (fun _ => .inl) (fun _ => id) rfl
    rcases mem_append.mp member with member | new
    · exact .inl (taken.inside _ member)
    · cases mem_singleton.mp new
      exact .inr (mem_append_right _ mem_cons_self)
  | @arrives index answer reading tasks value taken live =>
    have loading := counts.taken taken live
    refine ⟨fun _ => outcomes.clean loading, fun other member _ => ?_, fun other error member => ?_,
      forall_mem_append.mpr ⟨fun fired member => ?_, forall_mem_singleton.mpr trivial⟩,
      fun fired same => ?_⟩
    · rcases mem_cons.mp member with new | member
      · cases new
        exact ⟨value, mem_append_right _ mem_cons_self, rfl⟩
      · change _ ∈ reader.frames at member
        rw [taken.1] at member
        cases member
    · exact mem_append_left _ (outcomes.caught other error (taken.inside _ member))
    · exact (outcomes.describes fired member).mono fun _ => mem_append_left _
    · have none := outcomes.no_last loading
      cases none.symm.trans same
  | @catches index reading error tasks taken live =>
    have failed := outcomes.caught reading error (taken.2.mem_iff.mpr mem_cons_self)
    refine Outcomes.ended rfl rfl (fun other member => ?_)
      (fun other reason member => outcomes.caught other reason (taken.inside _ member))
      outcomes.describes ⟨rfl, rfl, error, failed, rfl⟩
    rcases mem_cons.mp member with new | member
    · cases new
    · change _ ∈ reader.frames at member
      rw [taken.1] at member
      cases member
  | @drops frame frames top calm old =>
    exact outcomes.kept rfl rfl rfl rfl (fun _ member => top ▸ mem_cons_of_mem _ member)
      (fun _ _ => .inl) (fun _ => id) (fun _ => .inl) (fun _ => id) rfl
  | @begins reading frames top live =>
    refine outcomes.kept rfl rfl rfl rfl (fun _ member => top ▸ mem_cons_of_mem _ member)
      (fun other reason member => ?_) (fun _ => id) (fun _ => .inl) (fun _ => id) rfl
    rcases mem_append.mp member with member | new
    · exact .inl member
    · cases mem_singleton.mp new
  | @loads reading frames top live =>
    obtain ⟨value, among, held⟩ := outcomes.loads reading (top ▸ mem_cons_self) live
    have one : reader.waiting reader.generation =
        reader.tasks.countP (·.of reader.generation) +
          (frames.countP (·.leads reader.generation) + 1) := by
      unfold waiting
      rw [top, countP_cons_toNat, leads_loads, decide_eq_true live]
      rfl
    have loading : reader.state = .loading := counts.loading (by omega)
    have others : frames.countP (·.leads reader.generation) = 0 := by
      have live := counts.live
      rw [if_pos loading] at live
      omega
    refine Outcomes.ended rfl rfl (fun other member same => ?_) outcomes.caught outcomes.describes
      ⟨rfl, outcomes.clean loading, value, among, held⟩
    rcases mem_cons.mp member with new | member
    · cases new
    · exact countP_eq_zero.mp others _ member (decide_eq_true same)
  | @ends reading loaded frames top live =>
    refine outcomes.kept rfl rfl rfl rfl (fun other member => ?_) (fun _ _ => .inl) (fun _ => id)
      (fun _ => mem_concat trivial) (fun _ => mem_append_left _) rfl
    rcases mem_cons.mp member with new | member
    · cases new
    · exact top ▸ mem_cons_of_mem _ member
  | @strays read frames top =>
    refine outcomes.kept rfl rfl rfl rfl (fun other member => ?_) (fun _ _ => .inl) (fun _ => id)
      (fun _ => mem_concat trivial) (fun _ => mem_append_left _) rfl
    rcases mem_cons.mp member with new | member
    · cases new
    · exact top ▸ mem_cons_of_mem _ member

end FileReader
end Chuzz.Files
