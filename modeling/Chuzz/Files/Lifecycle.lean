import Chuzz.Files.Outcomes

/-! The life of a read: its events, in every order of calls, tasks and nested dispatches. -/
namespace Chuzz.Files.FileReader
open Library.Transition List

/-- No event says that a read has ended while a newer one goes on. -/
def Quiet (log : List Fired) : Prop :=
  ∀ fired ∈ log, fired.type = .loadend → fired.readyState ≠ .loading

/-- When the dispatch of an `abort` ends, no read goes on that its handlers have begun. -/
def Settles (reader : FileReader) (label : Label) : Prop :=
  label = .returns → ∀ read, reader.frames.head? = some (.aborts read) → reader.state ≠ .loading

/-- In each part of the log a read has at most one event that ends it, and no more events behind. -/
def Ordered (log : List Fired) : Prop :=
  ∀ earlier, earlier <+: log → ∀ read,
    earlier.countP (·.closes read) ≤ earlier.countP (·.ends read) ∧
      earlier.countP (·.ends read) ≤ 1

/-- What becomes of the reads. -/
structure Lifecycle (reader : FileReader) : Prop where
  ordered : Ordered reader.log
  ended : ∀ read ∈ reader.accepted, ¬ reader.Going read → reader.terminals read = 1
  going : ∀ read ∈ reader.accepted, reader.Going read →
    reader.terminals read = 0 ∧ reader.waiting read = 1
  foreign : ∀ read ∉ reader.accepted, reader.terminals read = 0
  once : ∀ read, reader.made.countP (·.1 = read) ≤ 1
  described : ∀ fired ∈ reader.log, fired.Describes reader.made
  stands : ∀ fired, reader.last = some fired → fired.Stands reader

variable {conversions : Conversions} {reader : FileReader} {label : Label} {after : FileReader}

theorem Counts.terminals_le (counts : reader.Counts) (read : Nat) : reader.terminals read ≤ 1 := by
  by_cases going : read ∉ reader.accepted ∨ reader.Going read
  · exact Nat.le_succ_of_le (Nat.le_of_eq (counts.going read going))
  · rw [not_or, not_not] at going
    exact Nat.le_of_eq (counts.ended read going.1 going.2)

theorem Counts.idle (counts : reader.Counts) (owes : 0 < reader.owed reader.generation) :
    reader.state ≠ .loading := by
  intro loading
  have none := counts.going _ (.inr ⟨loading, rfl⟩)
  have closed := counts.closed reader.generation
  omega

/-- A step fires at most one event, and disturbs no read but in a dispatch of `abort`. -/
theorem moves_log (counts : reader.Counts) (moves : Moves conversions reader label after) :
    ∃ new : Option Fired, after.log = reader.log ++ new.toList ∧
      (Quiet new.toList ↔ reader.Settles label) := by
  have calm (fired : Fired) (other : fired.type ≠ .loadend) : Quiet [fired] :=
    forall_mem_singleton.mpr fun same => absurd same other
  have none : Quiet [] := nofun
  have elsewhere {frame frames} (top : reader.frames = frame :: frames)
      (other : ∀ read, frame ≠ .aborts read) : reader.Settles .returns := by
    intro _ read head
    rw [top] at head
    exact absurd (Option.some.inj head) (other read)
  cases moves with
  | stays other =>
    refine ⟨.none, (append_nil _).symm, iff_of_true none fun same read head => ?_⟩
    rw [other same] at head
    cases head
  | reads idle => exact ⟨.none, (append_nil _).symm, iff_of_true none nofun⟩
  | aborts loading => exact ⟨some _, rfl, iff_of_true (calm _ nofun) nofun⟩
  | resets idle => exact ⟨.none, (append_nil _).symm, iff_of_true none nofun⟩
  | skips taken other old =>
    exact ⟨.none, (append_nil _).symm, iff_of_true none fun same => absurd same other⟩
  | starts taken live => exact ⟨some _, rfl, iff_of_true (calm _ nofun) nofun⟩
  | fails taken => exact ⟨.none, (append_nil _).symm, iff_of_true none nofun⟩
  | arrives taken live => exact ⟨some _, rfl, iff_of_true (calm _ nofun) nofun⟩
  | catches taken live => exact ⟨some _, rfl, iff_of_true (calm _ nofun) nofun⟩
  | drops top calm old =>
    exact ⟨.none, (append_nil _).symm, iff_of_true none (elsewhere top calm)⟩
  | begins top live =>
    exact ⟨.none, (append_nil _).symm, iff_of_true none (elsewhere top nofun)⟩
  | loads top live => exact ⟨some _, rfl, iff_of_true (calm _ nofun) (elsewhere top nofun)⟩
  | @ends reading loaded frames top live =>
    have owes : 0 < reader.owed reader.generation := by
      unfold owed
      rw [top, countP_cons_toNat, owes_ends, decide_eq_true live]
      exact Nat.succ_pos _
    exact ⟨some _, rfl, iff_of_true (forall_mem_singleton.mpr fun _ => counts.idle owes)
      (elsewhere top nofun)⟩
  | @strays read frames top =>
    refine ⟨some _, rfl, fun quiet _ _ _ => quiet _ mem_cons_self rfl, fun settles => ?_⟩
    exact forall_mem_singleton.mpr fun _ => settles rfl read (by rw [top]; rfl)

theorem quiet_append {log new : List Fired} : Quiet (log ++ new) ↔ Quiet log ∧ Quiet new :=
  forall_mem_append

section
variable (counts : reader.Counts)
include counts

theorem quiet_before (labels : List Label)
    (quiet : Quiet (labels.foldl (perform conversions) reader).log) : Quiet reader.log := by
  induction labels generalizing reader with
  | nil => exact quiet
  | cons label rest ih =>
    have moves := @perform_moves conversions reader label
    obtain ⟨new, log, _⟩ := moves_log counts moves
    have after := ih (counts_moves counts moves) quiet
    rw [log] at after
    exact (quiet_append.mp after).1

theorem quiet_iff (quiet : Quiet reader.log) (labels : List Label) :
    Meets (perform conversions) Settles reader labels ↔
      Quiet (labels.foldl (perform conversions) reader).log := by
  induction labels generalizing reader with
  | nil => exact iff_of_true trivial quiet
  | cons label rest ih =>
    have moves := @perform_moves conversions reader label
    have counts' := counts_moves counts moves
    obtain ⟨new, log, settles⟩ := moves_log counts moves
    constructor
    · rintro ⟨here, later⟩
      refine (ih counts' ?_).mp later
      rw [log]
      exact quiet_append.mpr ⟨quiet, settles.mpr here⟩
    · intro all
      have after := quiet_before counts' rest all
      refine ⟨settles.mp ?_, (ih counts' after).mpr all⟩
      rw [log] at after
      exact (quiet_append.mp after).2

theorem Counts.ordered (read : Nat) :
    reader.log.countP (·.closes read) ≤ reader.log.countP (·.ends read) ∧
      reader.log.countP (·.ends read) ≤ 1 :=
  ⟨Nat.le_trans (Nat.le_add_right _ _) (counts.closed read), counts.terminals_le read⟩

theorem Counts.lifecycle (outcomes : reader.Outcomes)
    (ordered : Ordered reader.log) : reader.Lifecycle where
  ordered := ordered
  ended := counts.ended
  going read among going := by
    have live := counts.live
    rw [going.2, if_pos going.1] at live
    exact ⟨counts.going read (.inr going), live⟩
  foreign read outside := counts.going read (.inl outside)
  once read := Nat.le_trans (Nat.le_add_left _ _) (counts.once read)
  described := outcomes.describes
  stands := outcomes.last

theorem lifecycle_from (outcomes : reader.Outcomes)
    (ordered : Ordered reader.log) (labels : List Label) :
    (labels.foldl (perform conversions) reader).Lifecycle := by
  induction labels generalizing reader with
  | nil => exact counts.lifecycle outcomes ordered
  | cons label rest ih =>
    have moves := @perform_moves conversions reader label
    have counts' := counts_moves counts moves
    refine ih counts' (outcomes_moves counts outcomes moves) ?_
    obtain ⟨new, log, _⟩ := moves_log counts moves
    have now := counts'.ordered
    rw [log] at now ⊢
    cases new with
    | none =>
      rw [Option.toList_none, append_nil]
      exact ordered
    | some fired =>
      intro earlier initial
      rcases prefix_concat_iff.mp initial with rfl | initial
      · exact now
      · exact ordered earlier initial

end

/-- Every read ends once and is described when it does. A read is not told to have ended while a
newer one goes on, exactly when no handler of `abort` leaves a read that goes on. -/
theorem lifecycle_iff (conversions : Conversions) (labels : List Label) :
    (Meets (perform conversions) Settles {} labels ↔ Quiet (run conversions labels).log) ∧
      (run conversions labels).Lifecycle := by
  refine ⟨quiet_iff counts_initial nofun labels, lifecycle_from counts_initial outcomes_initial ?_ labels⟩
  intro earlier initial
  obtain rfl := prefix_nil.mp initial
  exact fun read => ⟨Nat.le_refl 0, Nat.zero_le 1⟩

def undecoded : Conversions := ⟨fun _ _ => .error "RangeError", fun _ => ""⟩

/-- A blob is read, the read is aborted, and the handler of `abort` reads again. -/
theorem loadend_disturbs :
    let request : Request := ⟨⟨1, ""⟩, .array, ""⟩
    ∃ fired ∈ (run undecoded [.read request, .abort, .read request, .returns]).log,
      fired.type = .loadend ∧ fired.read = 1 ∧ fired.readyState = .loading :=
  ⟨_, mem_cons_of_mem _ mem_cons_self, rfl, rfl, rfl⟩

end Chuzz.Files.FileReader
