import Chuzz.Canvas2D.Switching

/-! What was recorded and what the native side has had. As long as no batch is refused before its
last command and no reset is refused that would have taken something away, every command recorded
on a context since its reset has had its turn or still waits in the queue. -/
namespace Chuzz.Canvas2D
open Library.Throwing

/-- The commands of a context are had or waiting, and its canvas has the size the context knows,
unless it has had none. -/
structure Ledger (w : World) : Prop where
  issued : ∀ id, (w.context id).issued =
    w.native.executed id ++ (w.context id).commands.map Command.serial
  spent : ∀ id canvas, w.native.canvases id = some canvas →
    canvas.size = (w.context id).size ∨ canvas.executed = []
  unreturned : ∀ id, w.returned id = false →
    (w.context id).commands = [] ∧ (w.context id).issued = []

/-- What can be said before a call of the requests it may make. `may` are the contexts that it
may reset. -/
structure Booked (host : Host) (answers : Answers) (harmless : Op → Prop) (may : Nat → Prop)
    (w : World) : Prop extends Ledger w where
  pending : ∀ id, Native.Sendable host harmless w.native id (w.context id).size
    (w.context id).commands
  resets : ∀ id, may id → answers.rejects id .reset = none ∨
    w.native.executed id = [] ∧ (w.context id).commands = []
  stale : ∀ id, w.stale id = true → may id
  fresh : ∀ id, w.returned id = false → may id

section
variable {host : Host} {answers : Answers} {harmless : Op → Prop} {may : Nat → Prop} {w : World}
  {id : Nat}

theorem Booked.narrow {fewer : Nat → Prop} (booked : Booked host answers harmless may w)
    (includes : ∀ id, fewer id → may id) (stale : ∀ id, w.stale id = true → fewer id)
    (fresh : ∀ id, w.returned id = false → fewer id) : Booked host answers harmless fewer w :=
  ⟨booked.toLedger, booked.pending, fun id allowed => booked.resets id (includes id allowed),
    stale, fresh⟩

theorem Booked.congr {later : World} (booked : Booked host answers harmless may w)
    (contexts : later.context = w.context) (created : later.created = w.created)
    (returned : later.returned = w.returned)
    (sizes : later.sizes = w.sizes) (native : later.native = w.native) :
    Booked host answers harmless may later := by
  have same : ∀ id, later.context id = w.context id := fun id => by rw [contexts]
  have behind : ∀ id, later.stale id = w.stale id := fun id => by
    unfold World.stale
    rw [contexts, created, sizes]
  refine ⟨⟨fun id => ?_, fun id => ?_, fun id => ?_⟩, fun id => ?_, fun id => ?_, fun id => ?_,
    fun id => ?_⟩
  · rw [same, native]
    exact booked.issued id
  · rw [same, native]
    exact booked.spent id
  · rw [same, returned]
    exact booked.unreturned id
  · rw [same, native]
    exact booked.pending id
  · rw [same, native]
    exact booked.resets id
  · rw [behind]
    exact booked.stale id
  · rw [returned]
    exact booked.fresh id

theorem Booked.sent {native : Native} (booked : Booked host answers harmless may w)
    (served : Native.Served id (w.context id).size harmless (w.context id).commands w.native
      native) : Booked host answers harmless may (w.sent id native) := by
  have grown := served.executed_after (booked.spent id)
  have apart : ∀ other, other ≠ id → native.executed other = w.native.executed other :=
    fun other apart => by rw [Native.executed, Native.executed, served.others other apart]
  refine ⟨⟨fun other => ?_, fun other => ?_, fun other unreturned => ?_⟩, fun other => ?_,
    fun other allowed => ?_, fun other behind => ?_, fun other unreturned => ?_⟩
  · by_cases same : other = id
    · subst same
      simp [grown, booked.issued]
    · rw [World.sent_other native same, World.sent_native, apart other same]
      exact booked.issued other
  · by_cases same : other = id
    · subst same
      rw [World.sent_same, World.sent_native]
      rcases served.fits with ⟨unchanged, _⟩ | ⟨next, present, fits⟩
      · rw [unchanged]
        exact booked.spent other
      · intro canvas found
        left
        rwa [← Option.some.inj (present.symm.trans found)]
    · rw [World.sent_other native same, World.sent_native, served.others other same]
      exact booked.spent other
  · have fresh := booked.unreturned other (by simpa using unreturned)
    by_cases same : other = id
    · subst same
      rw [World.sent_same]
      exact ⟨rfl, fresh.2⟩
    · rw [World.sent_other native same]
      exact fresh
  · by_cases same : other = id
    · subst same
      rw [World.sent_same]
      exact fun batch => absurd rfl batch
    · rw [World.sent_other native same, World.sent_native]
      exact (booked.pending other).congr (fun _ => served.remains) served.bitmaps
        (served.others other same)
  · rcases booked.resets other allowed with accepted | ⟨none, idle⟩
    · exact .inl accepted
    · by_cases same : other = id
      · subst same
        exact .inr ⟨by simp [grown, none, idle], by simp⟩
      · exact .inr ⟨by rw [World.sent_native, apart other same, none],
          by rw [World.sent_other native same, idle]⟩
  · refine booked.stale other ?_
    rwa [← World.sent_stale]
  · exact booked.fresh other (by simpa using unreturned)

/-- A context whose record is begun anew, on whatever native side it agrees with. -/
theorem Booked.begun {native : Native} (booked : Booked host answers harmless may w)
    (others : ∀ other, other ≠ id → native.canvases other = w.native.canvases other)
    (remains : ∀ other, (w.native.canvases other).isSome = true →
      (native.canvases other).isSome = true)
    (bitmaps : native.bitmaps = w.native.bitmaps)
    (blank : native.executed id = [])
    (spent : ∀ canvas, native.canvases id = some canvas →
      canvas.size = w.sizes id ∨ canvas.executed = []) :
    Booked host answers harmless may { w.put id { size := w.sizes id } with native } := by
  have there : (w.put id { size := w.sizes id }).context id = { size := w.sizes id } :=
    World.context_put_same
  have away : ∀ other, other ≠ id →
      (w.put id { size := w.sizes id }).context other = w.context other :=
    fun other apart => World.context_put_other apart
  refine ⟨⟨fun other => ?_, fun other => ?_, fun other unreturned => ?_⟩, fun other => ?_,
    fun other allowed => ?_, fun other behind => ?_, booked.fresh⟩ <;>
    by_cases same : other = id
  · subst same
    simp only [there, blank, List.map_nil, List.append_nil]
  · simp only [away other same, Native.executed, others other same]
    exact booked.issued other
  · subst same
    simp only [there]
    exact spent
  · simp only [away other same, others other same]
    exact booked.spent other
  · subst same
    simp only [there, and_self]
  · simp only [away other same]
    exact booked.unreturned other unreturned
  · subst same
    simp only [there]
    exact fun batch => absurd rfl batch
  · simp only [away other same]
    exact (booked.pending other).congr remains bitmaps (others other same)
  · subst same
    simp only [there, blank, and_self, or_true]
  · simp only [away other same, Native.executed, others other same]
    exact booked.resets other allowed
  · subst same
    simp [World.stale, World.put] at behind
  · refine booked.stale other ?_
    simpa [World.stale, World.put, same] using behind

theorem Booked.stable : Stable host answers may (Booked host answers harmless may) where
  activate id w booked := booked.congr rfl rfl rfl rfl rfl
  stale id w booked behind := booked.stale id behind
  send id action sends := Triple.from_state fun w held =>
    (send_sent sends w (held.1.pending id)).weaken (fun _ same => same)
      (fun _ _ => fun ⟨_, same, served, _⟩ => same ▸ held.1.sent served)
      fun _ => fun ⟨_, same, served⟩ => same ▸ held.1.sent served
  renew id allowed := Triple.from_state fun w booked => by
    refine (renew_renewed w).weaken (fun _ same => same) ?_ ?_
    · rintro _ _ ⟨_, rfl⟩
      refine Booked.congr (w := { w.put id { size := w.sizes id } with
        native := w.native.put id { size := w.sizes id } }) ?_ rfl rfl rfl rfl rfl
      refine booked.begun (fun other apart => Native.put_other _ _ apart)
        (fun other there => ?_) rfl (Native.executed_present (Native.put_same ..)) ?_
      · by_cases same : other = id
        · simp [same]
        · rwa [Native.put_other _ _ same]
      · intro canvas present
        rw [Native.put_same, Option.some.injEq] at present
        exact .inl (by rw [← present])
    · rintro _ ⟨refused, rfl⟩
      obtain ⟨none, idle⟩ := (booked.resets id allowed).resolve_left refused
      refine booked.begun (fun _ _ => rfl) (fun _ there => there) rfl none ?_
      intro canvas present
      exact .inr (by rwa [Native.executed_present present] at none)

/-- A context that was never returned has nothing to its record. -/
theorem Ledger.fresh (ledger : Ledger w) (unreturned : w.returned id = false) :
    w.native.executed id = [] := by
  have issued := ledger.issued id
  rw [(ledger.unreturned id unreturned).1, (ledger.unreturned id unreturned).2] at issued
  simpa using issued.symm

section
variable (booked : Booked host answers harmless may w)
include booked

theorem Booked.created (unreturned : w.returned id = false) : Booked host answers harmless may (w.create id) := by
  have blank := booked.toLedger.fresh unreturned
  have begun : Booked host answers harmless may
      { w.put id { size := w.sizes id } with native := w.native } :=
    booked.begun (fun _ _ => rfl) (fun _ there => there)
    rfl blank fun canvas present => .inr (by rwa [Native.executed_present present] at blank)
  refine ⟨⟨begun.issued, begun.spent, begun.unreturned⟩, begun.pending, begun.resets,
    fun other behind => ?_, begun.fresh⟩
  by_cases same : other = id
  · exact same ▸ booked.fresh id unreturned
  · refine begun.stale other ?_
    simpa [World.stale, World.create, World.put, same] using behind

theorem Booked.granted (id : Nat) : Booked host answers harmless may
      { w with returned := Function.update w.returned id true } := by
  refine ⟨⟨booked.issued, booked.spent, fun other unreturned => ?_⟩, booked.pending,
    booked.resets, booked.stale, fun other unreturned => ?_⟩
  all_goals
    by_cases same : other = id
    · simp [same] at unreturned
    · have unreturned : w.returned other = false := by simpa [same] using unreturned
      first | exact booked.unreturned other unreturned | exact booked.fresh other unreturned

theorem Booked.carried {context : Context} (size : context.size = (w.context id).size)
    (commands : context.commands = (w.context id).commands)
    (issued : context.issued = (w.context id).issued) :
    Booked host answers harmless may (w.put id context) := by
  have same : ∀ other, ((w.put id context).context other).size = (w.context other).size ∧
      ((w.put id context).context other).commands = (w.context other).commands ∧
      ((w.put id context).context other).issued = (w.context other).issued := by
    intro other
    by_cases same : other = id
    · subst same
      simp [size, commands, issued]
    · simp [World.context_put_other same]
  refine ⟨⟨fun other => ?_, fun other => ?_, fun other => ?_⟩, fun other => ?_, fun other => ?_,
    fun other behind => booked.stale other ?_, booked.fresh⟩
  · rw [(same other).2.1, (same other).2.2]
    exact booked.issued other
  · rw [(same other).1]
    exact booked.spent other
  · rw [(same other).2.1, (same other).2.2]
    exact booked.unreturned other
  · rw [(same other).1, (same other).2.1]
    exact booked.pending other
  · rw [(same other).2.1]
    exact booked.resets other
  · rw [← behind, World.stale, World.stale, (same other).1]
    rfl

end

theorem Booked.durable : Durable host answers may (Booked host answers harmless may) where
  toStable := Booked.stable
  create id w booked unreturned := ⟨booked.fresh id unreturned, booked.created unreturned⟩
  grant id w booked := booked.granted id
  deactivate w booked := booked.congr rfl rfl rfl rfl rfl
  mark id w booked := booked.congr rfl rfl rfl rfl rfl
  carry id _ _ w booked := booked.carried rfl rfl rfl

theorem Ledger.pushed (ledger : Ledger w) (returned : w.returned id = true) (op : Op)
    (n matrix : List Number) (image : Option Source) : Ledger (w.push id op n matrix image) := by
  have size : ∀ other, ((w.push id op n matrix image).context other).size =
      (w.context other).size := by
    intro other
    by_cases same : other = id
    · simp [World.push, World.put, same]
    · simp [World.push, World.put, same]
  refine ⟨fun other => ?_, fun other => by rw [size]; exact ledger.spent other,
    fun other unreturned => ?_⟩ <;> by_cases same : other = id
  · subst same
    have issued := ledger.issued other
    simp [World.push, World.put, issued]
  · have issued := ledger.issued other
    simpa [World.push, World.put, same] using issued
  · subst same
    exact absurd (returned.symm.trans unreturned) (by decide)
  · have fresh := ledger.unreturned other unreturned
    simpa [World.push, World.put, same] using fresh

end
end Chuzz.Canvas2D
