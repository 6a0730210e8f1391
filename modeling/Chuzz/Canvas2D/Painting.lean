import Chuzz.Canvas2D.Readings

/-! A painting of every dirty context in which nothing is refused: afterwards each of them shows what
the page has issued on it, unless the painting of another has made it dirty again. -/
namespace Chuzz.Canvas2D
open Library Library.Throwing

/-- The document shows of the canvas what the page has issued on it. -/
def World.shown (id : Nat) (w : World) : Prop :=
  (w.context id).commands = [] ∧ w.native.painted id = some (w.context id).issued

/-- The context is painted or waits to be. -/
def World.kept (id : Nat) (w : World) : Prop := id ∈ w.dirty ∨ w.shown id

/-- Nothing stands in the way of a switch to any context. -/
abbrev AllSmooth (host : Host) (answers : Answers) (may : Nat → Prop) (w : World) : Prop :=
  ∀ id, Smooth host answers may id w

section
variable {host : Host} {answers : Answers} {may due : Nat → Prop} {w : World} {id : Nat}

theorem allSmooth_stable : Stable host answers may (AllSmooth host answers may) where
  activate other w smooth id := Smooth.stable.activate other w (smooth id)
  stale other w smooth behind := (smooth other).booked.stale other behind
  send other action sends := Triple.every fun id =>
    (Smooth.stable.send other action sends).strengthen fun _ held => ⟨held.1 id, held.2⟩
  renew other allowed := Triple.every fun id =>
    (Smooth.stable.renew other allowed).strengthen fun _ held => held id

theorem World.shown.sent {native : Native} {other : Nat} {harmless : Op → Prop} (shown : w.shown id)
    (ledger : Ledger w) (served : Native.Served other (w.context other).size harmless
      (w.context other).commands w.native native) : (w.sent other native).shown id := by
  obtain ⟨idle, painted⟩ := shown
  by_cases same : id = other
  · subst same
    refine ⟨by simp, ?_⟩
    rw [World.sent_native, World.sent_same]
    rcases served.repainted with same | new
    · rw [same, painted]
    · rw [new, served.executed, Native.canvas_executed (ledger.spent id), idle, ledger.issued id, idle]
  · rw [shown, World.sent_other native same, World.sent_native, served.painted id same]
    exact ⟨idle, painted⟩

/-- A context that is painted or dirty stays so while the others are painted. -/
theorem kept_stable : Stable host answers may fun w => AllSmooth host answers may w ∧ w.kept id where
  activate other w held := ⟨allSmooth_stable.activate other w held.1, held.2⟩
  stale other w held behind := allSmooth_stable.stale other w held.1 behind
  send other action sends := Triple.from_state fun w ⟨⟨smooth, kept⟩, fresh⟩ => by
    have booked := (smooth other).booked
    have stays : ∀ {native : Native}, Native.Served other (w.context other).size
        (fun _ => False) (w.context other).commands w.native native → (w.sent other native).kept id :=
      fun served => kept.imp (by simp) (·.sent booked.toLedger served)
    exact (((allSmooth_stable.send other action sends).started ⟨smooth, fresh⟩).both
      (send_sent sends w (booked.pending other))).weaken (fun _ same => ⟨same, same⟩)
      (fun _ _ => fun ⟨smooth, _, same, served, _⟩ => ⟨smooth, same ▸ stays served⟩)
      fun _ => fun ⟨smooth, _, same, served⟩ => ⟨smooth, same ▸ stays served⟩
  renew other allowed := Triple.from_state fun w ⟨smooth, kept⟩ => by
    refine (((allSmooth_stable.renew other allowed).started smooth).both (renew_renewed w)).weaken
      (fun _ same => ⟨same, same⟩) ?_ ?_
    · rintro _ after ⟨smooth, _, rfl⟩
      refine ⟨smooth, ?_⟩
      have marked := mark_dirty { w.put other { size := w.sizes other } with
        native := w.native.put other { size := w.sizes other } } other
      by_cases same : id = other
      · exact .inl (same ▸ marked.2)
      · refine kept.imp (marked.1 id) fun ⟨idle, painted⟩ => ?_
        simpa [World.shown, World.context_put_other same] using ⟨idle, painted⟩
    · exact fun _ ⟨_, refused, _⟩ => absurd ((smooth other).heard other .reset) refused

theorem send_shows :
    Triple (fun w => AllSmooth host answers may w ∧ w.stale id = false) (send host answers id .paint)
      (fun _ w => AllSmooth host answers may w ∧ w.kept id) (AllSmooth host answers may) :=
  Triple.from_state fun w ⟨smooth, fresh⟩ => by
    have booked := (smooth id).booked
    refine (((allSmooth_stable.send id .paint (by decide)).started ⟨smooth, fresh⟩).both
      (send_sent (by decide) w (booked.pending id))).weaken (fun _ same => ⟨same, same⟩) ?_
      fun _ => And.left
    rintro _ _ ⟨smooth, native, rfl, served, painted⟩
    refine ⟨smooth, .inr ⟨by simp, ?_⟩⟩
    rw [World.sent_native, World.sent_same, painted rfl, served.executed,
      Native.canvas_executed (booked.spent id)]
    exact congrArg some (booked.issued id).symm

section
variable (deep : 2 ≤ host.frames) (answered : ∀ other, answers.fails other .paint = none)
include deep answered

theorem flush_returns :
    Triple (AllSmooth host answers may) (flush host answers (order host answers host.frames) id .paint)
      (fun _ _ => True) fun _ => False :=
  (flush_smooth deep (by decide) fun _ => answered id).weaken (fun _ smooth => smooth id)
    (fun _ _ _ => trivial) fun _ => False.elim

theorem flush_shows :
    Triple (AllSmooth host answers may) (flush host answers (order host answers host.frames) id .paint)
      (fun _ w => AllSmooth host answers may w ∧ w.kept id) fun _ => False := by
  have stable : Stable host answers may (AllSmooth host answers may) := allSmooth_stable
  refine Triple.returning (E := AllSmooth host answers may) ?_ (flush_returns deep answered)
  exact Triple.next (Keeps.provided fun _ => stable.order host.frames id) fun _ =>
    Triple.next (stable.ensure (stable.order host.frames) id) fun _ => send_shows

theorem paintEach_keeps (ids : List Nat) :
    Triple (fun w => AllSmooth host answers may w ∧ w.kept id) (paintEach host answers ids)
      (fun _ w => w.kept id) fun _ => False := by
  have stable : Stable host answers may fun w => AllSmooth host answers may w ∧ w.kept id :=
    kept_stable
  induction ids with
  | nil => exact Triple.returned fun _ => And.right
  | cons first rest ih =>
    refine Triple.next (Triple.returning (stable.flush (stable.order host.frames) (by decide) first)
      ((flush_returns deep answered).strengthen fun _ => And.left)) fun _ => ih

theorem paintEach_shows {ids : List Nat} (member : id ∈ ids) :
    Triple (AllSmooth host answers may) (paintEach host answers ids) (fun _ w => w.kept id)
      fun _ => False := by
  induction ids with
  | nil => contradiction
  | cons first rest ih =>
    rcases List.mem_cons.mp member with rfl | member
    · exact Triple.next (flush_shows deep answered) fun _ => paintEach_keeps deep answered rest
    · exact Triple.next ((flush_shows deep answered).weaken (fun _ held => held)
        (fun _ _ => And.left) fun _ held => held) fun _ => ih member

theorem paintEach_returns (ids : List Nat) :
    Triple (AllSmooth host answers may) (paintEach host answers ids) (fun _ _ => True)
      fun _ => False := by
  induction ids with
  | nil => exact Triple.returned fun _ _ => trivial
  | cons first rest ih =>
    exact Triple.next ((flush_shows deep answered).weaken (fun _ held => held)
      (fun _ _ => And.left) fun _ held => held) fun _ => ih

theorem paintEach_keeps_all (ids : List Nat) :
    Triple (AllSmooth host answers may) (paintEach host answers ids)
      (fun _ w => ∀ id, id ∈ ids → w.kept id) fun _ => False := by
  refine (Triple.every (E := fun _ _ => False) fun id => ?_).weaken (fun _ smooth => smooth)
    (fun _ _ kept => kept) fun _ none => none 0
  by_cases member : id ∈ ids
  · exact (paintEach_shows deep answered member).weaken (fun _ smooth => smooth)
      (fun _ _ kept _ => kept) fun _ none => none
  · exact (paintEach_returns deep answered ids).weaken (fun _ smooth => smooth)
      (fun _ _ _ here => absurd here member) fun _ none => none

end

/-- The context that is going to draw is painted first, and then nobody is going to. -/
theorem paintEach_settles (ids : List Nat) :
    Triple (fun w => Attended host answers may (· ∈ ids) w ∧ w.dirty = [])
      (paintEach host answers ids) (fun _ w => Core host answers may w ∧ w.still) fun _ => True := by
  cases ids with
  | nil =>
    refine Triple.returned fun w ⟨⟨core, attended⟩, clean⟩ => ⟨core, fun other waits => ?_⟩
    simpa [clean] using (attended other waits).2
  | cons first rest =>
    refine Triple.next (((flush_settles host.frames (by decide) (by decide))).weaken
      (fun _ => And.left) (fun _ _ held => held) fun _ _ => trivial) fun _ => ?_
    have stable : Stable host answers may fun w => Core host answers may w ∧ w.still := still_stable
    induction rest with
    | nil => exact Triple.returned fun _ held => held
    | cons next rest ih =>
      exact Triple.next ((stable.flush (stable.order host.frames) (by decide) next).weaken
        (fun _ held => held) (fun _ _ held => held) fun _ _ => trivial) fun _ => ih

end
end Chuzz.Canvas2D
