import Chuzz.Canvas2D.Ledger

/-! When a switch throws nothing: the native side carries out all that is pending and accepts the
resets, and no two contexts wait for each other's reset. -/
namespace Chuzz.Canvas2D
open Library.Throwing

/-- Nothing stands in the way of a switch to the context. -/
structure Smooth (host : Host) (answers : Answers) (may : Nat → Prop) (id : Nat) (w : World) :
    Prop where
  booked : Booked host answers (fun _ => False) may w
  heard : ∀ other action, answers.rejects other action = none
  alone : w.stale id = true → ∀ other, other ≠ id → w.stale other = false

section
variable {host : Host} {answers : Answers} {may : Nat → Prop} {id previous : Nat} {w : World}

theorem Smooth.shrinks {later : World} (smooth : Smooth host answers may id w)
    (booked : Booked host answers (fun _ => False) may later)
    (shrinks : ∀ other, later.stale other = true → w.stale other = true) :
    Smooth host answers may id later where
  booked := booked
  heard := smooth.heard
  alone behind other apart := by
    have fresh := smooth.alone (shrinks id behind) other apart
    by_contra stale
    simp [shrinks other (by simpa using stale)] at fresh

/-- Smoothness is kept by whatever keeps the books and makes no context stale. -/
theorem Smooth.stable : Stable host answers may (Smooth host answers may id) where
  activate other w smooth := smooth.shrinks (Booked.stable.activate other w smooth.booked)
    fun _ behind => behind
  stale other w smooth behind := smooth.booked.stale other behind
  send other action sends := Triple.from_state fun w held =>
    ((((Booked.stable.send other action sends).both
      ((Shrunk.durable host answers w).send other action sends)).started
        ⟨⟨held.1.booked, held.2⟩, .refl w, held.2⟩).weaken (fun _ same => same)
        (fun _ _ reached => held.1.shrinks reached.1 reached.2.stale)
        fun _ reached => held.1.shrinks reached.1 reached.2.stale)
  renew other allowed := Triple.from_state fun w smooth =>
    (((Booked.stable.renew other allowed).both ((Shrunk.durable host answers w).renew other trivial)).started
      ⟨smooth.booked, .refl w⟩).weaken (fun _ same => same)
      (fun _ _ reached => smooth.shrinks reached.1 reached.2.stale)
      fun _ reached => smooth.shrinks reached.1 reached.2.stale

theorem send_returns {action : Action} (sends : action ≠ .reset)
    (carried : Native.Carried host w.native id (w.context id).size (w.context id).commands)
    (heard : (w.context id).commands = [] → answers.rejects id action = none)
    (answered : action ≠ .submit → answers.fails id action = none) :
    Triple (· = w) (send host answers id action) (fun _ _ => True) fun _ => False := by
  rintro s rfl
  obtain ⟨after, served⟩ := Native.serve_returns sends carried heard answered
  have unchanged : (s.emptied id).native = s.native := rfl
  simp only [send, native, unchanged, served]

theorem renew_returns (accepted : answers.rejects id .reset = none) :
    Triple (fun _ => True) (renew host answers id) (fun _ _ => True) fun _ => False :=
  Triple.from_state fun w _ => (renew_renewed w).weaken (fun _ same => same)
    (fun _ _ _ => trivial) fun _ refused => refused.1 accepted

section
variable {switch : Nat → Script Unit}

/-- A context that has seen its element's size is sent without a switch. -/
theorem send_smooth {action : Action} (sends : action ≠ .reset)
    (answered : action ≠ .submit → answers.fails previous action = none) :
    Triple (fun w => Smooth host answers may id w ∧ w.stale previous = false)
      (send host answers previous action) (fun _ => Smooth host answers may id)
      fun _ => False :=
  Triple.from_state fun _ held =>
    ((Smooth.stable.send previous action sends).started held).returning
      (send_returns sends (held.1.booked.pending previous) (fun _ => held.1.heard previous action)
        answered)

section
variable (smooth : Smooth host answers may id w)
  (switches : w.stale previous = true → Triple (· = w) (switch previous) (fun _ => Smooth host answers may id) fun _ => False)
include smooth switches

/-- Bringing a context up to its element's size, where the switch that this takes throws
nothing. -/
theorem ensure_returns : Triple (· = w) (ensure host answers switch previous)
      (fun _ after => Smooth host answers may id after ∧ after.stale previous = false)
      fun _ => False := by
  refine Triple.looked fun s same => ?_
  subst same
  refine Triple.provided (fun behind => Triple.next (switches behind) fun _ => ?_)
    fun fresh _ same => same ▸ ⟨smooth, fresh⟩
  have stable : Stable host answers may (Smooth host answers may id) := Smooth.stable
  have renewed := (stable.renew previous (smooth.booked.stale previous behind)).both renew_fresh
  exact (renewed.strengthen fun _ held => ⟨held, trivial⟩).returning
    ((renew_returns (smooth.heard previous .reset)).strengthen fun _ _ => trivial)

theorem submit_returns : Triple (· = w) (submit host answers switch previous)
      (fun _ after => Smooth host answers may id after) fun _ => False := by
  refine Triple.next (ensure_returns smooth switches) fun _ => Triple.looked fun s held => ?_
  refine Triple.provided (fun _ => ?_) fun _ _ same => same ▸ held.1
  refine Triple.next (R := fun _ => (· = s)) (Triple.returned fun _ same => same) fun _ => ?_
  refine Triple.next (R := fun _ after => Smooth host answers may id after ∧
    after.stale previous = false) ?_ fun _ => send_smooth (by decide) nofun
  exact Triple.looked fun t same => Triple.provided
    (fun behind => by
      subst same
      exact absurd (held.2.symm.trans behind) (by decide))
    fun _ _ here => here ▸ same ▸ held

end

end

theorem order_fresh (frames : Nat) (smooth : Smooth host answers may id w)
    (fresh : ∀ other, w.active = some other → other ≠ previous → w.stale other = false) :
    Triple (· = w) (order host answers (frames + 1) previous)
      (fun _ => Smooth host answers may id) fun _ => False := by
  refine Triple.looked fun s same => ?_
  subst same
  refine Triple.next (R := fun _ => (· = s.activate (some previous)))
    (Triple.modified fun _ same => same ▸ rfl) fun _ => ?_
  have smooth : Smooth host answers may id (s.activate (some previous)) :=
    Smooth.stable.activate previous s smooth
  cases active : s.active with
  | none => exact Triple.returned fun _ same => same ▸ smooth
  | some other =>
    refine Triple.provided (fun apart => submit_returns smooth fun behind => ?_)
      fun _ _ same => same ▸ smooth
    exact absurd ((fresh other active (by simpa using apart)).symm.trans behind) (by decide)

/-- A switch to a context that no other waits for: at most one reset is nested in it. -/
theorem order_smooth (frames : Nat) :
    Triple (Smooth host answers may id) (order host answers (frames + 2) id)
      (fun _ => Smooth host answers may id) fun _ => False := by
  refine Triple.looked fun s smooth => ?_
  refine Triple.next (R := fun _ => (· = s.activate (some id)))
    (Triple.modified fun _ same => same ▸ rfl) fun _ => ?_
  have here : Smooth host answers may id (s.activate (some id)) :=
    Smooth.stable.activate id s smooth
  cases s.active with
  | none => exact Triple.returned fun _ same => same ▸ here
  | some other =>
    refine Triple.provided (fun apart => submit_returns here fun behind => ?_)
      fun _ _ same => same ▸ here
    -- The other context is reset, and switches back to this one, which is no longer stale.
    refine order_fresh frames here fun active same apart' => ?_
    obtain rfl : id = active := by simpa [World.activate] using same
    by_contra stale
    have fresh := here.alone (by simpa using stale) other (by simpa using apart)
    exact absurd (fresh.symm.trans behind) (by decide)

theorem switch_smooth (deep : 2 ≤ host.frames) :
    Triple (Smooth host answers may id) (order host answers host.frames id)
      (fun _ => Smooth host answers may id) fun _ => False := by
  obtain ⟨frames, nested⟩ := Nat.exists_eq_add_of_le' deep
  rw [nested]
  exact order_smooth frames

theorem ensure_smooth (deep : 2 ≤ host.frames) :
    Triple (Smooth host answers may id) (ensure host answers (order host answers host.frames) id)
      (fun _ after => Smooth host answers may id after ∧ after.stale id = false)
      fun _ => False :=
  Triple.from_state fun _ smooth =>
    ensure_returns smooth fun _ => (switch_smooth deep).started smooth

theorem flush_smooth {action : Action} (deep : 2 ≤ host.frames) (sends : action ≠ .reset)
    (answered : action ≠ .submit → answers.fails id action = none) :
    Triple (Smooth host answers may id)
      (flush host answers (order host answers host.frames) id action)
      (fun _ => Smooth host answers may id) fun _ => False :=
  Triple.next (Triple.provided (fun _ => switch_smooth deep) fun _ _ smooth => smooth) fun _ =>
    Triple.next (ensure_smooth deep) fun _ => send_smooth sends answered

theorem room_smooth (deep : 2 ≤ host.frames) (bytes : Nat) :
    Triple (Smooth host answers may id)
      (room host answers (order host answers host.frames) id bytes)
      (fun _ => Smooth host answers may id) fun _ => False :=
  Triple.looked fun _ smooth => Triple.provided
    (fun _ => (flush_smooth deep (by decide) nofun).started smooth)
    fun _ _ same => same ▸ smooth

theorem record_returns {op : Op} {n : List Number} (deep : 2 ≤ host.frames) :
    Triple (Smooth host answers may id) (record host answers id op n none) (fun _ _ => True)
      fun _ => False :=
  Triple.next (switch_smooth deep) fun _ =>
    Triple.next ((ensure_smooth deep).weaken (fun _ held => held) (fun _ _ => And.left)
      fun _ held => held) fun _ =>
    Triple.next (room_smooth deep 0) fun _ =>
    Triple.looked fun w smooth =>
    Triple.next (R := fun _ => Smooth host answers may id)
      (Triple.returned fun _ same => same ▸ smooth) fun _ =>
    Triple.next (R := fun _ _ => True) (Triple.modified fun _ _ => trivial) fun _ =>
      Triple.modified fun _ _ => trivial

end
end Chuzz.Canvas2D
