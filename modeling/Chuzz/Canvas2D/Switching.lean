import Chuzz.Canvas2D.Batches
import Chuzz.Canvas2D.Page

/-! Switching from one context to another, the heart of every call. Whatever is kept by taking a
queue, by renewing a context and by the change of the active context is kept by all of it, however
deep the calls nest and wherever one of them throws. -/
namespace Chuzz.Canvas2D
open Library.Throwing

namespace World
variable {w : World} {id other : Nat} {context : Context}

@[simp] theorem context_put_same : (w.put id context).context id = context := by
  simp [put]

theorem context_put_other (apart : other ≠ id) :
    (w.put id context).context other = w.context other := by
  simp [put, apart]

@[simp] theorem context_activate (active : Option Nat) :
    (w.activate active).context id = w.context id := rfl

@[simp] theorem context_mark : (w.mark other).context id = w.context id := rfl

@[simp] theorem context_native (native : Native) :
    World.context { w with native } id = w.context id := rfl

@[simp] theorem context_released : (w.released other).context id = w.context id := by
  unfold released
  split <;> rfl

@[simp] theorem native_released : (w.released id).native = w.native := by
  unfold released
  split <;> rfl

@[simp] theorem dirty_released : (w.released id).dirty = w.dirty := by
  unfold released
  split <;> rfl

@[simp] theorem sizes_released : (w.released id).sizes = w.sizes := by
  unfold released
  split <;> rfl

@[simp] theorem created_released : (w.released id).created = w.created := by
  unfold released
  split <;> rfl

@[simp] theorem returned_released : (w.released id).returned = w.returned := by
  unfold released
  split <;> rfl

end World

section
variable {host : Host} {answers : Answers} {I : World → Prop} {id other : Nat} {w : World}

/-- The world that a native request of `send` leaves. -/
def World.sent (w : World) (id : Nat) (native : Native) : World :=
  World.released id { w.emptied id with native }

theorem send_sent {harmless : Op → Prop} {action : Action} (sends : action ≠ .reset) (w : World)
    (sendable : Native.Sendable host harmless w.native id (w.context id).size
      (w.context id).commands) :
    Triple (· = w) (send host answers id action)
      (fun _ after => ∃ native, after = w.sent id native ∧
        Native.Served id (w.context id).size harmless (w.context id).commands w.native native ∧
        (action = .paint → native.painted id =
          some (native.canvas id (w.context id).size).executed))
      (fun after => ∃ native, after = w.sent id native ∧
        Native.Served id (w.context id).size harmless (w.context id).commands w.native native) := by
  rintro s rfl
  have served := Native.serve_served answers sends sendable s.native rfl
  have unchanged : (s.emptied id).native = s.native := rfl
  simp only [send, native, unchanged]
  cases ran : Native.serve host answers
      ⟨action, id, (s.context id).size, (s.context id).commands⟩ s.native with
  | ok value native =>
    rw [ran] at served
    exact ⟨native, rfl, served⟩
  | error error native =>
    rw [ran] at served
    exact ⟨native, rfl, served⟩

theorem send_empties {action : Action} (w : World) :
    Triple (· = w) (send host answers id action) (fun _ after => ∃ native, after = w.sent id native)
      (fun after => ∃ native, after = w.sent id native) := by
  rintro s rfl
  have unchanged : (s.emptied id).native = s.native := rfl
  simp only [send, native, unchanged]
  cases Native.serve host answers ⟨action, id, (s.context id).size, (s.context id).commands⟩
      s.native with
  | ok value native => exact ⟨native, rfl⟩
  | error error native => exact ⟨native, rfl⟩

@[simp] theorem World.sent_native (native : Native) : (w.sent id native).native = native := by
  simp [sent]

@[simp] theorem World.sent_sizes (native : Native) : (w.sent id native).sizes = w.sizes := by
  simp [sent, emptied, put]

@[simp] theorem World.sent_dirty (native : Native) : (w.sent id native).dirty = w.dirty := by
  simp [sent, emptied, put]

@[simp] theorem World.sent_created (native : Native) :
    (w.sent id native).created = w.created := by
  simp [sent, emptied, put]

@[simp] theorem World.sent_returned (native : Native) :
    (w.sent id native).returned = w.returned := by
  simp [sent, emptied, put]

@[simp] theorem World.sent_same (native : Native) : (w.sent id native).context id =
    { w.context id with commands := [], buffers := 0, transferBytes := 0 } := by
  simp [sent, emptied]

theorem World.sent_other (native : Native) (apart : other ≠ id) :
    (w.sent id native).context other = w.context other := by
  simp [sent, emptied, context_put_other apart]

@[simp] theorem World.sent_stale (native : Native) :
    (w.sent id native).stale other = w.stale other := by
  by_cases same : other = id
  · subst same
    simp [stale]
  · simp [stale, sent_other native same]

/-- What `reset` leaves of a context, and what the native side answered. -/
theorem renew_renewed (w : World) :
    Triple (· = w) (renew host answers id)
      (fun _ after => answers.rejects id .reset = none ∧
        after = World.mark id { w.put id { size := w.sizes id } with
          native := w.native.put id { size := w.sizes id } })
      (fun after => answers.rejects id .reset ≠ none ∧
        after = w.put id { size := w.sizes id }) := by
  rintro s rfl
  unfold renew
  rw [modify_bind, get_bind]
  have asked : native host answers { action := .reset, id, size := s.sizes id, commands := [] }
      (s.put id { size := s.sizes id }) =
      (answers.rejects id .reset).elim
        (.ok () { s.put id { size := s.sizes id } with
          native := s.native.put id { size := s.sizes id } })
        fun error => .error error (s.put id { size := s.sizes id }) := by
    have served := Native.serve_reset host answers id (s.sizes id) s.native
    have unchanged : (s.put id { size := s.sizes id }).native = s.native := rfl
    unfold native
    rw [unchanged, served]
    cases answers.rejects id .reset <;> rfl
  simp only [World.context_put_same]
  cases answered : answers.rejects id .reset with
  | none =>
    rw [answered] at asked
    rw [bind_ok asked]
    exact ⟨rfl, rfl⟩
  | some error =>
    rw [answered] at asked
    rw [bind_error asked]
    exact ⟨(by rintro ⟨⟩), rfl⟩

/-- What is kept by the three things that switching from context to context does. -/
structure Stable (host : Host) (answers : Answers) (may : Nat → Prop) (I : World → Prop) :
    Prop where
  activate : ∀ id w, I w → I (w.activate (some id))
  stale : ∀ id w, I w → w.stale id = true → may id
  send : ∀ id action, action ≠ .reset →
    Triple (fun w => I w ∧ w.stale id = false) (send host answers id action) (fun _ => I) I
  renew : ∀ id, may id → Keeps I (renew host answers id)

theorem renew_fresh : Triple (fun _ => True) (renew host answers id)
    (fun _ w => w.stale id = false) fun _ => True := by
  refine Triple.from_state fun w _ => (renew_renewed w).weaken (fun _ same => same) ?_
    fun _ _ => trivial
  rintro _ _ ⟨_, rfl⟩
  simp [World.stale, World.mark, World.put]

namespace Stable
variable {may : Nat → Prop} (stable : Stable host answers may I) {switch : Nat → Script Unit}
  (switches : ∀ id, Keeps I (switch id))
include stable switches

theorem reset (allowed : may id) :
    Triple I (reset host answers switch id) (fun _ w => I w ∧ w.stale id = false) I :=
  Triple.next (switches id) fun _ =>
    ((stable.renew id allowed).both renew_fresh).weaken (fun _ held => ⟨held, trivial⟩)
      (fun _ _ held => held) fun _ held => held.1

theorem ensure (id : Nat) :
    Triple I (ensure host answers switch id) (fun _ w => I w ∧ w.stale id = false) I := by
  refine Triple.looked fun w held => Triple.provided (fun behind => ?_) fun fresh s same => ?_
  · exact (stable.reset switches (stable.stale id w held behind)).started held
  · exact same ▸ ⟨held, fresh⟩

theorem flush (sends : action ≠ .reset) (id : Nat) :
    Keeps I (flush host answers switch id action) :=
  Keeps.next (Keeps.provided fun _ => switches id) fun _ =>
    Triple.next (stable.ensure switches id) fun _ => stable.send id _ sends

theorem submit (id : Nat) : Keeps I (submit host answers switch id) :=
  Triple.next (stable.ensure switches id) fun _ => Triple.looked fun w held =>
    Triple.provided
      (fun _ => (stable.flush switches (by decide) id).started held.1)
      fun _ s same => same ▸ held.1

theorem room (id bytes : Nat) : Keeps I (room host answers switch id bytes) :=
  Triple.looked fun w held =>
    Triple.provided
      (fun _ => (stable.flush switches (by decide) id).started held)
      fun _ s same => same ▸ held

omit switches in
/-- The recursion is over the depth of the calls: to switch is to submit what was active, which
may switch again. -/
theorem order (frames id : Nat) : Keeps I (Canvas2D.order host answers frames id) := by
  induction frames generalizing id with
  | zero => exact Keeps.thrown
  | succ frames ih =>
    refine Triple.looked fun w held => Triple.next (R := fun _ => I)
      (Triple.modified fun s same => stable.activate id s (same ▸ held)) fun _ => ?_
    cases w.active with
    | none => exact Keeps.returned
    | some previous => exact Keeps.provided fun _ => stable.submit ih previous

omit switches in
theorem both {J : World → Prop} (other : Stable host answers (fun _ => True) J) :
    Stable host answers may fun w => I w ∧ J w where
  activate id w held := ⟨stable.activate id w held.1, other.activate id w held.2⟩
  stale id w held := stable.stale id w held.1
  send id action sends :=
    ((stable.send id action sends).both (other.send id action sends)).strengthen
      fun _ held => ⟨⟨held.1.1, held.2⟩, held.1.2, held.2⟩
  renew id allowed := (stable.renew id allowed).both (other.renew id trivial)

end Stable

/-- What is moreover kept by the rest of what a call does before it records a command. -/
structure Durable (host : Host) (answers : Answers) (may : Nat → Prop) (I : World → Prop) : Prop
    extends Stable host answers may I where
  create : ∀ id w, I w → w.returned id = false → may id ∧ I (w.create id)
  grant : ∀ id w, I w → I { w with returned := Function.update w.returned id true }
  deactivate : ∀ w, I w → I (w.activate none)
  mark : ∀ id w, I w → I (w.mark id)
  carry : ∀ id buffers transferBytes w, I w →
    I (w.put id { w.context id with
      buffers := (w.context id).buffers + buffers
      transferBytes := (w.context id).transferBytes + transferBytes })

/-- How far one world can be from another that it was reached from before a command was recorded:
queues are taken, and contexts catch up with their elements. -/
structure Shrunk (first w : World) : Prop where
  stale : ∀ id, w.stale id = true → first.stale id = true
  queue : ∀ id, (w.context id).commands = [] ∨
    (w.context id).commands = (first.context id).commands ∧ w.stale id = first.stale id
  returned : ∀ id, first.returned id = true → w.returned id = true

theorem Shrunk.refl (w : World) : Shrunk w w :=
  ⟨fun _ behind => behind, fun _ => .inr ⟨rfl, rfl⟩, fun _ returned => returned⟩

theorem Shrunk.begun {first later : World} (shrunk : Shrunk first w) (id : Nat)
    (same : later.context id = { size := w.sizes id })
    (others : ∀ other, other ≠ id → later.context other = w.context other ∧
      later.created other = w.created other)
    (sizes : later.sizes = w.sizes) (returned : later.returned = w.returned) :
    Shrunk first later where
  stale other behind := by
    refine shrunk.stale other ?_
    by_cases same' : other = id
    · subst same'
      simp [World.stale, same, sizes] at behind
    · obtain ⟨context, created⟩ := others other same'
      rwa [World.stale, context, created, sizes] at behind
  queue other := by
    by_cases same' : other = id
    · subst same'
      exact .inl (by rw [same])
    · obtain ⟨context, created⟩ := others other same'
      rw [World.stale, context, created, sizes]
      exact shrunk.queue other
  returned other := by
    rw [returned]
    exact shrunk.returned other

theorem Shrunk.sent {first : World} (shrunk : Shrunk first w) (native : Native) :
    Shrunk first (w.sent id native) where
  stale other behind := shrunk.stale other (by simpa using behind)
  queue other := by
    by_cases same : other = id
    · subst same
      exact .inl (by simp)
    · rw [World.sent_other native same, World.sent_stale]
      exact shrunk.queue other
  returned other held := by simpa using shrunk.returned other held

theorem Shrunk.durable (host : Host) (answers : Answers) (first : World) :
    Durable host answers (fun _ => True) (Shrunk first) where
  activate _ _ shrunk := ⟨shrunk.stale, shrunk.queue, shrunk.returned⟩
  stale _ _ _ _ := trivial
  send id action _ := Triple.from_state fun w held => (send_empties w).weaken
    (fun _ same => same) (fun _ _ => fun ⟨native, same⟩ => same ▸ held.1.sent native)
    fun _ => fun ⟨native, same⟩ => same ▸ held.1.sent native
  renew id _ := Triple.from_state fun w shrunk => by
    refine (renew_renewed w).weaken (fun _ same => same) ?_ ?_
    · rintro _ _ ⟨_, rfl⟩
      exact shrunk.begun id (by simp)
        (fun _ apart => ⟨by simp [World.context_put_other apart], rfl⟩) rfl rfl
    · rintro _ ⟨_, rfl⟩
      exact shrunk.begun id (by simp)
        (fun _ apart => ⟨by simp [World.context_put_other apart], rfl⟩) rfl rfl
  create id w shrunk _ := ⟨trivial, shrunk.begun id (by simp [World.create, World.put])
    (fun _ apart => by simp [World.create, World.put, apart]) rfl rfl⟩
  grant id w shrunk := ⟨shrunk.stale, shrunk.queue, fun other held => by
    by_cases same : other = id
    · simp [same]
    · simpa [same] using shrunk.returned other held⟩
  deactivate _ shrunk := ⟨shrunk.stale, shrunk.queue, shrunk.returned⟩
  mark _ _ shrunk := ⟨shrunk.stale, shrunk.queue, shrunk.returned⟩
  carry id _ _ w shrunk := by
    have same : ∀ context : Context, context.size = (w.context id).size →
        context.commands = (w.context id).commands → Shrunk first (w.put id context) := by
      intro context size commands
      refine ⟨fun other behind => shrunk.stale other ?_, fun other => ?_, shrunk.returned⟩ <;>
        by_cases same : other = id
      · subst same
        simpa [World.stale, World.put, size] using behind
      · simpa [World.stale, World.put, same] using behind
      · subst same
        simpa [World.stale, World.put, size, commands] using shrunk.queue other
      · simpa [World.stale, World.put, same] using shrunk.queue other
    exact same _ rfl rfl

/-- What cannot be lost by taking queues and catching up is kept by every call. -/
theorem Shrunk.closed (host : Host) (answers : Answers) {J : World → Prop}
    (closed : ∀ first w, J first → Shrunk first w → J w) :
    Durable host answers (fun _ => True) J where
  activate id w held :=
    closed w _ held ((Shrunk.durable host answers w).activate id w (.refl w))
  stale _ _ _ _ := trivial
  send id action sends := Triple.from_state fun w held =>
    (((Shrunk.durable host answers w).send id action sends).started ⟨.refl w, held.2⟩).weaken
      (fun _ same => same) (fun _ after => closed w after held.1)
      fun after => closed w after held.1
  renew id _ := Triple.from_state fun w held =>
    (((Shrunk.durable host answers w).renew id trivial).started (.refl w)).weaken (fun _ same => same)
      (fun _ after => closed w after held) fun after => closed w after held
  create id w held unreturned :=
    ⟨trivial, closed w _ held ((Shrunk.durable host answers w).create id w (.refl w) unreturned).2⟩
  grant id w held := closed w _ held ((Shrunk.durable host answers w).grant id w (.refl w))
  deactivate w held := closed w _ held ((Shrunk.durable host answers w).deactivate w (.refl w))
  mark id w held := closed w _ held ((Shrunk.durable host answers w).mark id w (.refl w))
  carry id buffers bytes w held :=
    closed w _ held ((Shrunk.durable host answers w).carry id buffers bytes w (.refl w))

theorem returned_durable (id : Nat) :
    Durable host answers (fun _ => True) fun w => w.returned id = true :=
  Shrunk.closed host answers fun _ _ returned shrunk => shrunk.returned id returned

namespace Durable
variable {may : Nat → Prop} (durable : Durable host answers may I)
include durable

theorem switching (id : Nat) : Keeps I (order host answers host.frames id) :=
  durable.toStable.order host.frames id

theorem ensure (id : Nat) :
    Triple I (ensure host answers (order host answers host.frames) id)
      (fun _ w => I w ∧ w.stale id = false) I :=
  durable.toStable.ensure durable.switching id

theorem ensuring (id : Nat) : Keeps I (Canvas2D.ensure host answers (order host answers host.frames) id) :=
  (durable.ensure id).weaken (fun _ held => held) (fun _ _ => And.left) fun _ held => held

theorem make (id : Nat) : Keeps I (make host answers id) :=
  Triple.looked fun w held => Triple.provided
    (fun missing => by
      have allowed := durable.create id w held (by simpa using missing)
      refine Triple.next (R := fun _ => I) (Triple.modified fun s same => same ▸ allowed.2) fun _ =>
        Triple.next (R := fun _ => I) ?_ fun _ => Triple.modified fun s => durable.grant id s
      exact (durable.toStable.reset durable.switching allowed.1).weaken (fun _ held => held)
        (fun _ _ => And.left) fun _ held => held)
    fun _ s same => same ▸ held

theorem submitActive (active : Option Nat) : Keeps I (submitActive host answers active) := by
  cases active with
  | none => exact Keeps.returned
  | some id => exact durable.toStable.submit durable.switching id

theorem submit2D : Keeps I (submit2D host answers) :=
  Triple.looked fun w held => Triple.next
    ((durable.submitActive w.active).started held)
    fun _ => Triple.modified durable.deactivate

theorem refusing (error : Option String) : Keeps I (refuseOn error) :=
  Native.refuseOn_triple (fun _ held => held) fun _ held => held

theorem pixelsOf (image : Image) : Keeps I (pixelsOf host answers image) := by
  cases image with
  | canvas id =>
    exact Keeps.next (durable.make id) fun _ => Keeps.next (durable.ensuring id) fun _ =>
      durable.toStable.submit durable.switching id
  | bitmap handle =>
    refine Triple.looked fun w held => ?_
    split
    · exact Triple.thrown fun s same => same ▸ held
    · exact Triple.returned fun s same => same ▸ held
  | external handle => exact Keeps.next durable.submit2D fun _ => durable.refusing _
  | data bytes => exact Keeps.returned
  | video handle => exact Keeps.returned

theorem source (id : Nat) (image : Image) : Keeps I (source host answers id image) := by
  unfold Canvas2D.source
  split
  · exact Keeps.thrown
  · exact Keeps.next (durable.toStable.room durable.switching id _) fun _ =>
      Keeps.next (Keeps.provided fun _ => Triple.modified (durable.carry id _ _)) fun _ =>
        Triple.looked fun w held => Triple.returned fun s same => same ▸ held

theorem drawing (id : Nat) (value : Option Brush) : Keeps I (drawing host answers id value) := by
  cases value with
  | none => exact Keeps.returned
  | some value =>
    refine Keeps.next ?_ fun image =>
      Triple.next (R := fun _ => I) (Triple.modified (durable.mark id)) fun _ => Keeps.returned
    cases value with
    | plain => exact Keeps.returned
    | pattern image =>
      exact Keeps.next (durable.pixelsOf image) fun _ =>
        Keeps.next (durable.source id image) fun _ => Keeps.returned

omit durable in
theorem both {J : World → Prop} (durable : Durable host answers may I)
    (other : Durable host answers (fun _ => True) J) :
    Durable host answers may fun w => I w ∧ J w where
  toStable := durable.toStable.both other.toStable
  create id w held unreturned :=
    ⟨(durable.create id w held.1 unreturned).1, (durable.create id w held.1 unreturned).2,
      (other.create id w held.2 unreturned).2⟩
  grant id w held := ⟨durable.grant id w held.1, other.grant id w held.2⟩
  deactivate w held := ⟨durable.deactivate w held.1, other.deactivate w held.2⟩
  mark id w held := ⟨durable.mark id w held.1, other.mark id w held.2⟩
  carry id buffers bytes w held :=
    ⟨durable.carry id buffers bytes w held.1, other.carry id buffers bytes w held.2⟩

theorem paintEach (ids : List Nat) : Keeps I (paintEach host answers ids) := by
  induction ids with
  | nil => exact Keeps.returned
  | cons id rest ih =>
    exact Keeps.next (durable.toStable.flush durable.switching (by decide) id) fun _ => ih

end Durable
end
end Chuzz.Canvas2D
