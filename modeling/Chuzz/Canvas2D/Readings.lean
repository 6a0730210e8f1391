import Chuzz.Library.Transition
import Chuzz.Canvas2D.Smooth

/-! What a canvas has had when another draws it. A queue that draws canvases belongs to the active
context, and whatever it draws has nothing pending: so a canvas is read as the page left it when
the drawing was recorded, although both were sent later. -/
namespace Chuzz.Canvas2D
open Library Library.Throwing

def anything (_ : Op) : Prop := True

/-- Every reading so far found what had been issued, and the queues will find it too. -/
structure Faithful (w : World) : Prop where
  readings : ∀ reading ∈ w.native.readings, reading.executed = reading.issued
  current : ∀ id, w.stale id = false →
    Native.Current w.native id (w.native.executed id) (w.context id).commands
  drawn : ∀ id, w.stale id = false → ∀ command ∈ (w.context id).commands, ∀ source,
    command.reads source → source ≠ id → (w.context source).commands = []

/-- The context is going to draw a canvas. A queue that its context is going to drop does not
count. -/
def World.waits (w : World) (id : Nat) : Prop :=
  w.stale id = false ∧ ∃ command ∈ (w.context id).commands, ∃ source, command.reads source

/-- Nobody but this context is going to draw a canvas. -/
def World.quiet (id : Nat) (w : World) : Prop := ∀ other, w.waits other → other = id

def World.still (w : World) : Prop := ∀ id, ¬ w.waits id

abbrev Core (host : Host) (answers : Answers) (may : Nat → Prop) (w : World) : Prop :=
  Booked host answers anything may w ∧ Faithful w

/-- A context that is going to draw a canvas is the active one, and will be painted. `due` are the
contexts that are being painted. -/
def World.attended (due : Nat → Prop) (w : World) : Prop :=
  ∀ id, w.waits id → w.active = some id ∧ (id ∈ w.dirty ∨ due id)

abbrev Attended (host : Host) (answers : Answers) (may due : Nat → Prop) (w : World) : Prop :=
  Core host answers may w ∧ w.attended due

section
variable {host : Host} {answers : Answers} {may due : Nat → Prop} {w : World} {id : Nat}

theorem World.still.quiet (still : w.still) (id : Nat) : w.quiet id :=
  fun other waits => absurd waits (still other)

theorem World.still.attended (still : w.still) : w.attended due :=
  fun id waits => absurd waits (still id)

theorem Shrunk.waits {first : World} (shrunk : Shrunk first w) (waits : w.waits id) :
    first.waits id := by
  obtain ⟨fresh, command, member, draws⟩ := waits
  rcases shrunk.queue id with idle | ⟨commands, same⟩
  · simp [idle] at member
  · exact ⟨same ▸ fresh, command, commands ▸ member, draws⟩

theorem still_durable : Durable host answers (fun _ => True) World.still :=
  Shrunk.closed host answers fun _ _ still shrunk id waits => still id (shrunk.waits waits)

variable {action : Action} {later : World}

theorem Faithful.congr (faithful : Faithful w)
    (contexts : ∀ id, (later.context id).commands = (w.context id).commands)
    (stale : ∀ id, later.stale id = false →
      w.stale id = false ∨ (w.context id).commands = [])
    (native : later.native.canvases = w.native.canvases)
    (readings : later.native.readings = w.native.readings) : Faithful later where
  readings := by
    rw [readings]
    exact faithful.readings
  current id fresh := by
    have had : ∀ source, later.native.executed source = w.native.executed source :=
      fun source => Native.executed_congr (by rw [native])
    rw [contexts, had]
    rcases stale id fresh with fresh | idle
    · exact (faithful.current id fresh).congr fun source _ _ => had source
    · rw [idle]
      trivial
  drawn id fresh command member source draws apart := by
    rw [contexts] at member ⊢
    rcases stale id fresh with fresh | idle
    · exact faithful.drawn id fresh command member source draws apart
    · simp [idle] at member

/-- A canvas that is drawn has nothing pending, so sending its queue changes nothing for those who
draw it. -/
theorem Faithful.sent {native : Native} (faithful : Faithful w) (ledger : Ledger w)
    (fresh : w.stale id = false)
    (served : Native.Served id (w.context id).size anything (w.context id).commands w.native
      native) : Faithful (w.sent id native) where
  readings reading member := by
    rw [World.sent_native] at member
    have current : Native.Current w.native id
        (w.native.canvas id (w.context id).size).executed (w.context id).commands := by
      rw [Native.canvas_executed (ledger.spent id)]
      exact faithful.current id fresh
    rcases served.readings current reading member with before | same
    · exact faithful.readings reading before
    · exact same
  current other fresh' := by
    rw [World.sent_stale] at fresh'
    by_cases same : other = id
    · subst same
      rw [World.sent_same]
      trivial
    · rw [World.sent_other native same, World.sent_native,
        Native.executed_congr (served.others other same)]
      refine (faithful.current other fresh').congr fun source apart read => ?_
      by_cases own : source = id
      · obtain ⟨command, member, draws⟩ := read
        have idle := faithful.drawn other fresh' command member source draws apart
        subst own
        rw [served.executed_after (ledger.spent source), idle]
        simp
      · exact Native.executed_congr (served.others source own)
  drawn other fresh' command member source draws apart := by
    rw [World.sent_stale] at fresh'
    have before : (w.context source).commands = [] := by
      by_cases same : other = id
      · subst same
        simp at member
      · rw [World.sent_other native same] at member
        exact faithful.drawn other fresh' command member source draws apart
    by_cases own : source = id
    · subst own
      simp
    · rw [World.sent_other native own, before]

theorem Faithful.begun (faithful : Faithful w) (id : Nat) (native : Native) (quiet : w.quiet id)
    (others : ∀ other, other ≠ id → native.canvases other = w.native.canvases other)
    (readings : native.readings = w.native.readings) :
    Faithful { w.put id { size := w.sizes id } with native } := by
  have away : ∀ other, other ≠ id → (w.put id { size := w.sizes id }).context other =
      w.context other := fun other apart => World.context_put_other apart
  have fresh : ∀ other, other ≠ id →
      World.stale { w.put id { size := w.sizes id } with native } other = false →
      w.stale other = false := fun other apart fresh => by
    rwa [World.stale, World.context_native, away other apart] at fresh
  refine ⟨by rw [readings]; exact faithful.readings, fun other fresh' => ?_,
    fun other fresh' command member source draws apart => ?_⟩ <;> by_cases same : other = id
  · subst same
    rw [World.context_native, World.context_put_same]
    trivial
  · have before := faithful.current other (fresh other same fresh')
    rw [World.context_native, away other same, Native.executed_congr (others other same)]
    refine before.congr fun source apart read => ?_
    obtain ⟨command, member, draws⟩ := read
    exact absurd (quiet other ⟨fresh other same fresh', command, member, source, draws⟩) same
  · subst same
    rw [World.context_native, World.context_put_same] at member
    exact absurd member List.not_mem_nil
  · rw [World.context_native, away other same] at member
    exact absurd (quiet other ⟨fresh other same fresh', command, member, source, draws⟩) same

theorem renew_core (allowed : may id) :
    Triple (fun w => Core host answers may w ∧ w.quiet id) (renew host answers id)
      (fun _ w => Core host answers may w ∧ w.still) (fun w => Core host answers may w ∧ w.still) :=
  Triple.from_state fun w ⟨⟨booked, faithful⟩, quiet⟩ => by
    have idle : ∀ {later : World}, later.context id = { size := w.sizes id } →
        Shrunk w later → later.still := by
      intro later same shrunk other waits
      obtain rfl := quiet other (shrunk.waits waits)
      obtain ⟨_, command, member, _⟩ := waits
      simp [same] at member
    refine ((((Booked.stable.renew id allowed).both
      ((Shrunk.durable host answers w).renew id trivial)).started ⟨booked, .refl w⟩).both
      (renew_renewed w)).weaken (fun _ same => ⟨same, same⟩) ?_ ?_
    · rintro _ after ⟨⟨booked, shrunk⟩, _, same⟩
      refine ⟨⟨booked, ?_⟩, idle (by simp [same]) shrunk⟩
      rw [same]
      exact (faithful.begun id _ quiet (fun other apart => Native.put_other _ _ apart) rfl).congr
        (fun _ => rfl) (fun _ fresh => .inl fresh) rfl rfl
    · rintro after ⟨⟨booked, shrunk⟩, _, same⟩
      refine ⟨⟨booked, ?_⟩, idle (by simp [same]) shrunk⟩
      rw [same]
      exact faithful.begun id w.native quiet (fun _ _ => rfl) rfl

theorem send_core (sends : action ≠ .reset) :
    Triple (fun w => Core host answers may w ∧ w.stale id = false) (send host answers id action)
      (fun _ => Core host answers may) (Core host answers may) :=
  Triple.from_state fun w ⟨⟨booked, faithful⟩, fresh⟩ =>
    (send_sent sends w (booked.pending id)).weaken (fun _ same => same)
      (fun _ _ => fun ⟨_, same, served, _⟩ =>
        same ▸ ⟨booked.sent served, faithful.sent booked.toLedger fresh served⟩)
      fun _ => fun ⟨_, same, served⟩ =>
        same ▸ ⟨booked.sent served, faithful.sent booked.toLedger fresh served⟩

theorem still_stable :
    Stable host answers may fun w => Core host answers may w ∧ w.still where
  activate id w held := ⟨⟨Booked.stable.activate id w held.1.1,
    held.1.2.congr (fun _ => rfl) (fun _ fresh => .inl fresh) rfl rfl⟩, held.2⟩
  stale id w held := held.1.1.stale id
  send id action sends :=
    ((send_core sends).both (still_durable.send id action sends)).strengthen
      fun _ held => ⟨⟨held.1.1, held.2⟩, held.1.2, held.2⟩
  renew id allowed := (renew_core allowed).strengthen fun _ held => ⟨held.1, held.2.quiet id⟩

theorem sent_still {native : Native} (quiet : w.quiet id) : (w.sent id native).still := by
  intro other waits
  obtain rfl := quiet other (((Shrunk.refl w).sent native).waits waits)
  obtain ⟨_, command, member, _⟩ := waits
  simp at member

/-- The queue of the one context that is going to draw is sent, and then nobody is. -/
theorem send_still (sends : action ≠ .reset) :
    Triple (fun w => (Core host answers may w ∧ w.quiet id) ∧ w.stale id = false)
      (send host answers id action) (fun _ w => Core host answers may w ∧ w.still)
      (fun w => Core host answers may w ∧ w.still) :=
  Triple.from_state fun w ⟨⟨core, quiet⟩, fresh⟩ =>
    (((send_core sends).started ⟨core, fresh⟩).both (send_empties w)).weaken
      (fun _ same => ⟨same, same⟩)
      (fun _ _ => fun ⟨core, native, same⟩ => ⟨core, same ▸ sent_still quiet⟩)
      fun _ => fun ⟨core, native, same⟩ => ⟨core, same ▸ sent_still quiet⟩

section
variable {switch : Nat → Script Unit}

section
variable (switches : ∀ other, Keeps (fun w => Core host answers may w ∧ w.still) (switch other))
include switches

theorem ensure_quiet :
    Triple (fun w => Core host answers may w ∧ w.quiet id) (ensure host answers switch id)
      (fun _ w => (Core host answers may w ∧ w.quiet id) ∧ w.stale id = false)
      (fun w => Core host answers may w ∧ w.still) := by
  refine Triple.looked fun w held => Triple.provided (fun behind => ?_)
    fun fresh _ same => same ▸ ⟨held, fresh⟩
  have still : w.still := by
    intro other waits
    obtain rfl := held.2 other waits
    simp [waits.1] at behind
  exact ((still_stable.reset switches (held.1.1.stale id behind)).weaken (fun _ held => held)
    (fun _ _ held => ⟨⟨held.1.1, held.1.2.quiet id⟩, held.2⟩) fun _ held => held).started
    ⟨held.1, still⟩

theorem submit_settles :
    Triple (fun w => Core host answers may w ∧ w.quiet id) (submit host answers switch id)
      (fun _ w => Core host answers may w ∧ w.still)
      (fun w => Core host answers may w ∧ w.still) := by
  refine Triple.next (ensure_quiet switches) fun _ => Triple.looked fun w held =>
    Triple.provided (fun _ => ?_) fun empty _ same => ?_
  · exact (Triple.next (R := fun _ w => Core host answers may w ∧ w.quiet id)
      (Triple.returned fun _ held => held) fun _ =>
      Triple.next (ensure_quiet switches) fun _ => send_still (by decide)).started held.1
  · subst same
    refine ⟨held.1.1, fun other waits => ?_⟩
    obtain rfl := held.1.2 other waits
    obtain ⟨_, command, member, _⟩ := waits
    simp_all

end

end

theorem order_attended (frames : Nat) :
    Triple (Attended host answers may due) (order host answers frames id)
      (fun _ w => Attended host answers may due w ∧ w.quiet id)
      (Attended host answers may due) := by
  cases frames with
  | zero => exact Triple.thrown fun _ held => held
  | succ frames =>
    refine Triple.looked fun w ⟨core, attended⟩ => Triple.changed ?_
    have moved : Core host answers may (w.activate (some id)) :=
      ⟨Booked.stable.activate id w core.1,
        core.2.congr (fun _ => rfl) (fun _ fresh => .inl fresh) rfl rfl⟩
    cases active : w.active with
    | none =>
      have still : (w.activate (some id)).still := fun other waits => by
        simpa [active] using (attended other waits).1
      exact Triple.returned fun _ same => same ▸ ⟨⟨moved, still.attended⟩, still.quiet id⟩
    | some previous =>
      have only : ∀ other, w.waits other → other = previous := fun other waits =>
        (Option.some.inj (active.symm.trans (attended other waits).1)).symm
      refine Triple.provided (fun _ => ?_) fun same s here => ?_
      · exact ((submit_settles (still_stable.order frames)).weaken (fun _ held => held)
          (fun _ _ held => ⟨⟨held.1, held.2.attended⟩, held.2.quiet id⟩)
          fun _ held => ⟨held.1, held.2.attended⟩).started ⟨moved, only⟩
      · subst here
        obtain rfl : previous = id := by simpa using same
        refine ⟨⟨moved, fun other waits => ⟨?_, (attended other waits).2⟩⟩, only⟩
        rw [only other waits]
        rfl

theorem World.attended.shrunk (attended : w.attended due) (shrunk : Shrunk w later)
    (active : later.active = w.active) (dirty : ∀ id ∈ w.dirty, id ∈ later.dirty) :
    later.attended due := fun id waits => by
  obtain ⟨here, painted⟩ := attended id (shrunk.waits waits)
  exact ⟨active.trans here, painted.imp_left (dirty id)⟩

theorem send_attended (sends : action ≠ .reset) :
    Triple (fun w => Attended host answers may due w ∧ w.stale id = false)
      (send host answers id action) (fun _ => Attended host answers may due)
      (Attended host answers may due) := by
  have kept : ∀ {w : World} {native : Native}, w.attended due →
      (w.sent id native).attended due := by
    intro w native attended other waits
    obtain ⟨here, painted⟩ := attended other (((Shrunk.refl w).sent native).waits waits)
    have apart : other ≠ id := by
      rintro rfl
      obtain ⟨_, command, member, _⟩ := waits
      simp at member
    have remains : (w.sent id native).active = w.active := by
      have other' : ¬ w.active = some id := by
        rw [here]
        simpa using apart
      simp [World.sent, World.released, World.emptied, World.put, other']
    exact ⟨remains.trans here, by simpa using painted⟩
  refine Triple.from_state fun w started => ?_
  obtain ⟨⟨core, attended⟩, fresh⟩ := started
  exact (((send_core sends).started ⟨core, fresh⟩).both (send_empties w)).weaken
    (fun _ same => ⟨same, same⟩)
    (fun _ _ after => by
      obtain ⟨core, native, same⟩ := after
      rw [same] at core ⊢
      exact ⟨core, kept attended⟩)
    fun _ after => by
      obtain ⟨core, native, same⟩ := after
      rw [same] at core ⊢
      exact ⟨core, kept attended⟩

theorem reset_attended (frames : Nat) (allowed : may id) :
    Triple (Attended host answers may due) (reset host answers (order host answers frames) id)
      (fun _ w => (Core host answers may w ∧ w.still) ∧ w.stale id = false)
      (Attended host answers may due) := by
  refine Triple.next (order_attended frames) fun _ => ?_
  have renewed : Triple (fun w => Attended host answers may due w ∧ w.quiet id)
      (renew host answers id) (fun _ w => Core host answers may w ∧ w.still)
      (Attended host answers may due) :=
    (renew_core allowed).weaken (fun _ held => ⟨held.1.1, held.2⟩) (fun _ _ held => held)
      fun _ held => ⟨held.1, held.2.attended⟩
  exact (renewed.both renew_fresh).weaken (fun _ held => ⟨held, trivial⟩) (fun _ _ held => held)
    fun _ => And.left

theorem ensure_attended (frames : Nat) :
    Triple (Attended host answers may due) (ensure host answers (order host answers frames) id)
      (fun _ w => Attended host answers may due w ∧ w.stale id = false)
      (Attended host answers may due) :=
  Triple.looked fun w held => Triple.provided
    (fun behind => ((reset_attended frames (held.1.1.stale id behind)).weaken
      (fun _ held => held) (fun _ _ held => ⟨⟨held.1.1, held.1.2.attended⟩, held.2⟩)
      fun _ held => held).started held)
    fun fresh _ same => same ▸ ⟨held, fresh⟩

theorem flush_attended (frames : Nat) (sends : action ≠ .reset) :
    Keeps (Attended host answers may due)
      (flush host answers (order host answers frames) id action) :=
  Triple.next (Keeps.provided fun _ => (order_attended frames).weaken (fun _ held => held)
      (fun _ _ => And.left) fun _ held => held) fun _ =>
    Triple.next (ensure_attended frames) fun _ => send_attended sends

theorem flush_settles (frames : Nat) (sends : action ≠ .reset) (switches : action ≠ .submit) :
    Triple (Attended host answers may due)
      (flush host answers (order host answers frames) id action)
      (fun _ w => Core host answers may w ∧ w.still) (Attended host answers may due) := by
  refine Triple.next (Triple.provided (fun _ => order_attended frames)
    fun submits => by simp [switches] at submits) fun _ => ?_
  refine Triple.next ((ensure_quiet (still_stable.order frames)).weaken
    (fun _ held => ⟨held.1.1, held.2⟩) (fun _ _ held => held)
    fun _ held => ⟨held.1, held.2.attended⟩) fun _ => ?_
  exact (send_still sends).weaken (fun _ held => held) (fun _ _ held => held)
    fun _ held => ⟨held.1, held.2.attended⟩

theorem submit_attended (frames : Nat) :
    Keeps (Attended host answers may due) (submit host answers (order host answers frames) id) :=
  Triple.next ((ensure_attended frames).weaken (fun _ held => held) (fun _ _ => And.left)
      fun _ held => held) fun _ => Triple.looked fun _ held =>
    Triple.provided (fun _ => (flush_attended frames (by decide)).started held)
      fun _ _ same => same ▸ held

theorem room_attended (frames bytes : Nat) :
    Keeps (Attended host answers may due)
      (room host answers (order host answers frames) id bytes) :=
  Triple.looked fun _ held => Triple.provided
    (fun _ => (flush_attended frames (by decide)).started held) fun _ _ same => same ▸ held

/-- A change that leaves the queues, what their contexts know and the native side alone. -/
theorem Attended.congr (held : Attended host answers may due w)
    (contexts : later.context = w.context) (created : later.created = w.created)
    (returned : ∀ id, w.returned id = true → later.returned id = true)
    (sizes : later.sizes = w.sizes) (native : later.native = w.native)
    (active : later.active = w.active) (dirty : ∀ id ∈ w.dirty, id ∈ later.dirty)
    (booked : Booked host answers anything may later) : Attended host answers may due later := by
  have stale : ∀ id, later.stale id = w.stale id := fun id => by
    unfold World.stale
    rw [contexts, created, sizes]
  refine ⟨⟨booked, held.1.2.congr (fun _ => by rw [contexts])
    (fun id fresh => .inl (by rwa [← stale])) (by rw [native]) (by rw [native])⟩,
    held.2.shrunk ⟨fun id behind => by rwa [← stale], fun id => .inr ⟨by rw [contexts], stale id⟩,
      returned⟩ active dirty⟩

theorem make_attended : Keeps (Attended host answers may due) (make host answers id) := by
  refine Triple.looked fun w held => Triple.provided (fun missing => Triple.changed ?_)
    fun _ _ same => same ▸ held
  have unreturned : w.returned id = false := by simpa using missing
  have idle := (held.1.1.unreturned id unreturned).1
  have created : Attended host answers may due (w.create id) := by
    refine ⟨⟨held.1.1.created unreturned, held.1.2.congr (fun other => ?_) (fun other fresh => ?_)
      rfl rfl⟩, held.2.shrunk ((Shrunk.durable host answers w).create id w (.refl w) unreturned).2
        rfl fun _ member => member⟩ <;> by_cases same : other = id
    · subst same
      simp [World.create, World.put, idle]
    · simp [World.create, World.put, same]
    · exact .inr (same ▸ idle)
    · exact .inl (by simpa [World.stale, World.create, World.put, same] using fresh)
  refine Triple.next ((reset_attended host.frames (held.1.1.fresh id unreturned)).weaken
    (fun _ same => same ▸ created) (fun _ _ held => held) fun _ held => held) fun _ =>
    Triple.modified fun s both => ?_
  obtain ⟨⟨core, still⟩, _⟩ := both
  have before : Attended host answers may due s := ⟨core, still.attended⟩
  refine before.congr rfl rfl (fun other returned => ?_) rfl rfl rfl (fun _ member => member)
    (core.1.granted id)
  by_cases same : other = id
  · simp [same]
  · simpa [same] using returned

theorem deactivate_still (held : Core host answers may w ∧ w.still) :
    Core host answers may (w.activate none) ∧ (w.activate none).still :=
  ⟨⟨held.1.1.congr rfl rfl rfl rfl rfl, held.1.2.congr (fun _ => rfl) (fun _ fresh => .inl fresh)
    rfl rfl⟩, held.2⟩

theorem submit2D_attended :
    Triple (Attended host answers may due) (submit2D host answers)
      (fun _ w => Core host answers may w ∧ w.still) (Attended host answers may due) := by
  refine Triple.looked fun w ⟨core, attended⟩ => Triple.next
    (R := fun _ w => Core host answers may w ∧ w.still) ?_ fun _ =>
      Triple.modified fun _ => deactivate_still
  cases active : w.active with
  | none =>
    have still : w.still := fun other waits => by
      simpa [active] using (attended other waits).1
    exact Triple.returned fun _ same => same ▸ ⟨core, still⟩
  | some id =>
    have quiet : w.quiet id := fun other waits =>
      (Option.some.inj (active.symm.trans (attended other waits).1)).symm
    exact ((submit_settles (still_stable.order host.frames)).weaken (fun _ held => held)
      (fun _ _ held => held) fun _ held => ⟨held.1, held.2.attended⟩).started ⟨core, quiet⟩

/-- The context a canvas image stands for has nothing pending. -/
def World.named (image : Image) (w : World) : Prop :=
  ∀ source, image = .canvas source → (w.context source).commands = []

theorem submit_idle {switch : Nat → Script Unit} :
    Triple (fun _ => True) (submit host answers switch id)
      (fun _ w => (w.context id).commands = []) fun _ => True := by
  refine Triple.next (R := fun _ _ => True) (fun s _ => by split <;> trivial) fun _ =>
    Triple.looked fun w _ => Triple.provided (fun _ => ?_) fun empty _ same => ?_
  · refine Triple.next (R := fun _ _ => True) (fun s _ => by split <;> trivial) fun _ =>
      Triple.next (R := fun _ _ => True) (fun s _ => by split <;> trivial) fun _ =>
      Triple.from_state fun s _ => (send_empties s).weaken (fun _ same => same) ?_
        fun _ _ => trivial
    rintro _ _ ⟨native, rfl⟩
    simp
  · subst same
    simpa using empty

theorem pixelsOf_attended (image : Image) :
    Triple (Attended host answers may due) (pixelsOf host answers image)
      (fun _ w => Attended host answers may due w ∧ w.named image)
      (Attended host answers may due) := by
  cases image with
  | canvas source =>
    refine Triple.next make_attended fun _ => Triple.next ((ensure_attended host.frames).weaken
      (fun _ held => held) (fun _ _ => And.left) fun _ held => held) fun _ => ?_
    exact ((submit_attended host.frames).both submit_idle).weaken (fun _ held => ⟨held, trivial⟩)
      (fun _ _ held => ⟨held.1, fun _ same => Image.canvas.inj same ▸ held.2⟩) fun _ => And.left
  | bitmap handle =>
    refine Triple.looked fun w held => ?_
    split
    · exact Triple.thrown fun _ same => same ▸ held
    · exact Triple.returned fun _ same => same ▸ ⟨held, nofun⟩
  | external handle =>
    exact Triple.next submit2D_attended fun _ => Native.refuseOn_triple
      (fun _ held => ⟨⟨held.1, held.2.attended⟩, nofun⟩) fun _ held => ⟨held.1, held.2.attended⟩
  | data bytes => exact Triple.returned fun _ held => ⟨held, nofun⟩
  | video handle => exact Triple.returned fun _ held => ⟨held, nofun⟩

theorem Attended.carried (held : Attended host answers may due w) {context : Context}
    (size : context.size = (w.context id).size)
    (commands : context.commands = (w.context id).commands)
    (issued : context.issued = (w.context id).issued) :
    Attended host answers may due (w.put id context) := by
  have queue : ∀ other, ((w.put id context).context other).commands =
      (w.context other).commands := fun other => by
    by_cases same : other = id
    · subst same
      simp [commands]
    · simp [World.context_put_other same]
  have stale : ∀ other, (w.put id context).stale other = w.stale other := fun other => by
    by_cases same : other = id
    · subst same
      simp [World.stale, World.put, size]
    · simp [World.stale, World.put, same]
  exact ⟨⟨held.1.1.carried size commands issued, held.1.2.congr queue
      (fun other fresh => .inl (by rwa [← stale])) rfl rfl⟩,
    held.2.shrunk ⟨fun other behind => by rwa [← stale],
      fun other => .inr ⟨queue other, stale other⟩, fun _ returned => returned⟩ rfl
      fun _ member => member⟩

/-- The descriptor says of a canvas what has been issued on it, and none of that is pending. -/
def World.exact (input : Source) (w : World) : Prop :=
  ∀ source issued, input = .canvas source issued →
    issued = (w.context source).issued ∧ (w.context source).commands = []

theorem named_durable (image : Image) :
    Durable host answers (fun _ => True) (World.named image) :=
  Shrunk.closed host answers fun first w named shrunk source same => by
    rcases shrunk.queue source with idle | ⟨queue, _⟩
    · exact idle
    · rw [queue, named source same]

theorem World.named.descriptor {image : Image} (named : w.named image) :
    w.exact (w.descriptor image) := by
  intro source issued same
  cases image with
  | canvas id =>
    obtain ⟨rfl, rfl⟩ := Source.canvas.inj same
    exact ⟨rfl, named _ rfl⟩
  | _ => contradiction

theorem source_attended (image : Image) :
    Triple (fun w => Attended host answers may due w ∧ w.named image)
      (source host answers id image) (fun input w => Attended host answers may due w ∧ w.exact input)
      (Attended host answers may due) := by
  unfold source
  split
  · exact Triple.thrown fun _ => And.left
  · have made : Triple (fun w => Attended host answers may due w ∧ w.named image)
        (room host answers (order host answers host.frames) id image.bytes)
        (fun _ w => Attended host answers may due w ∧ w.named image)
        (Attended host answers may due) :=
      ((room_attended host.frames image.bytes).both ((named_durable image).toStable.room
        (named_durable image).switching id image.bytes)).weaken (fun _ held => held)
        (fun _ _ held => held) fun _ => And.left
    refine Triple.next made fun _ => Triple.next
      (R := fun _ w => Attended host answers may due w ∧ w.named image)
      (Triple.provided (fun _ => Triple.modified fun s held => ?_) fun _ _ held => held) fun _ =>
      Triple.looked fun w held => Triple.returned fun s same => by
        subst same
        exact ⟨held.1, held.2.descriptor⟩
    exact ⟨held.1.carried rfl rfl rfl,
      ((named_durable image : Durable host answers _ _).carry id 1 image.bytes s held.2)⟩

theorem current_append {native : Native} {had : List Nat} {commands : List Command}
    {command : Command} (current : Native.Current native id had commands)
    (last : ∀ source issued, command.image = some (.canvas source issued) →
      issued = if source = id then had ++ commands.map Command.serial
        else native.executed source) :
    Native.Current native id had (commands ++ [command]) := by
  induction commands generalizing had with
  | nil => exact ⟨fun source issued drawn => by simpa using last source issued drawn, trivial⟩
  | cons first rest ih =>
    exact ⟨current.1, ih current.2 fun source issued drawn => by
      simpa using last source issued drawn⟩

theorem World.push_stale (id : Nat) (op : Op) (n matrix : List Number) (image : Option Source)
    (other : Nat) : (w.push id op n matrix image).stale other = w.stale other := by
  by_cases same : other = id <;> simp [World.stale, World.push, World.put, same]

theorem World.push_commands (op : Op) (n matrix : List Number) (image : Option Source) :
    ((w.push id op n matrix image).context id).commands =
      (w.context id).commands ++ [{ serial := w.serial, op, n, matrix, image }] := by
  simp [World.push, World.put]

theorem Faithful.pushed (faithful : Faithful w) (ledger : Ledger w) (quiet : w.quiet id)
    (op : Op) (n matrix : List Number) {image : Option Source}
    (exact : ∀ input ∈ image, w.exact input) : Faithful (w.push id op n matrix image) where
  readings := faithful.readings
  current other fresh := by
    rw [World.push_stale] at fresh
    by_cases same : other = id
    · subst same
      have current := faithful.current other fresh
      simp only [World.push, World.put, Function.update_self]
      refine current_append current fun source issued drawn => ?_
      obtain ⟨rfl, idle⟩ := exact _ drawn source issued rfl
      have known := ledger.issued source
      rw [idle] at known
      split
      · next own =>
        subst own
        simp [idle, known]
      · simp [known]
    · have queue : ((w.push id op n matrix image).context other).commands =
          (w.context other).commands := by simp [World.push, World.put, same]
      rw [queue]
      exact faithful.current other fresh
  drawn other fresh command member source draws apart := by
    rw [World.push_stale] at fresh
    by_cases same : other = id
    · subst same
      have idle : (w.context source).commands = [] := by
        rw [World.push_commands] at member
        rcases List.mem_append.mp member with before | last
        · exact faithful.drawn other fresh command before source draws apart
        · obtain ⟨issued, drawn⟩ := draws
          rw [List.mem_singleton.mp last] at drawn
          exact (exact _ drawn source issued rfl).2
      simpa [World.push, World.put, apart] using idle
    · have queue : ((w.push id op n matrix image).context other).commands =
          (w.context other).commands := by simp [World.push, World.put, same]
      rw [queue] at member
      exact absurd (quiet other ⟨fresh, command, member, source, draws⟩) same

/-- A command can be recorded on the context: it was returned, and nobody else is going to draw a
canvas. -/
def World.ready (id : Nat) (w : World) : Prop := w.quiet id ∧ w.returned id = true

theorem ready_durable (id : Nat) : Durable host answers (fun _ => True) (World.ready id) :=
  Shrunk.closed host answers fun _ _ ready shrunk =>
    ⟨fun other waits => ready.1 other (shrunk.waits waits), shrunk.returned id ready.2⟩

theorem Attended.pushed (held : Attended host answers may due w) (ready : w.ready id) (op : Op)
    (n matrix : List Number) {image : Option Source} (exact : ∀ input ∈ image, w.exact input)
    (contexts : later.context = (w.push id op n matrix image).context)
    (created : later.created = w.created) (returned : later.returned = w.returned)
    (sizes : later.sizes = w.sizes) (native : later.native = w.native)
    (active : later.active = some id) (dirty : ∀ other ∈ w.dirty, other ∈ later.dirty)
    (painted : image ≠ none → id ∈ later.dirty) :
    (Ledger later ∧ Faithful later) ∧ later.attended due := by
  have same := World.push_stale (w := w) id op n matrix image
  have stale : ∀ other, later.stale other = w.stale other := fun other => by
    rw [← same, World.stale, contexts, created, sizes]
    rfl
  have ledger := held.1.1.toLedger.pushed ready.2 op n matrix image
  have faithful := held.1.2.pushed held.1.1.toLedger ready.1 op n matrix exact
  refine ⟨⟨⟨fun other => ?_, fun other => ?_, fun other => ?_⟩, faithful.congr
    (fun _ => by rw [contexts]) (fun other fresh => .inl (by rwa [same, ← stale]))
    (by rw [native]; rfl) (by rw [native]; rfl)⟩, fun other waits => ?_⟩
  · rw [contexts, native]
    exact ledger.issued other
  · rw [contexts, native]
    exact ledger.spent other
  · rw [contexts, returned]
    exact ledger.unreturned other
  · obtain ⟨fresh, command, member, draws⟩ := waits
    rw [stale] at fresh
    rw [contexts] at member
    have here : other = id := by
      by_contra apart
      have member : command ∈ (w.context other).commands := by
        simpa [World.push, World.put, apart] using member
      exact apart (ready.1 other ⟨fresh, command, member, draws⟩)
    subst here
    refine ⟨active, ?_⟩
    rw [World.push_commands] at member
    rcases List.mem_append.mp member with before | last
    · exact (held.2 other ⟨fresh, command, before, draws⟩).2.imp_left (dirty other)
    · obtain ⟨source, issued, drawn⟩ := draws
      rw [List.mem_singleton.mp last] at drawn
      have some : image = .some (.canvas source issued) := drawn
      exact .inl (painted (by simp [some]))

/-- What is left of a call: everything read so far was as the page had it, and so will what
waits be. -/
structure Immediate (w : World) : Prop where
  ledger : Ledger w
  faithful : Faithful w
  attended : w.attended fun _ => False

theorem Attended.immediate (held : Attended host answers may (fun _ => False) w) : Immediate w :=
  ⟨held.1.1.toLedger, held.1.2, held.2⟩

theorem mark_dirty (w : World) (id : Nat) :
    (∀ other ∈ w.dirty, other ∈ (w.mark id).dirty) ∧ id ∈ (w.mark id).dirty := by
  unfold World.mark
  split <;> simp_all

theorem drawing_attended (value : Option Brush) :
    Triple (fun w => Attended host answers may due w ∧ w.ready id) (drawing host answers id value)
      (fun image w => (Attended host answers may due w ∧ w.ready id) ∧
        (∀ input ∈ image, w.exact input) ∧ (image ≠ none → id ∈ w.dirty))
      (Attended host answers may due) := by
  cases value with
  | none => exact Triple.returned fun _ held => ⟨held, nofun, fun some => absurd rfl some⟩
  | some value =>
    have brushed : Triple (fun w => Attended host answers may due w ∧ w.ready id)
        (brush host answers id value)
        (fun image w => (Attended host answers may due w ∧ w.ready id) ∧
          ∀ input ∈ image, w.exact input) (Attended host answers may due) := by
      cases value with
      | plain => exact Triple.returned fun _ held => ⟨held, nofun⟩
      | pattern image =>
        have ready : Durable host answers (fun _ => True) (World.ready id) := ready_durable id
        refine Triple.next (((pixelsOf_attended image).both (ready.pixelsOf image)).weaken
          (fun _ held => held) (fun _ _ held => held) fun _ => And.left) fun _ =>
          Triple.next (((source_attended image).both (ready.source id image)).weaken
            (fun _ held => held) (fun _ _ held => held) fun _ => And.left) fun input =>
          Triple.returned fun w held => ⟨⟨held.1.1, held.2⟩, fun other same => ?_⟩
        obtain rfl : input = other := by simpa using same
        exact held.1.2
    refine Triple.next brushed fun image => Triple.next
      (R := fun _ w => (Attended host answers may due w ∧ w.ready id) ∧
        (∀ input ∈ image, w.exact input) ∧ (image ≠ none → id ∈ w.dirty))
      (Triple.modified fun w ⟨⟨held, ready⟩, exact⟩ => ?_) fun _ => Triple.returned fun _ held => held
    exact ⟨⟨held.congr rfl rfl (fun _ same => same) rfl rfl rfl (mark_dirty w id).1
      (held.1.1.congr rfl rfl rfl rfl rfl), ready⟩, exact, fun _ => (mark_dirty w id).2⟩

end
end Chuzz.Canvas2D
