import Chuzz.Canvas2D.Painting
import Chuzz.Canvas2D.SaveDepth

/-! Every call leaves the queues so that what they draw will be read as it was when the drawing was
recorded. -/
namespace Chuzz.Canvas2D
open Library Library.Throwing List

section
variable {host : Host} {answers : Answers} {may : Nat → Prop} {w : World} {id : Nat} {op : Op}
  {n : List Number}

/-- What holds within a call, whichever contexts it will have painted. -/
abbrev Underway (host : Host) (answers : Answers) (may : Nat → Prop) : World → Prop :=
  Attended host answers may fun _ => False

theorem order_ready :
    Triple (fun w => Underway host answers may w ∧ w.returned id = true)
      (order host answers host.frames id)
      (fun _ w => Underway host answers may w ∧ w.ready id) (Underway host answers may) := by
  have returned : Durable host answers (fun _ => True) fun w => w.returned id = true :=
    returned_durable id
  exact ((order_attended host.frames).both (returned.switching id)).weaken (fun _ held => held)
    (fun _ _ held => ⟨held.1.1, held.1.2, held.2⟩) fun _ => And.left

theorem ensure_ready :
    Triple (fun w => Underway host answers may w ∧ w.ready id)
      (ensure host answers (order host answers host.frames) id)
      (fun _ w => Underway host answers may w ∧ w.ready id) (Underway host answers may) := by
  have ready : Durable host answers (fun _ => True) (World.ready id) := ready_durable id
  exact ((ensure_attended host.frames).both (ready.ensuring id)).weaken (fun _ held => held)
    (fun _ _ held => ⟨held.1.1, held.2⟩) fun _ => And.left

theorem room_ready (bytes : Nat) :
    Triple (fun w => Underway host answers may w ∧ w.ready id)
      (room host answers (order host answers host.frames) id bytes)
      (fun _ w => Underway host answers may w ∧ w.ready id) (Underway host answers may) := by
  have ready : Durable host answers (fun _ => True) (World.ready id) := ready_durable id
  exact ((room_attended host.frames bytes).both
    (ready.toStable.room ready.switching id bytes)).weaken (fun _ held => held)
    (fun _ _ held => held) fun _ => And.left

theorem Underway.left {script : Script α} {P : World → Prop}
    (keeps : Triple P script (fun _ => Underway host answers may) (Underway host answers may)) :
    Triple P script (fun _ => Immediate) Immediate :=
  keeps.weaken (fun _ held => held) (fun _ _ => Attended.immediate) fun _ => Attended.immediate

theorem recorded_immediate (held : Underway host answers may w) (ready : w.ready id)
    (matrix : List Number) {image : Option Source} (exact : ∀ input ∈ image, w.exact input)
    (painted : image ≠ none → id ∈ w.dirty) :
    Immediate ((w.push id op n matrix image).activate (some id)) := by
  obtain ⟨⟨ledger, faithful⟩, attended⟩ := held.pushed ready op n matrix exact
    (rfl : ((w.push id op n matrix image).activate (some id)).context = _)
    rfl rfl rfl rfl rfl (fun _ member => member) painted
  exact ⟨ledger, faithful, attended⟩

theorem attached_immediate (held : Underway host answers may w) (ready : w.ready id) {input : Source}
    (exact : w.exact input) :
    Immediate (((w.push id op n identity (some input)).activate (some id)).mark id) := by
  have exact' : ∀ other ∈ some input, w.exact other := fun other same => by
    obtain rfl : input = other := by simpa using same
    exact exact
  have marked := mark_dirty ((w.push id op n identity (some input)).activate (some id)) id
  obtain ⟨⟨ledger, faithful⟩, attended⟩ := held.pushed ready op n identity exact'
    (rfl : (((w.push id op n identity (some input)).activate (some id)).mark id).context = _)
    rfl rfl rfl rfl rfl marked.1 fun _ => marked.2
  exact ⟨ledger, faithful, attended⟩

theorem record_immediate {value : Option Brush} :
    Triple (fun w => Underway host answers may w ∧ w.returned id = true)
      (record host answers id op n value) (fun _ => Immediate) Immediate := by
  refine Triple.weaken (F := Underway host answers may) ?_ (fun _ held => held)
    (fun _ _ held => held) fun _ => Attended.immediate
  refine Triple.next order_ready fun _ => Triple.next ensure_ready fun _ =>
    Triple.next (room_ready 0) fun _ => Triple.looked fun seen held =>
    Triple.next ((drawing_attended value).started held) fun image =>
    Triple.from_state fun s ⟨⟨held, ready⟩, exact, painted⟩ =>
    Triple.changed (Triple.modified fun _ same => ?_)
  subst same
  exact recorded_immediate held ready _ exact painted

theorem path_immediate :
    Triple (fun w => Underway host answers may w ∧ w.returned id = true)
      (path host answers id op n) (fun _ => Immediate) Immediate := by
  unfold path
  split
  · exact Triple.returned fun _ held => held.1.immediate
  · split
    · exact Triple.thrown fun _ held => held.1.immediate
    · exact record_immediate

theorem draw_immediate :
    Triple (fun w => Underway host answers may w ∧ w.returned id = true)
      (draw host answers id op n) (fun _ => Immediate) Immediate :=
  Triple.looked fun _ held => Triple.provided (fun _ => record_immediate.started held)
    fun _ _ same => same ▸ held.1.immediate

/-- A save or a restore changes the stack of its context before it is recorded. -/
theorem save_immediate :
    Triple (fun w => Underway host answers may w ∧ w.returned id = true)
      (save host answers id) (fun _ => Immediate) Immediate := by
  have returned : Durable host answers (fun _ => True) fun w => w.returned id = true :=
    returned_durable id
  refine Triple.next (((ensure_attended host.frames).both (returned.ensuring id)).weaken
    (fun _ held => held) (fun _ _ held => And.intro held.1.1 held.2)
    fun _ held => held.1.immediate) fun _ => Triple.looked fun w held => ?_
  dsimp only
  split
  · exact Triple.thrown fun _ same => same ▸ held.1.immediate
  · exact Triple.changed (record_immediate.started ⟨held.1.carried rfl rfl rfl, held.2⟩)

theorem restore_immediate :
    Triple (fun w => Underway host answers may w ∧ w.returned id = true)
      (restore host answers id) (fun _ => Immediate) Immediate := by
  have returned : Durable host answers (fun _ => True) fun w => w.returned id = true :=
    returned_durable id
  refine Triple.next (((ensure_attended host.frames).both (returned.ensuring id)).weaken
    (fun _ held => held) (fun _ _ held => And.intro held.1.1 held.2)
    fun _ held => held.1.immediate) fun _ => Triple.looked fun w held => ?_
  dsimp only
  split
  · exact Triple.returned fun _ same => same ▸ held.1.immediate
  · exact Triple.changed (record_immediate.started ⟨held.1.carried rfl rfl rfl, held.2⟩)

theorem assign_immediate {change : DrawState → DrawState} :
    Triple (Underway host answers may) (assign host answers id change) (fun _ => Immediate)
      Immediate := by
  refine Triple.next ((ensure_attended host.frames).weaken (fun _ held => held)
    (fun _ _ => And.left) fun _ => Attended.immediate) fun _ => Triple.looked fun w held =>
    Triple.modified fun s same => ?_
  subst same
  have assigned : Underway host answers may
      (s.put id { s.context id with state := change (s.context id).state }) :=
    held.carried rfl rfl rfl
  exact assigned.immediate

variable {image : Image}

theorem attach_immediate :
    Triple (fun w => (Underway host answers may w ∧ w.named image) ∧ w.ready id)
      (attach host answers id op n image) (fun _ => Immediate) Immediate := by
  have ready : Durable host answers (fun _ => True) (World.ready id) := ready_durable id
  have named : Durable host answers (fun _ => True) (World.named image) := named_durable image
  refine Triple.weaken (F := Underway host answers may) ?_ (fun _ held => held)
    (fun _ _ held => held) fun _ => Attended.immediate
  refine Triple.next ((((room_attended host.frames 0).both
    (named.toStable.room named.switching id 0)).both
      (ready.toStable.room ready.switching id 0)).weaken (fun _ held => held) (fun _ _ held => held)
      fun _ held => held.1.1) fun _ =>
    Triple.next (((source_attended image).both (ready.source id image)).weaken (fun _ held => held)
      (fun _ _ held => held) fun _ => And.left) fun input =>
    Triple.from_state fun s ⟨⟨held, exact⟩, ready⟩ =>
    Triple.changed (Triple.changed (Triple.modified fun _ same => ?_))
  subst same
  exact attached_immediate held ready exact

theorem drawImage_immediate : Triple (fun w => Underway host answers may w ∧ w.returned id = true)
      (drawImage host answers id image n) (fun _ => Immediate) Immediate := by
  have ready : Durable host answers (fun _ => True) (World.ready id) := ready_durable id
  refine Triple.next (order_ready.weaken (fun _ held => held) (fun _ _ held => held)
      fun _ => Attended.immediate) fun _ =>
    Triple.next (ensure_ready.weaken (fun _ held => held) (fun _ _ held => held)
      fun _ => Attended.immediate) fun _ =>
    Triple.next (((pixelsOf_attended image).both (ready.pixelsOf image)).weaken
      (fun _ held => held) (fun _ _ held => held) fun _ held => held.1.immediate) fun _ => ?_
  split
  · split
    · exact Triple.returned fun _ held => held.1.1.immediate
    · exact attach_immediate
  · exact Triple.thrown fun _ held => held.1.1.immediate

theorem putImageData_immediate :
    Triple (fun w => Underway host answers may w ∧ w.returned id = true)
      (putImageData host answers id image n) (fun _ => Immediate) Immediate := by
  refine Triple.next (order_ready.weaken (fun _ held => held) (fun _ _ held => held)
      fun _ => Attended.immediate) fun _ =>
    Triple.next (ensure_ready.weaken (fun _ held => held) (fun _ _ held => held)
      fun _ => Attended.immediate) fun _ => ?_
  split
  · split
    · exact Triple.thrown fun _ held => held.1.immediate
    · exact attach_immediate.strengthen fun _ held => ⟨⟨held.1, nofun⟩, held.2⟩
  · exact Triple.thrown fun _ held => held.1.immediate

theorem close_immediate {handle : Nat} :
    Triple (Underway host answers may) (close host answers handle) (fun _ => Immediate)
      Immediate := by
  refine Triple.looked fun w held => Triple.provided (fun _ => ?_)
    fun _ _ same => same ▸ held.immediate
  refine Triple.next ((submit2D_attended.weaken (fun _ held => held) (fun _ _ held => held)
    fun _ => Attended.immediate).started held) fun _ => Triple.modified fun s ⟨core, still⟩ => ?_
  have attended : Underway host answers may s := ⟨core, still.attended⟩
  have closed : Underway host answers may { s with closed := handle :: s.closed } :=
    attended.congr rfl rfl (fun _ same => same) rfl rfl rfl (fun _ member => member)
      (core.1.congr rfl rfl rfl rfl rfl)
  exact closed.immediate

/-- An element takes another size. A context that catches up by that has nothing in its queue. -/
theorem Underway.resized (held : Underway host answers may w) (size : Nat × Nat)
    (back : w.stale id = true → size = (w.context id).size → (w.context id).commands = []) :
    Immediate { w with sizes := Function.update w.sizes id size } := by
  have fresh : ∀ other, World.stale { w with sizes := Function.update w.sizes id size } other = false →
      w.stale other = false ∨ (w.context other).commands = [] := by
    intro other fresh
    by_cases same : other = id
    · subst same
      by_contra behind
      simp only [not_or, Bool.not_eq_false] at behind
      have caught : (w.context other).size = size := by
        by_contra apart
        have created : w.created other = true := by
          have stale := behind.1
          simp only [World.stale, Bool.and_eq_true] at stale
          exact stale.1
        simp [World.stale, created, apart] at fresh
      exact behind.2 (back behind.1 caught.symm)
    · exact .inl (by simpa [World.stale, same] using fresh)
  refine ⟨⟨held.1.1.issued, held.1.1.spent, held.1.1.unreturned⟩,
    held.1.2.congr (fun _ => rfl) fresh rfl rfl, fun other waits => ?_⟩
  obtain ⟨now, command, member, draws⟩ := waits
  refine held.2 other ⟨(fresh other now).resolve_right fun idle => ?_, command, member, draws⟩
  exact absurd (idle ▸ member) not_mem_nil

theorem resize_immediate {size : Nat × Nat} {told : Bool} (renews : told = true → may id) :
    Triple (fun w => Underway host answers may w ∧
        (w.stale id = true → size = (w.context id).size → (w.context id).commands = []))
      (resize host answers id size told) (fun _ => Immediate) Immediate := by
  refine Triple.looked fun w ⟨held, back⟩ => Triple.changed ?_
  have resized : Immediate { w with sizes := Function.update w.sizes id size } :=
    Underway.resized held size back
  refine Triple.provided (fun renewed => ?_) fun _ _ same => same ▸ resized
  have allowed : may id := renews (by simp_all)
  have changed : Underway host answers may
      { w with sizes := Function.update w.sizes id size } := by
    refine ⟨⟨⟨resized.ledger, held.1.1.pending, held.1.1.resets, fun other behind => ?_,
      held.1.1.fresh⟩, resized.faithful⟩, resized.attended⟩
    by_cases same : other = id
    · exact same ▸ allowed
    · exact held.1.1.stale other (by simpa [World.stale, same] using behind)
  exact ((reset_attended host.frames allowed).weaken (fun _ held => held)
    (fun _ _ held => Attended.immediate ⟨held.1.1, held.1.2.attended⟩)
    fun _ => Attended.immediate).started changed

theorem flush2D_immediate (deep : 2 ≤ host.frames)
    (answered : ∀ other, answers.fails other .paint = none) (held : Underway host answers may w)
    (smooth : AllSmooth host answers may w) :
    Triple (· = w) (flush2D host answers) (fun _ s => Immediate s ∧ ∀ id ∈ w.dirty, s.kept id)
      fun _ => False := by
  have cleared : Attended host answers may (· ∈ w.dirty) { w with dirty := [] } :=
    ⟨⟨held.1.1.congr rfl rfl rfl rfl rfl, held.1.2.congr (fun _ => rfl) (fun _ fresh => .inl fresh)
      rfl rfl⟩, fun other waits => (held.2 other waits).imp_right fun dirty =>
        .inr (dirty.resolve_right id)⟩
  have clear : AllSmooth host answers may { w with dirty := [] } := fun other =>
    (smooth other).shrinks ((smooth other).booked.congr rfl rfl rfl rfl rfl) fun _ behind => behind
  have painted : Triple (· = { w with dirty := [] }) (paintEach host answers w.dirty)
      (fun _ s => (Core host answers may s ∧ s.still) ∧ ∀ id ∈ w.dirty, s.kept id)
      fun _ => False :=
    (((paintEach_settles w.dirty).started ⟨cleared, rfl⟩).both
      ((paintEach_keeps_all deep answered w.dirty).started clear)).weaken
      (fun _ same => ⟨same, same⟩) (fun _ _ held => held) fun _ => And.right
  refine Triple.looked fun w' same => ?_
  subst same
  refine Triple.changed (Triple.next painted fun _ => Triple.modified fun s ⟨settled, kept⟩ => ?_)
  obtain ⟨core, still⟩ := deactivate_still settled
  exact ⟨⟨core.1.toLedger, core.2, still.attended⟩, kept⟩

end

/-- Nothing that the page has recorded is lost in a call. Every pending batch is carried out at least
up to its last command; a reset is accepted where there is something to take back; no element goes
back to the size that its context has kept while commands wait for it; and where the document paints,
nothing is refused and no two contexts are behind their elements. -/
structure Lossless (host : Host) (w : World) (step : Step) : Prop where
  pending : ∀ id, Native.Sendable host anything w.native id (w.context id).size
    (w.context id).commands
  resets : ∀ id, w.stale id = true ∨ step.call.renews id = true →
    step.answers.rejects id .reset = none ∨
      w.native.executed id = [] ∧ (w.context id).commands = []
  sizes : ∀ id size told, step.call = .resize id size told → w.stale id = true →
    size = (w.context id).size → (w.context id).commands = []
  paints : step.call = .flush2D → 2 ≤ host.frames ∧
    (∀ other action, step.answers.rejects other action = none) ∧
    (∀ other, step.answers.fails other .paint = none) ∧
    (∀ other, Native.Carried host w.native other (w.context other).size
      (w.context other).commands) ∧
    ∀ id other, w.stale id = true → w.stale other = true → id = other

section
variable {host : Host} {w : World} {step : Step}

section
variable (immediate : Immediate w) (lossless : Lossless host w step)
include immediate lossless

theorem Immediate.underway : Underway host step.answers (w.renewable step.call) w :=
  ⟨⟨immediate.ledger.booked lossless.pending lossless.resets, immediate.faithful⟩,
    immediate.attended⟩

theorem Immediate.smooth (paints : step.call = .flush2D) :
    AllSmooth host step.answers (w.renewable step.call) w := fun id => by
  obtain ⟨_, heard, _, carried, alone⟩ := lossless.paints paints
  refine ⟨immediate.ledger.booked carried lossless.resets, heard, fun behind other apart => ?_⟩
  by_contra stale
  exact apart (alone other id (by simpa using stale) behind)

theorem perform_immediate (received : step.call.receiver.all w.returned = true) :
    Triple (· = w) (perform host step.answers step.call) (fun _ => Immediate) Immediate := by
  have held := immediate.underway lossless
  have returned : ∀ {id}, step.call.receiver = some id → w.returned id = true := fun same => by
    simpa [same] using received
  have flushed : ∀ id action, action ≠ .reset →
      Triple (· = w) (flush host step.answers (order host step.answers host.frames) id action)
        (fun _ => Immediate) Immediate := fun id action sends =>
    (Underway.left (flush_attended host.frames sends)).started held
  obtain ⟨call, answers⟩ := step
  cases call with
  | make id => exact (Underway.left make_attended).started held
  | path id op n => exact path_immediate.started ⟨held, returned rfl⟩
  | clip id rule => exact record_immediate.started ⟨held, returned rfl⟩
  | draw id op n => exact draw_immediate.started ⟨held, returned rfl⟩
  | save id => exact save_immediate.started ⟨held, returned rfl⟩
  | restore id => exact restore_immediate.started ⟨held, returned rfl⟩
  | transform | setTransform | fillStyle | strokeStyle =>
    dsimp only [perform]
    exact assign_immediate.started held
  | createPattern id image =>
    refine (Triple.next ((ensure_attended host.frames).weaken (fun _ held => held)
      (fun _ _ => And.left) fun _ => Attended.immediate) fun _ =>
      (pixelsOf_attended image).weaken (fun _ held => held) (fun _ _ held => held.1.immediate)
        fun _ => Attended.immediate).started held
  | drawImage id image n => exact drawImage_immediate.started ⟨held, returned rfl⟩
  | putImageData id image n => exact putImageData_immediate.started ⟨held, returned rfl⟩
  | measureText id =>
    exact (Triple.next ((ensure_attended host.frames).weaken (fun _ held => held)
      (fun _ _ => And.left) fun _ => Attended.immediate) fun _ =>
      Underway.left (flush_attended host.frames (by decide))).started held
  | getImageData id => exact flushed id .read (by decide)
  | isPointIn id => exact flushed id .hit (by decide)
  | pixels id => exact flushed id .snapshot (by decide)
  | reset id =>
    have allowed : w.renewable (.reset id) id := .inr (.inl (by simp [Call.renews]))
    exact ((reset_attended host.frames allowed).weaken (fun _ held => held)
      (fun _ _ held => Attended.immediate ⟨held.1.1, held.1.2.attended⟩)
      fun _ => Attended.immediate).started held
  | resize id size told =>
    exact (resize_immediate fun told => .inr (.inl (by simp [Call.renews, told]))).started
      ⟨held, lossless.sizes id size told rfl⟩
  | close handle => exact close_immediate.started held
  | bitmaps handles =>
    refine Triple.modified fun s same => ?_
    subst same
    exact ⟨⟨immediate.ledger.issued, immediate.ledger.spent, immediate.ledger.unreturned⟩,
      immediate.faithful.congr (fun _ => rfl) (fun _ fresh => .inl fresh) rfl rfl,
      immediate.attended⟩
  | submit2D =>
    exact (submit2D_attended.weaken (fun _ held => held)
      (fun _ _ held => Attended.immediate ⟨held.1, held.2.attended⟩)
      fun _ => Attended.immediate).started held
  | flush2D =>
    obtain ⟨deep, _, answered, _⟩ := lossless.paints rfl
    exact (flush2D_immediate deep answered held (immediate.smooth lossless rfl)).weaken
      (fun _ same => same) (fun _ _ => And.left) fun _ => False.elim

theorem Immediate.after : Immediate (w.after host step) := by
  unfold World.after
  split
  · next received =>
    exact Triple.left (perform_immediate immediate lossless received) rfl (fun _ _ held => held)
      fun _ held => held
  · exact immediate

end

theorem initial_immediate (sizes : Nat → Nat × Nat) : Immediate (World.initial sizes) where
  ledger := (initial_inStep sizes).ledger
  faithful := ⟨nofun, fun _ _ => trivial, fun _ _ _ member => absurd member not_mem_nil⟩
  attended id waits := by
    obtain ⟨_, command, member, _⟩ := waits
    exact absurd member not_mem_nil

theorem Immediate.painted (immediate : Immediate w) (lossless : Lossless host w step)
    (paints : step.call = .flush2D) : ∀ id ∈ w.dirty, (w.after host step).kept id := by
  obtain ⟨call, answers⟩ := step
  obtain rfl : call = .flush2D := paints
  obtain ⟨deep, _, answered, _⟩ := lossless.paints rfl
  obtain ⟨_, after, ran, _, kept⟩ := (flush2D_immediate deep answered (immediate.underway lossless)
    (immediate.smooth lossless rfl)).returns rfl
  have reached : w.after host ⟨.flush2D, answers⟩ = after := by
    simp [World.after, Call.receiver, perform, Throwing.left, ran]
  rw [reached]
  exact kept

/-- In a run in which nothing is lost, whatever a command has read of a canvas was what the page had
issued on it by then; and when the document paints, every context that was dirty shows what was issued
on it or is dirty again. -/
theorem reached_immediate
    (run : Transition.Reachable (fun w => ∃ sizes, w = World.initial sizes)
      (Transition.restrict (fun w step after => w.after host step = after) (Lossless host)) w) :
    (∀ reading ∈ w.native.readings, reading.executed = reading.issued) ∧
      ∀ step, Lossless host w step → step.call = .flush2D →
        ∀ id ∈ w.dirty, (w.after host step).kept id := by
  have immediate : Immediate w := by
    refine run.invariant ?_ ?_
    · rintro _ ⟨sizes, rfl⟩
      exact initial_immediate sizes
    · rintro s step t _ immediate ⟨rfl, lossless⟩
      exact immediate.after lossless
  exact ⟨immediate.faithful.readings, fun step lossless paints => immediate.painted lossless paints⟩

end

/-- A rectangle on one canvas, which another then draws. -/
def copied : World :=
  plainRun [.make 1, .make 2, .draw 1 .fillRect (.replicate 4 (some 1)),
    .drawImage 2 (.canvas 1) (.replicate 8 (some 1))]

def painting : Step := ⟨.flush2D, plainAnswers⟩

/-- The document paints both canvases, and the second reads the first. -/
theorem reached_immediate_copied :
    (∀ reading ∈ (copied.after plainHost painting).native.readings,
        reading.executed = reading.issued) ∧
      ∀ id ∈ copied.dirty, (copied.after plainHost painting).kept id := by
  have idle : ∀ {harmless : Op → Prop} {native : Native} {size : Nat × Nat} id,
      Native.Sendable plainHost harmless native id size [] := fun _ batch => absurd rfl batch
  have among : ∀ id, id ∉ [1, 2] →
      Function.update (Function.update (fun _ => false) 1 true) 2 true id = false := by
    intro id apart
    simp only [mem_cons, not_mem_nil, or_false, not_or] at apart
    simp [apart]
  have zero : Lossless plainHost (plainRun []) ⟨.make 1, plainAnswers⟩ :=
    ⟨idle, fun _ _ => .inl rfl, (by intros; contradiction), (by intros; contradiction)⟩
  have made := (initial_immediate fun _ => (300, 150)).after zero
  have one : Lossless plainHost (plainRun [.make 1]) ⟨.make 2, plainAnswers⟩ :=
    ⟨pending_among made.ledger [1] (fun id apart => Function.update_of_ne (by simpa using apart) _ _)
      (forall_mem_singleton.mpr (idle 1)), fun _ _ => .inl rfl, (by intros; contradiction), (by intros; contradiction)⟩
  have both := made.after one
  have two : Lossless plainHost (plainRun [.make 1, .make 2])
      ⟨.draw 1 .fillRect (.replicate 4 (some 1)), plainAnswers⟩ :=
    ⟨pending_among both.ledger [1, 2] among (forall_mem_cons.mpr
      ⟨idle 1, forall_mem_singleton.mpr (idle 2)⟩), fun _ _ => .inl rfl, (by intros; contradiction), (by intros; contradiction)⟩
  have drawn := both.after two
  have three : Lossless plainHost
      (plainRun [.make 1, .make 2, .draw 1 .fillRect (.replicate 4 (some 1))])
      ⟨.drawImage 2 (.canvas 1) (.replicate 8 (some 1)), plainAnswers⟩ :=
    ⟨pending_among drawn.ledger [1, 2] among (forall_mem_cons.mpr
      ⟨fun _ => ⟨by decide, by decide, rfl,
        .inl ⟨(by intro _ _ drawn; cases drawn), by decide, trivial⟩⟩, forall_mem_singleton.mpr (idle 2)⟩),
      fun _ _ => .inl rfl, (by intros; contradiction), (by intros; contradiction)⟩
  have carried : ∀ {harmless : Op → Prop} id, Native.Sendable plainHost harmless copied.native id
      (copied.context id).size (copied.context id).commands :=
    fun {harmless} => pending_among (drawn.after three).ledger [1, 2] among (forall_mem_cons.mpr
      ⟨idle 1, forall_mem_singleton.mpr fun _ => ⟨by decide, by decide, rfl,
        .inl ⟨fun source issued drawn => by cases drawn; decide, by decide, trivial⟩⟩⟩)
  have fresh : ∀ id, copied.stale id = false := by
    intro id
    by_cases member : id ∈ [1, 2]
    · have known : ∀ other ∈ [1, 2], copied.stale other = false := by decide
      exact known id member
    · have uncreated : copied.created id = false := among id member
      simp [World.stale, uncreated]
  have four : Lossless plainHost copied painting :=
    ⟨carried, fun _ _ => .inl rfl, (by intros; contradiction), fun _ => ⟨by decide, fun _ _ => rfl, fun _ => rfl, carried,
      fun id _ behind => absurd (behind.symm.trans (fresh id)) (by decide)⟩⟩
  have run : Transition.Reachable (fun w => ∃ sizes, w = World.initial sizes)
      (Transition.restrict (fun w step after => World.after plainHost w step = after)
        (Lossless plainHost)) copied :=
    .next (.next (.next (.next (.start ⟨_, rfl⟩) ⟨rfl, zero⟩) ⟨rfl, one⟩) ⟨rfl, two⟩) ⟨rfl, three⟩
  exact ⟨(reached_immediate (.next run ⟨rfl, four⟩)).1, (reached_immediate run).2 painting four rfl⟩

instance (id : Nat) (w : World) : Decidable (w.kept id) :=
  inferInstanceAs (Decidable (_ ∨ _ ∧ _))

/-- The first painting fails. -/
def brokenAnswers : Answers where
  rejects _ _ := none
  fails id _ := if id = 1 then some "canvas readback timed out in chuzz" else none
  sources _ := none

/-- A command out of range takes the rectangle behind it along, which a later drawing misses. And a
painting that fails leaves the other context neither painted nor dirty. -/
theorem batches_lose :
    (¬ ∀ w, Transition.Reachable (fun w => ∃ sizes, w = World.initial sizes)
      (fun w step after => World.after plainHost w step = after) w →
      ∀ reading ∈ w.native.readings, reading.executed = reading.issued) ∧
    ¬ ∀ w, Transition.Reachable (fun w => ∃ sizes, w = World.initial sizes)
      (fun w step after => World.after plainHost w step = after) w →
      ∀ answers, ∀ id ∈ w.dirty, (w.after plainHost ⟨.flush2D, answers⟩).kept id := by
  constructor
  · intro claim
    have run : Transition.Reachable (fun w => ∃ sizes, w = World.initial sizes)
        (fun w step after => World.after plainHost w step = after)
        (plainRun [.make 1, .make 2, .path 1 .moveTo [some 100000000, some 0],
          .draw 1 .fillRect (.replicate 4 (some 1)),
          .drawImage 2 (.canvas 1) (.replicate 8 (some 1)),
          .drawImage 2 (.canvas 1) (.replicate 8 (some 1)), .flush2D]) :=
      Transition.Reachable.run _ (.start ⟨_, rfl⟩)
    exact absurd (claim _ run) (by decide)
  · intro claim
    have run : Transition.Reachable (fun w => ∃ sizes, w = World.initial sizes)
        (fun w step after => World.after plainHost w step = after) copied :=
      Transition.Reachable.run _ (.start ⟨_, rfl⟩)
    exact absurd (claim copied run brokenAnswers 2 (by decide)) (by decide)

end Chuzz.Canvas2D
