import Chuzz.Library.Transition
import Chuzz.Canvas2D.Smooth

/-! The stack of drawing states that a context keeps and the saves of its canvas. The page pushes
and pops when a command is recorded, the native side when it carries the command out, and between
the two the pending commands say how far they are apart. -/
namespace Chuzz.Canvas2D
open Library Library.Throwing

/-- Carrying out the pending commands, and an operation that is about to be recorded, would bring
the saves of every canvas to the height of its context's stack. -/
structure Stacked (owed : Nat → Op) (w : World) : Prop where
  depth : ∀ id, (owed id).depth (depthAfter (w.native.depth id) (w.context id).commands) =
    (w.context id).stack.length
  /-- A canvas that has had no command has no saves. -/
  tidy : ∀ id canvas, w.native.canvases id = some canvas → canvas.executed = [] →
    canvas.saves = []

/-- Nothing is about to be recorded. -/
def settled : Nat → Op := fun _ => .beginPath

/-- The two sides of every context are in step, and no command was dropped. -/
structure InStep (w : World) : Prop where
  ledger : Ledger w
  stacked : Stacked settled w

/-- What holds while a call switches from context to context. -/
abbrev Deep (host : Host) (answers : Answers) (may : Nat → Prop) (owed : Nat → Op) (w : World) :
    Prop :=
  Booked host answers (fun op => ¬ op.moves) may w ∧ Stacked owed w

section
variable {host : Host} {answers : Answers} {may : Nat → Prop} {owed : Nat → Op} {w : World}
  {id : Nat}

theorem depthAfter_append (depth : Nat) (commands : List Command) (command : Command) :
    depthAfter depth (commands ++ [command]) = command.op.depth (depthAfter depth commands) := by
  simp [depthAfter]

theorem Stacked.spent (stacked : Stacked owed w) (ledger : Ledger w) (canvas : Canvas)
    (present : w.native.canvases id = some canvas) :
    canvas.size = (w.context id).size ∨ canvas.saves = [] :=
  (ledger.spent id canvas present).imp_right (stacked.tidy id canvas present)

theorem Stacked.blank (stacked : Stacked owed w) (none : w.native.executed id = []) :
    w.native.depth id = 0 := by
  unfold Native.depth
  cases present : w.native.canvases id with
  | none => rfl
  | some canvas =>
    rw [Native.executed_present present] at none
    simp [stacked.tidy id canvas present none]

theorem Stacked.congr {later : World} (stacked : Stacked owed w)
    (contexts : ∀ id, (later.context id).commands = (w.context id).commands ∧
      (later.context id).stack = (w.context id).stack)
    (native : later.native = w.native) : Stacked owed later where
  depth id := by
    rw [(contexts id).1, (contexts id).2, native]
    exact stacked.depth id
  tidy id := by
    rw [native]
    exact stacked.tidy id

theorem Stacked.sent {native : Native} (stacked : Stacked owed w) (ledger : Ledger w)
    (served : Native.Served id (w.context id).size (fun op => ¬ op.moves)
      (w.context id).commands w.native native) : Stacked owed (w.sent id native) where
  depth other := by
    by_cases same : other = id
    · subst same
      rw [World.sent_same, World.sent_native,
        served.depth_after (fun canvas => stacked.spent ledger canvas) fun _ still => still]
      exact stacked.depth other
    · have before := stacked.depth other
      rw [World.sent_other native same, World.sent_native, Native.depth, served.others other same]
      exact before
  tidy other canvas present blank := by
    rw [World.sent_native] at present
    by_cases same : other = id
    · subst same
      have executed := served.executed_after (ledger.spent other)
      have depth := served.depth_after (fun canvas => stacked.spent ledger canvas)
        fun _ still => still
      rw [Native.executed_present present, blank] at executed
      obtain ⟨none, idle⟩ := List.append_eq_nil_iff.mp executed.symm
      rw [stacked.blank none, List.map_eq_nil_iff.mp idle, Native.depth_present present] at depth
      exact List.length_eq_zero_iff.mp depth
    · rw [served.others other same] at present
      exact stacked.tidy other canvas present blank

theorem Stacked.begun (stacked : Stacked owed w) (id : Nat) (native : Native) (still : ¬ (owed id).moves)
    (others : ∀ other, other ≠ id → native.canvases other = w.native.canvases other)
    (tidy : ∀ canvas, native.canvases id = some canvas → canvas.saves = []) :
    Stacked owed { w.put id { size := w.sizes id } with native } where
  depth other := by
    by_cases same : other = id
    · subst same
      have none : native.depth other = 0 := by
        unfold Native.depth
        cases present : native.canvases other with
        | none => rfl
        | some canvas => simp [tidy canvas present]
      simp [World.put, none, depthAfter, Op.depth_of_not_moves still]
    · have before := stacked.depth other
      simp only [World.context_native, World.context_put_other same, Native.depth,
        others other same]
      exact before
  tidy other canvas present := by
    by_cases same : other = id
    · subst same
      exact fun _ => tidy canvas present
    · exact stacked.tidy other canvas (by rwa [← others other same])

theorem Deep.durable (still : ∀ id, may id → ¬ (owed id).moves) :
    Durable host answers may (Deep host answers may owed) where
  activate id w held := ⟨Booked.stable.activate id w held.1,
    held.2.congr (fun _ => ⟨rfl, rfl⟩) rfl⟩
  stale id w held := held.1.stale id
  send id action sends := Triple.from_state fun w held =>
    (send_sent sends w (held.1.1.pending id)).weaken (fun _ same => same)
      (fun _ _ => fun ⟨_, same, served, _⟩ =>
        same ▸ ⟨held.1.1.sent served, held.1.2.sent held.1.1.toLedger served⟩)
      fun _ => fun ⟨_, same, served⟩ =>
        same ▸ ⟨held.1.1.sent served, held.1.2.sent held.1.1.toLedger served⟩
  renew id allowed := Triple.from_state fun w held => by
    refine (((Booked.stable.renew id allowed).started held.1).both (renew_renewed w)).weaken
      (fun _ same => ⟨same, same⟩) ?_ ?_
    · rintro _ after ⟨booked, _, same⟩
      refine ⟨booked, ?_⟩
      rw [same]
      refine (held.2.begun id (w.native.put id { size := w.sizes id }) (still id allowed)
        (fun other apart => Native.put_other _ _ apart) fun canvas present => ?_).congr
        (fun _ => ⟨rfl, rfl⟩) rfl
      rw [Native.put_same, Option.some.injEq] at present
      rw [← present]
    · rintro after ⟨booked, refused, same⟩
      refine ⟨booked, ?_⟩
      rw [same]
      have none := ((held.1.resets id allowed).resolve_left refused).1
      refine held.2.begun id w.native (still id allowed) (fun _ _ => rfl) ?_
      intro canvas present
      exact held.2.tidy id canvas present (by rwa [Native.executed_present present] at none)
  create id w held unreturned := by
    have none := held.1.toLedger.fresh unreturned
    refine ⟨held.1.fresh id unreturned, held.1.created unreturned, ?_⟩
    refine (held.2.begun id w.native
      (still id (held.1.fresh id unreturned)) (fun _ _ => rfl) fun canvas present => ?_).congr
      (fun _ => ⟨rfl, rfl⟩) rfl
    exact held.2.tidy id canvas present (by rwa [Native.executed_present present] at none)
  grant id w held := ⟨held.1.granted id, held.2.congr (fun _ => ⟨rfl, rfl⟩) rfl⟩
  deactivate w held := ⟨held.1.congr rfl rfl rfl rfl rfl, held.2.congr (fun _ => ⟨rfl, rfl⟩) rfl⟩
  mark id w held := ⟨held.1.congr rfl rfl rfl rfl rfl, held.2.congr (fun _ => ⟨rfl, rfl⟩) rfl⟩
  carry id _ _ w held := by
    refine ⟨held.1.carried rfl rfl rfl, held.2.congr (fun other => ?_) rfl⟩
    by_cases same : other = id
    · subst same
      simp
    · simp [World.context_put_other same]

theorem Stacked.pushed (stacked : Stacked owed w) {op : Op} {n matrix : List Number}
    {image : Option Source} (pays : ∀ depth, op.depth depth = (owed id).depth depth)
    (others : ∀ other, other ≠ id → ¬ (owed other).moves) :
    Stacked settled (w.push id op n matrix image) where
  depth other := by
    have before := stacked.depth other
    by_cases same : other = id
    · subst same
      simp only [World.push, World.put, Function.update_self, depthAfter_append, pays, before]
      rfl
    · rw [Op.depth_of_not_moves (others other same)] at before
      simp only [World.push, World.put, Function.update_of_ne same]
      exact before
  tidy := stacked.tidy

theorem Deep.inStep (held : Deep host answers may settled w) : InStep w := ⟨held.1.toLedger, held.2⟩

/-- Recording what is owed brings the two sides in step; if the call throws before that, it is
still owed. -/
theorem record_owed {op : Op} {n : List Number} {value : Option Brush}
    (pays : ∀ depth, op.depth depth = (owed id).depth depth)
    (others : ∀ other, other ≠ id → ¬ (owed other).moves)
    (still : ∀ id, may id → ¬ (owed id).moves) :
    Triple (fun w => Deep host answers may owed w ∧ w.returned id = true)
      (record host answers id op n value) (fun _ => InStep) (Deep host answers may owed) := by
  have durable : Durable host answers may fun w =>
      Deep host answers may owed w ∧ w.returned id = true :=
    (Deep.durable still).both (returned_durable id)
  refine Triple.weaken (F := fun w => Deep host answers may owed w ∧ w.returned id = true) ?_
    (fun _ held => held) (fun _ _ held => held) fun _ => And.left
  refine Triple.next (durable.switching id) fun _ => Triple.next (durable.ensuring id) fun _ =>
    Triple.next (durable.toStable.room durable.switching id 0) fun _ =>
    Triple.looked fun _ held => Triple.next ((durable.drawing id value).started held) fun _ =>
    Triple.next (R := fun _ => InStep) (Triple.modified fun s held => ?_) fun _ =>
      Triple.modified fun s held => ?_
  · exact ⟨held.1.1.toLedger.pushed held.2 .., held.1.2.pushed pays others⟩
  · exact ⟨⟨held.ledger.issued, held.ledger.spent, held.ledger.unreturned⟩,
      held.stacked.congr (fun _ => ⟨rfl, rfl⟩) rfl⟩

/-- A save or a restore that is recorded for the change of the stack before it. -/
theorem record_moved {op : Op} {state : DrawState} {stack : List DrawState}
    (deep : 2 ≤ host.frames) (heard : ∀ other action, answers.rejects other action = none)
    (held : Deep host answers may settled w)
    (carried : Booked host answers (fun _ => False) may w)
    (returned : w.returned id = true) (fresh : w.stale id = false)
    (moves : op.depth (w.context id).stack.length = stack.length) :
    Triple (· = w.put id { w.context id with state, stack }) (record host answers id op [] none)
      (fun _ => InStep) InStep := by
  have narrow : ∀ {harmless : Op → Prop}, Booked host answers harmless may w →
      Booked host answers harmless (fun other => may other ∧ other ≠ id) w := fun booked =>
    booked.narrow (fun _ => And.left)
      (fun other behind => ⟨booked.stale other behind, fun same => by simp_all⟩)
      fun other unreturned => ⟨booked.fresh other unreturned, fun same => by simp_all⟩
  have owing : Deep host answers (fun other => may other ∧ other ≠ id)
      (Function.update settled id op) (w.put id { w.context id with state, stack }) := by
    refine ⟨(narrow held.1).carried rfl rfl rfl, fun other => ?_, held.2.tidy⟩
    have before := held.2.depth other
    by_cases same : other = id
    · subst same
      simp only [World.context_put_same, Function.update_self]
      exact (congrArg op.depth before).trans moves
    · simp only [World.context_put_other same, Function.update_of_ne same]
      exact before
  have smooth : Smooth host answers (fun other => may other ∧ other ≠ id) id
      (w.put id { w.context id with state, stack }) := by
    refine ⟨(narrow carried).carried rfl rfl rfl, heard, fun behind => ?_⟩
    have same : (w.put id { w.context id with state, stack }).stale id = w.stale id := by
      simp [World.stale, World.put]
    exact absurd (fresh.symm.trans (same.symm.trans behind)) (by decide)
  have recorded : Triple (fun w => Deep host answers (fun other => may other ∧ other ≠ id)
      (Function.update settled id op) w ∧ w.returned id = true) (record host answers id op [] none)
      (fun _ => InStep) (Deep host answers (fun other => may other ∧ other ≠ id)
        (Function.update settled id op)) :=
    record_owed (fun _ => by simp) (fun other apart => by simp [apart, settled, Op.moves])
      fun other allowed => by simp [allowed.2, settled, Op.moves]
  exact ((recorded.started ⟨owing, returned⟩).returning
    ((record_returns deep).started smooth)).weaken (fun _ same => same) (fun _ _ held => held)
      fun _ => False.elim

theorem settled_durable : Durable host answers may (Deep host answers may settled) :=
  Deep.durable fun _ _ => by simp [settled, Op.moves]

theorem settled_returned (id : Nat) : Durable host answers may fun w =>
    Deep host answers may settled w ∧ w.returned id = true :=
  settled_durable.both (returned_durable id)

theorem moving_inStep {rest : World → Script Unit}
    (moves : ∀ w, Deep host answers may settled w → Booked host answers (fun _ => False) may w →
      w.returned id = true → w.stale id = false → Triple (· = w) (rest w) (fun _ => InStep) InStep) :
    Triple (fun w => (Deep host answers may settled w ∧ w.returned id = true) ∧
        Booked host answers (fun _ => False) may w)
      (do ensure host answers (order host answers host.frames) id; rest (← get))
      (fun _ => InStep) InStep :=
  Triple.next ((((settled_returned id).ensure id).both (Booked.durable.ensuring id)).weaken
    (fun _ held => held) (fun _ _ held => held) fun _ held => held.1.1.inStep) fun _ =>
    Triple.looked fun w held => moves w held.1.1.1 held.2 held.1.1.2 held.1.2

section
variable (deep : 2 ≤ host.frames) (heard : ∀ other action, answers.rejects other action = none)
include deep heard

/-- Where nothing is refused, `save` and `restore` keep the two sides in step. -/
theorem save_inStep : Triple (fun w => (Deep host answers may settled w ∧ w.returned id = true) ∧
        Booked host answers (fun _ => False) may w)
      (save host answers id) (fun _ => InStep) InStep := by
  refine moving_inStep fun w deep' carried returned fresh => ?_
  dsimp only
  split
  · exact Triple.thrown fun _ same => same ▸ deep'.inStep
  · exact Triple.changed (record_moved deep heard deep' carried returned fresh rfl)

theorem restore_inStep : Triple (fun w => (Deep host answers may settled w ∧ w.returned id = true) ∧
        Booked host answers (fun _ => False) may w)
      (restore host answers id) (fun _ => InStep) InStep := by
  refine moving_inStep fun w deep' carried returned fresh => ?_
  dsimp only
  split
  · exact Triple.returned fun _ same => same ▸ deep'.inStep
  · next state stack popped =>
    exact Triple.changed
      (record_moved deep heard deep' carried returned fresh (by simp [popped, Op.depth]))

end

section Calls

theorem Deep.left {script : Script α} (keeps : Keeps (Deep host answers may settled) script) :
    Triple (Deep host answers may settled) script (fun _ => InStep) InStep :=
  keeps.weaken (fun _ held => held) (fun _ _ => Deep.inStep) fun _ => Deep.inStep

variable {n : List Number} {op : Op}

theorem record_inStep {value : Option Brush} (still : ¬ op.moves) :
    Triple (fun w => Deep host answers may settled w ∧ w.returned id = true)
      (record host answers id op n value) (fun _ => InStep) InStep :=
  (record_owed (fun depth => by rw [Op.depth_of_not_moves still]; rfl)
    (fun _ _ => by simp [settled, Op.moves]) fun _ _ => by simp [settled, Op.moves]).weaken
    (fun _ held => held) (fun _ _ held => held) fun _ => Deep.inStep

theorem path_inStep : Triple (fun w => Deep host answers may settled w ∧ w.returned id = true)
      (path host answers id op n) (fun _ => InStep) InStep := by
  unfold path
  split
  · exact Triple.returned fun _ held => held.1.inStep
  · split
    · exact Triple.thrown fun _ held => held.1.inStep
    · next counted _ =>
      refine record_inStep fun moves => ?_
      rcases moves with rfl | rfl <;> simp [Op.count] at counted

theorem draw_inStep : Triple (fun w => Deep host answers may settled w ∧ w.returned id = true)
      (draw host answers id op n) (fun _ => InStep) InStep := by
  refine Triple.looked fun w held => Triple.provided (fun draws => ?_)
    fun _ _ same => same ▸ held.1.inStep
  refine (record_inStep fun moves => ?_).started held
  rcases moves with rfl | rfl <;> simp [Op.draws] at draws

theorem assign_inStep {change : DrawState → DrawState} :
    Triple (Deep host answers may settled) (assign host answers id change)
      (fun _ => InStep) InStep := by
  refine Triple.next ((settled_durable.ensuring id).weaken (fun _ held => held)
    (fun _ _ held => held) fun _ => Deep.inStep) fun _ => Triple.looked fun w held =>
    Triple.modified fun s same => ?_
  subst same
  have assigned : Booked host answers (fun op => ¬ op.moves) may
      (s.put id { s.context id with state := change (s.context id).state }) :=
    held.1.carried rfl rfl rfl
  refine ⟨assigned.toLedger, held.2.congr (fun other => ?_) rfl⟩
  by_cases same : other = id
  · subst same
    simp
  · simp [World.context_put_other same]

variable {image : Image}

theorem attach_inStep (still : ¬ op.moves) :
    Triple (fun w => Deep host answers may settled w ∧ w.returned id = true)
      (attach host answers id op n image) (fun _ => InStep) InStep := by
  have durable : Durable host answers may fun w =>
      Deep host answers may settled w ∧ w.returned id = true :=
    settled_durable.both (returned_durable id)
  refine Triple.weaken (F := fun w => Deep host answers may settled w ∧ w.returned id = true) ?_
    (fun _ held => held) (fun _ _ held => held) fun _ held => held.1.inStep
  refine Triple.next (durable.toStable.room durable.switching id 0) fun _ =>
    Triple.next (durable.source id image) fun _ =>
    Triple.next (R := fun _ => InStep) (Triple.modified fun s held => ?_) fun _ =>
    Triple.next (R := fun _ => InStep) (Triple.modified fun s held => ?_) fun _ =>
      Triple.modified fun s held => ?_
  · exact ⟨held.1.1.toLedger.pushed held.2 .., held.1.2.pushed
      (fun depth => by rw [Op.depth_of_not_moves still]; rfl)
      fun _ _ => by simp [settled, Op.moves]⟩
  all_goals
    exact ⟨⟨held.ledger.issued, held.ledger.spent, held.ledger.unreturned⟩,
      held.stacked.congr (fun _ => ⟨rfl, rfl⟩) rfl⟩

theorem storing_inStep {rest : Script Unit}
    (stores : Triple (fun w => Deep host answers may settled w ∧ w.returned id = true) rest
      (fun _ => InStep) InStep) :
    Triple (fun w => Deep host answers may settled w ∧ w.returned id = true)
      (do order host answers host.frames id
          ensure host answers (order host answers host.frames) id
          rest) (fun _ => InStep) InStep :=
  Triple.next (((settled_returned id).switching id).weaken (fun _ held => held)
    (fun _ _ held => held) fun _ held => held.1.inStep) fun _ =>
  Triple.next (((settled_returned id).ensuring id).weaken (fun _ held => held)
    (fun _ _ held => held) fun _ held => held.1.inStep) fun _ => stores

theorem drawImage_inStep : Triple (fun w => Deep host answers may settled w ∧ w.returned id = true)
      (drawImage host answers id image n) (fun _ => InStep) InStep := by
  refine storing_inStep (Triple.next (((settled_returned id).pixelsOf image).weaken
    (fun _ held => held) (fun _ _ held => held) fun _ held => held.1.inStep) fun _ => ?_)
  split
  · split
    · exact Triple.returned fun _ held => held.1.inStep
    · exact attach_inStep (by simp [Op.moves])
  · exact Triple.thrown fun _ held => held.1.inStep

theorem putImageData_inStep :
    Triple (fun w => Deep host answers may settled w ∧ w.returned id = true)
      (putImageData host answers id image n) (fun _ => InStep) InStep := by
  refine storing_inStep ?_
  split
  · split
    · exact Triple.thrown fun _ held => held.1.inStep
    · exact attach_inStep (by simp [Op.moves])
  · exact Triple.thrown fun _ held => held.1.inStep

theorem resize_inStep {size : Nat × Nat} {told : Bool}
    (renews : told = true → may id) :
    Triple (Deep host answers may settled) (resize host answers id size told)
      (fun _ => InStep) InStep := by
  refine Triple.looked fun w held => Triple.changed ?_
  have unseen : InStep { w with sizes := Function.update w.sizes id size } :=
    ⟨⟨held.1.issued, held.1.spent, held.1.unreturned⟩, held.2.congr (fun _ => ⟨rfl, rfl⟩) rfl⟩
  refine Triple.provided (fun renewed => ?_) fun _ _ same => same ▸ unseen
  have allowed : may id := renews (by simp_all)
  have changed : Deep host answers may settled
      { w with sizes := Function.update w.sizes id size } := by
    refine ⟨⟨unseen.ledger, held.1.pending, held.1.resets, fun other behind => ?_, held.1.fresh⟩,
      unseen.stacked⟩
    by_cases same : other = id
    · exact same ▸ allowed
    · exact held.1.stale other (by simpa [World.stale, same] using behind)
  exact ((settled_durable.toStable.reset settled_durable.switching allowed).weaken
    (fun _ held => held) (fun _ _ held => held.1.inStep) fun _ => Deep.inStep).started changed

theorem close_inStep {handle : Nat} :
    Triple (Deep host answers may settled) (close host answers handle)
      (fun _ => InStep) InStep := by
  refine Triple.looked fun w held => Triple.provided (fun _ => ?_)
    fun _ _ same => same ▸ held.inStep
  refine Triple.next ((settled_durable.submit2D.weaken (fun _ held => held)
    (fun _ _ held => held) fun _ => Deep.inStep).started held) fun _ => Triple.modified fun s held => ?_
  exact ⟨⟨held.1.issued, held.1.spent, held.1.unreturned⟩,
    held.2.congr (fun _ => ⟨rfl, rfl⟩) rfl⟩

theorem flush2D_inStep :
    Triple (Deep host answers may settled) (flush2D host answers) (fun _ => InStep) InStep := by
  refine Triple.looked fun w held => Triple.changed ?_
  have cleared : Deep host answers may settled { w with dirty := [] } :=
    ⟨held.1.congr rfl rfl rfl rfl rfl, held.2.congr (fun _ => ⟨rfl, rfl⟩) rfl⟩
  refine Triple.next (((settled_durable.paintEach w.dirty).weaken (fun _ held => held)
    (fun _ _ held => held) fun _ => Deep.inStep).started cleared) fun _ => Triple.modified fun s held => ?_
  exact ⟨⟨held.1.issued, held.1.spent, held.1.unreturned⟩,
    held.2.congr (fun _ => ⟨rfl, rfl⟩) rfl⟩

end Calls
end

/-- The batches and the resets of a call are such that the native side can follow the page: every
command of a pending batch but the last is carried out, and so is a last one that saves or
restores; a reset is accepted where there is something to take back; and a call that moves the
stack of the page is refused nothing before it has recorded its command. -/
structure Steady (host : Host) (w : World) (step : Step) : Prop where
  pending : ∀ id, Native.Sendable host (fun op => ¬ op.moves) w.native id (w.context id).size
    (w.context id).commands
  resets : ∀ id, w.stale id = true ∨ step.call.renews id = true →
    step.answers.rejects id .reset = none ∨
      w.native.executed id = [] ∧ (w.context id).commands = []
  moves : ∀ id, step.call = .save id ∨ step.call = .restore id →
    2 ≤ host.frames ∧ (∀ other action, step.answers.rejects other action = none) ∧
      ∀ other, Native.Carried host w.native other (w.context other).size
        (w.context other).commands

/-- The contexts a call may reset. -/
def World.renewable (w : World) (call : Call) (id : Nat) : Prop :=
  w.stale id = true ∨ call.renews id = true ∨ w.returned id = false

section
variable {host : Host} {w : World} {step : Step}

theorem Ledger.booked {harmless : Op → Prop} (ledger : Ledger w)
    (pending : ∀ id, Native.Sendable host harmless w.native id (w.context id).size
      (w.context id).commands)
    (resets : ∀ id, w.stale id = true ∨ step.call.renews id = true →
      step.answers.rejects id .reset = none ∨
        w.native.executed id = [] ∧ (w.context id).commands = []) :
    Booked host step.answers harmless (w.renewable step.call) w where
  toLedger := ledger
  pending := pending
  resets id allowed := by
    rcases allowed with behind | renewed | unreturned
    · exact resets id (.inl behind)
    · exact resets id (.inr renewed)
    · exact .inr ⟨ledger.fresh unreturned, (ledger.unreturned id unreturned).1⟩
  stale _ behind := .inl behind
  fresh _ unreturned := .inr (.inr unreturned)

theorem perform_inStep (inStep : InStep w) (steady : Steady host w step)
    (received : step.call.receiver.all w.returned = true) :
    Triple (· = w) (perform host step.answers step.call) (fun _ => InStep) InStep := by
  have held : Deep host step.answers (w.renewable step.call) settled w :=
    ⟨inStep.ledger.booked steady.pending steady.resets, inStep.stacked⟩
  have durable : Durable host step.answers (w.renewable step.call)
      (Deep host step.answers (w.renewable step.call) settled) := settled_durable
  have carried : (∀ other, Native.Carried host w.native other (w.context other).size
      (w.context other).commands) →
      Booked host step.answers (fun _ => False) (w.renewable step.call) w :=
    fun carried => inStep.ledger.booked carried steady.resets
  have flushed : ∀ id action, action ≠ .reset →
      Triple (· = w) (flush host step.answers (order host step.answers host.frames) id action)
        (fun _ => InStep) InStep := fun id action sends =>
    (Deep.left (durable.toStable.flush durable.switching sends id)).started held
  obtain ⟨call, answers⟩ := step
  cases call with
  | make id => exact (Deep.left (durable.make id)).started held
  | path id op n => exact path_inStep.started ⟨held, by simpa [Call.receiver] using received⟩
  | clip id rule =>
    exact (record_inStep (by simp [Op.moves])).started
      ⟨held, by simpa [Call.receiver] using received⟩
  | draw id op n => exact draw_inStep.started ⟨held, by simpa [Call.receiver] using received⟩
  | save id =>
    obtain ⟨deep, heard, all⟩ := steady.moves id (.inl rfl)
    exact (save_inStep deep heard).started
      ⟨⟨held, by simpa [Call.receiver] using received⟩, carried all⟩
  | restore id =>
    obtain ⟨deep, heard, all⟩ := steady.moves id (.inr rfl)
    exact (restore_inStep deep heard).started
      ⟨⟨held, by simpa [Call.receiver] using received⟩, carried all⟩
  | transform | setTransform | fillStyle | strokeStyle =>
    dsimp only [perform]
    exact assign_inStep.started held
  | createPattern id image =>
    exact (Deep.left (Keeps.next (durable.ensuring id) fun _ => durable.pixelsOf image)).started held
  | drawImage id image n =>
    exact drawImage_inStep.started ⟨held, by simpa [Call.receiver] using received⟩
  | putImageData id image n =>
    exact putImageData_inStep.started ⟨held, by simpa [Call.receiver] using received⟩
  | measureText id =>
    exact (Deep.left (Keeps.next (durable.ensuring id) fun _ =>
      durable.toStable.flush durable.switching (by decide) id)).started held
  | getImageData id => exact flushed id .read (by decide)
  | isPointIn id => exact flushed id .hit (by decide)
  | pixels id => exact flushed id .snapshot (by decide)
  | reset id =>
    have allowed : w.renewable (.reset id) id := .inr (.inl (by simp [Call.renews]))
    exact ((durable.toStable.reset durable.switching allowed).weaken (fun _ held => held)
      (fun _ _ held => held.1.inStep) fun _ => Deep.inStep).started held
  | resize id size told =>
    exact (resize_inStep fun told => .inr (.inl (by simp [Call.renews, told]))).started held
  | close handle => exact close_inStep.started held
  | bitmaps handles =>
    refine Triple.modified fun s same => ?_
    subst same
    exact ⟨⟨inStep.ledger.issued, inStep.ledger.spent, inStep.ledger.unreturned⟩,
      ⟨inStep.stacked.depth, inStep.stacked.tidy⟩⟩
  | submit2D => exact (Deep.left durable.submit2D).started held
  | flush2D => exact flush2D_inStep.started held

theorem InStep.after (inStep : InStep w) (steady : Steady host w step) :
    InStep (w.after host step) := by
  unfold World.after
  split
  · next received =>
    exact Triple.left (perform_inStep inStep steady received) rfl (fun _ _ held => held)
      fun _ held => held
  · exact inStep

theorem initial_inStep (sizes : Nat → Nat × Nat) : InStep (World.initial sizes) where
  ledger := ⟨fun _ => rfl, nofun, fun _ _ => ⟨rfl, rfl⟩⟩
  stacked := ⟨fun _ => rfl, nofun⟩

/-- In a run of steady calls, whatever is refused and wherever a call throws, the saves of every
canvas are as many as its context's stack is high once the pending commands are carried out, so
also after every flush, when none is pending; and no command is dropped for one refused before
it. -/
theorem reached_inStep
    (run : Transition.Reachable (fun w => ∃ sizes, w = World.initial sizes)
      (Transition.restrict (fun w step after => w.after host step = after) (Steady host)) w) :
    (∀ id, (w.context id).commands = [] →
        w.native.depth id = (w.context id).stack.length) ∧
      (∀ id, depthAfter (w.native.depth id) (w.context id).commands =
        (w.context id).stack.length) ∧
      ∀ id, (w.context id).issued =
        w.native.executed id ++ (w.context id).commands.map Command.serial := by
  have inStep : InStep w := by
    refine run.invariant ?_ ?_
    · rintro _ ⟨sizes, rfl⟩
      exact initial_inStep sizes
    · rintro s step t _ inStep ⟨rfl, steady⟩
      exact inStep.after steady
  refine ⟨fun id idle => ?_, inStep.stacked.depth, inStep.ledger.issued⟩
  have depth := inStep.stacked.depth id
  rwa [idle] at depth

end

/-- A native side with no checks but its own of numbers and limits. -/
def plainHost : Host where
  frames := 8
  rejects _ _ := none
  refuses _ _ := none
  round := some

def plainAnswers : Answers where
  rejects _ _ := none
  fails _ _ := none
  sources _ := none

/-- A page whose canvases have their default size, after some calls. -/
def plainRun (calls : List Call) : World :=
  (calls.map fun call => (⟨call, plainAnswers⟩ : Step)).foldl (World.after plainHost)
    (World.initial fun _ => (300, 150))

theorem pending_among {harmless : Op → Prop} {w : World} (ledger : Ledger w) (ids : List Nat)
    (among : ∀ id, id ∉ ids → w.returned id = false)
    (pending : ∀ id ∈ ids, Native.Sendable plainHost harmless w.native id (w.context id).size
      (w.context id).commands) (id : Nat) :
    Native.Sendable plainHost harmless w.native id (w.context id).size (w.context id).commands := by
  by_cases member : id ∈ ids
  · exact pending id member
  · rw [(ledger.unreturned id (among id member)).1]
    exact fun batch => absurd rfl batch

/-- A save, then a coordinate that is out of range: the batch ends with what is refused. -/
theorem reached_inStep_refused :
    (plainRun [.make 0, .save 0, .path 0 .moveTo [some 100000000, some 0],
      .getImageData 0]).native.depth 0 = 1 := by
  have idle : ∀ {harmless : Op → Prop} {native : Native} {size : Nat × Nat} id,
      Native.Sendable plainHost harmless native id size [] := fun _ batch => absurd rfl batch
  have alone : ∀ id, id ∉ [0] → Function.update (fun _ => false) 0 true id = false :=
    fun id apart => Function.update_of_ne (by simpa using apart) _ _
  have first : Steady plainHost (plainRun []) ⟨.make 0, plainAnswers⟩ :=
    ⟨idle, fun _ _ => .inl rfl, nofun⟩
  have made := (initial_inStep fun _ => (300, 150)).after first
  have second : Steady plainHost (plainRun [.make 0]) ⟨.save 0, plainAnswers⟩ :=
    ⟨pending_among made.ledger [0] alone (List.forall_mem_singleton.mpr (idle 0)), fun _ _ => .inl rfl, fun _ _ =>
      ⟨by decide, fun _ _ => rfl, pending_among made.ledger [0] alone (List.forall_mem_singleton.mpr (idle 0))⟩⟩
  have saved := made.after second
  have third : Steady plainHost (plainRun [.make 0, .save 0])
      ⟨.path 0 .moveTo [some 100000000, some 0], plainAnswers⟩ :=
    ⟨pending_among saved.ledger [0] alone (List.forall_mem_singleton.mpr fun _ =>
      ⟨by decide, by decide, rfl, .inl ⟨nofun, by decide, trivial⟩⟩),
      fun _ _ => .inl rfl, nofun⟩
  have moved := saved.after third
  have fourth : Steady plainHost (plainRun [.make 0, .save 0,
      .path 0 .moveTo [some 100000000, some 0]]) ⟨.getImageData 0, plainAnswers⟩ :=
    ⟨pending_among moved.ledger [0] alone (List.forall_mem_singleton.mpr fun _ =>
      ⟨by decide, by decide, rfl,
        .inl ⟨nofun, by decide, .inr ⟨rfl, by rintro (moves | moves) <;> cases moves⟩⟩⟩),
      fun _ _ => .inl rfl, nofun⟩
  have run : Transition.Reachable (fun w => ∃ sizes, w = World.initial sizes)
      (Transition.restrict (fun w step after => World.after plainHost w step = after)
        (Steady plainHost))
      (plainRun [.make 0, .save 0, .path 0 .moveTo [some 100000000, some 0], .getImageData 0]) :=
    .next (.next (.next (.next (.start ⟨_, rfl⟩) ⟨rfl, first⟩) ⟨rfl, second⟩) ⟨rfl, third⟩)
      ⟨rfl, fourth⟩
  exact (reached_inStep run).1 0 (by decide)

/-- A coordinate out of the range of the native side, then a save: the save is dropped with it. -/
theorem reached_not_inStep :
    ¬ ∀ w, Transition.Reachable (fun w => ∃ sizes, w = World.initial sizes)
      (fun w step after => World.after plainHost w step = after) w →
      ∀ id, (w.context id).commands = [] →
        w.native.depth id = (w.context id).stack.length := by
  intro always
  have run : Transition.Reachable (fun w => ∃ sizes, w = World.initial sizes)
      (fun w step after => World.after plainHost w step = after)
      (plainRun [.make 0, .path 0 .moveTo [some 100000000, some 0], .save 0, .getImageData 0]) :=
    Transition.Reachable.run _ (.start ⟨_, rfl⟩)
  exact absurd (always _ run 0 (by decide)) (by decide)

end Chuzz.Canvas2D
