import Chuzz.Canvas2D.Native

/-! What a batch does to the native side: to the canvas it is for, to the other canvases and to
what is known of the canvases that its commands read. -/
namespace Chuzz.Canvas2D
open Library.Throwing

/-- The save depth after an operation that was carried out. -/
def Op.depth : Op → Nat → Nat
  | .save, depth => depth + 1
  | .restore, depth => depth - 1
  | _, depth => depth

def depthAfter (depth : Nat) (commands : List Command) : Nat :=
  commands.foldl (fun depth command => command.op.depth depth) depth

/-- The command draws the canvas. -/
def Command.reads (command : Command) (source : Nat) : Prop :=
  ∃ issued, command.image = some (.canvas source issued)

/-- The two operations that move the save depth. -/
def Op.moves (op : Op) : Prop := op = .save ∨ op = .restore

theorem Op.depth_of_not_moves {op : Op} (still : ¬ op.moves) (depth : Nat) :
    op.depth depth = depth := by
  cases op <;> simp_all [Op.moves, Op.depth]

namespace Canvas

theorem effect_depth (canvas : Canvas) (command : Command) :
    (canvas.effect command).saves.length = command.op.depth canvas.saves.length := by
  unfold effect Op.depth
  cases command.op <;> try rfl
  cases stack : canvas.saves <;> simp [stack]

@[simp] theorem effect_size (canvas : Canvas) (command : Command) :
    (canvas.effect command).size = canvas.size := by
  unfold effect
  cases command.op <;> try rfl
  cases canvas.saves <;> rfl

@[simp] theorem effect_executed (canvas : Canvas) (command : Command) :
    (canvas.effect command).executed = canvas.executed := by
  unfold effect
  cases command.op <;> try rfl
  cases canvas.saves <;> rfl

def had (serial : Nat) (canvas : Canvas) : Canvas :=
  { canvas with executed := canvas.executed ++ [serial] }

end Canvas

namespace Native
variable {host : Host} {native : Native} {id other source : Nat} {canvas : Canvas}
  {command : Command}

def depth (native : Native) (id : Nat) : Nat :=
  (native.canvases id).elim 0 fun canvas => canvas.saves.length

@[simp] theorem put_same (native : Native) (id : Nat) (canvas : Canvas) :
    (native.put id canvas).canvases id = some canvas := by simp [put]

theorem put_other (native : Native) (canvas : Canvas) (apart : other ≠ id) :
    (native.put id canvas).canvases other = native.canvases other := by simp [put, apart]

@[simp] theorem put_readings (native : Native) (id : Nat) (canvas : Canvas) :
    (native.put id canvas).readings = native.readings := rfl

@[simp] theorem put_bitmaps (native : Native) (id : Nat) (canvas : Canvas) :
    (native.put id canvas).bitmaps = native.bitmaps := rfl

@[simp] theorem put_painted (native : Native) (id : Nat) (canvas : Canvas) :
    (native.put id canvas).painted = native.painted := rfl

/-- The canvases a command draws are there. -/
def Resolves (native : Native) (command : Command) : Prop :=
  ∀ source issued, command.image = some (.canvas source issued) →
    (native.canvases source).isSome = true

@[simp] theorem read_canvases (native : Native) (command : Command) :
    (native.read command).canvases = native.canvases := by
  unfold read
  split <;> rfl

@[simp] theorem read_bitmaps (native : Native) (command : Command) :
    (native.read command).bitmaps = native.bitmaps := by
  unfold read
  split <;> rfl

@[simp] theorem read_painted (native : Native) (command : Command) :
    (native.read command).painted = native.painted := by
  unfold read
  split <;> rfl

theorem resolve_present (resolves : native.Resolves command) :
    resolve id command native = .ok () (native.read command) := by
  cases drawn : command.image with
  | none => simp [resolve, read, drawn, pure, EStateM.pure]
  | some image =>
    cases image with
    | canvas source issued =>
      obtain ⟨pixels, present⟩ := Option.isSome_iff_exists.mp (resolves source issued drawn)
      simp only [resolve, drawn, get_bind, present]
      rfl
    | _ => simp [resolve, read, drawn, pure, EStateM.pure]

theorem had_present (present : native.canvases id = some canvas) (serial : Nat) :
    native.had id serial = native.put id (canvas.had serial) := by
  rw [Native.had, present]
  rfl

theorem resolve_missing (present : native.canvases id = some canvas)
    (missing : ¬ native.Resolves command) :
    ∃ error, resolve id command native =
      .error error (native.put id (canvas.had command.serial)) := by
  unfold Resolves at missing
  push_neg at missing
  obtain ⟨source, issued, drawn, missing⟩ := missing
  have absent : native.canvases source = none := by simpa using missing
  refine ⟨"native source canvas was released", ?_⟩
  simp only [resolve, drawn, get_bind, absent, modify_bind, had_present present]
  rfl

/-- What a turn can do to a native side that has the canvas: the command is carried out, its
source is missing, or the canvas refuses it. -/
theorem turn_cases (host : Host) (command : Command) (present : native.canvases id = some canvas) :
    (native.Resolves command ∧ canvas.accepts host command = true ∧
      turn host id command native =
        .ok () ((native.read command).put id ((canvas.effect command).had command.serial))) ∨
    (¬ (native.Resolves command ∧ canvas.accepts host command = true) ∧
      ∃ error read, (read = native ∨ read = native.read command) ∧
        turn host id command native = .error error (read.put id (canvas.had command.serial))) := by
  unfold turn
  by_cases resolves : native.Resolves command
  · have there : (native.read command).canvases id = some canvas := by simp [present]
    rw [bind_ok (resolve_present resolves), get_bind]
    simp only [there]
    cases accepted : canvas.accepts host command with
    | true =>
      left
      rw [Canvas.execute_accepted host canvas command accepted]
      refine ⟨resolves, rfl, ?_⟩
      simp only [modify_bind, modify_run]
      rw [had_present (put_same _ id _)]
      simp [put]
    | false =>
      right
      obtain ⟨error, refused⟩ := Canvas.execute_refused host canvas command accepted
      refine ⟨fun both => by simp at both, error, native.read command, .inr rfl, ?_⟩
      simp only [refused, modify_bind, had_present there]
      rfl
  · right
    obtain ⟨error, missed⟩ := resolve_missing present resolves
    exact ⟨fun both => resolves both.1, error, native, .inl rfl, bind_error missed⟩

/-- The commands of a batch are carried out, but for the last one where it is harmless: with
that one the batch ends, whatever becomes of it. -/
def Orderly (host : Host) (harmless : Op → Prop) (native : Native) : Canvas → List Command → Prop
  | _, [] => True
  | canvas, command :: rest =>
    (native.Resolves command ∧ canvas.accepts host command = true ∧
      Orderly host harmless native ((canvas.effect command).had command.serial) rest) ∨
    (rest = [] ∧ harmless command.op)

/-- Where the commands of a batch draw a canvas, the page took it to be as it then is. Of the
canvas the batch is for, `had` are the commands before. -/
def Current (native : Native) (id : Nat) : List Nat → List Command → Prop
  | _, [] => True
  | had, command :: rest =>
    (∀ source issued, command.image = some (.canvas source issued) →
      issued = if source = id then had else native.executed source) ∧
    Current native id (had ++ [command.serial]) rest

/-- What a batch leaves, whether or not its last command was refused. -/
structure Batched (id : Nat) (harmless : Op → Prop) (canvas : Canvas) (commands : List Command)
    (before after : Native) : Prop where
  others : ∀ other, other ≠ id → after.canvases other = before.canvases other
  bitmaps : after.bitmaps = before.bitmaps
  painted : after.painted = before.painted
  own : ∃ next, after.canvases id = some next ∧ next.size = canvas.size ∧
    next.executed = canvas.executed ++ commands.map Command.serial ∧
    ((∀ op, harmless op → ¬ op.moves) →
      next.saves.length = depthAfter canvas.saves.length commands)
  readings : Current before id canvas.executed commands →
    ∀ reading ∈ after.readings, reading ∈ before.readings ∨ reading.executed = reading.issued

variable {later : Native}

theorem Orderly.mono {harmless : Op → Prop} {commands : List Command}
    (orderly : Orderly host harmless native canvas commands)
    (remains : ∀ id, (native.canvases id).isSome = true → (later.canvases id).isSome = true) :
    Orderly host harmless later canvas commands := by
  induction commands generalizing canvas with
  | nil => trivial
  | cons command rest ih =>
    rcases orderly with ⟨resolves, accepted, orderly⟩ | last
    · exact .inl ⟨fun source issued drawn => remains source (resolves source issued drawn),
        accepted, ih orderly⟩
    · exact .inr last

theorem executed_congr (same : later.canvases id = native.canvases id) :
    later.executed id = native.executed id := by
  rw [executed, executed, same]

theorem Current.congr {commands : List Command} {had : List Nat}
    (current : Current native id had commands)
    (same : ∀ source, source ≠ id → (∃ command ∈ commands, command.reads source) →
      later.executed source = native.executed source) : Current later id had commands := by
  induction commands generalizing had with
  | nil => trivial
  | cons command rest ih =>
    refine ⟨fun source issued drawn => ?_, ih current.2 fun source apart read =>
      same source apart (read.imp fun _ found => ⟨List.mem_cons_of_mem _ found.1, found.2⟩)⟩
    rw [current.1 source issued drawn]
    split
    · rfl
    · next apart => exact (same source apart ⟨command, List.mem_cons_self, issued, drawn⟩).symm

theorem executed_present (present : native.canvases id = some canvas) :
    native.executed id = canvas.executed := by
  rw [executed, present]
  rfl

theorem depth_present (present : native.canvases id = some canvas) :
    native.depth id = canvas.saves.length := by
  rw [depth, present]
  rfl

section
variable {harmless : Op → Prop}

theorem Batched.refl (present : native.canvases id = some canvas) :
    Batched id harmless canvas [] native native where
  others _ _ := rfl
  bitmaps := rfl
  painted := rfl
  own := ⟨canvas, present, rfl, by simp, fun _ => rfl⟩
  readings _ _ member := .inl member

theorem Batched.single {next : Canvas} {reading : Native}
    (present : native.canvases id = some canvas)
    (noted : reading = native ∨ reading = native.read command) (size : next.size = canvas.size)
    (executed : next.executed = canvas.executed ++ [command.serial])
    (depth : (∀ op, harmless op → ¬ op.moves) →
      next.saves.length = command.op.depth canvas.saves.length) :
    Batched id harmless canvas [command] native (reading.put id next) where
  others other apart := by rw [put_other _ _ apart]; rcases noted with rfl | rfl <;> simp
  bitmaps := by rcases noted with rfl | rfl <;> simp
  painted := by rcases noted with rfl | rfl <;> simp
  own := ⟨next, put_same .., size, executed, depth⟩
  readings := by
    intro current found member
    rcases noted with rfl | rfl
    · exact .inl member
    · rw [put_readings, read] at member
      split at member
      · next source issued drawn =>
        rcases List.mem_append.mp member with member | member
        · exact .inl member
        · right
          rw [List.mem_singleton.mp member, current.1 source issued drawn]
          split
          · next same => rw [same, executed_present present]
          · rfl
      · exact .inl member

theorem Batched.cons {next : Canvas} {middle after : Native}
    {rest : List Command} (first : Batched id harmless canvas [command] native middle)
    (reached : middle.canvases id = some next)
    (later : Batched id harmless next rest middle after) :
    Batched id harmless canvas (command :: rest) native after := by
  obtain ⟨next', reached', size, executed, depth⟩ := first.own
  obtain rfl : next' = next := Option.some.inj (reached'.symm.trans reached)
  refine ⟨fun other apart => (later.others other apart).trans (first.others other apart),
    later.bitmaps.trans first.bitmaps, later.painted.trans first.painted, ?_, ?_⟩
  · obtain ⟨last, present, size', executed', depth'⟩ := later.own
    refine ⟨last, present, size'.trans size, ?_, fun still => ?_⟩
    · rw [executed', executed]
      simp
    · rw [depth' still, depth still]
      rfl
  · intro current reading member
    have follows : Current middle id next'.executed rest := by
      rw [executed]
      exact current.2.congr fun other apart _ => executed_congr (first.others other apart)
    rcases later.readings follows reading member with member | same
    · exact first.readings ⟨current.1, trivial⟩ reading member
    · exact .inr same

theorem perform_batched {commands : List Command} (present : native.canvases id = some canvas)
    (orderly : Orderly host harmless native canvas commands) :
    Triple (· = native) (perform host id commands)
      (fun _ => Batched id harmless canvas commands native)
      (Batched id harmless canvas commands native) := by
  induction commands generalizing native canvas with
  | nil =>
    rintro s rfl
    exact .refl present
  | cons command rest ih =>
    rintro s rfl
    rcases turn_cases host command present with
      ⟨resolves, accepted, ran⟩ | ⟨refused, error, reading, noted, ran⟩
    · have first : Batched id harmless canvas [command] s
          ((s.read command).put id ((canvas.effect command).had command.serial)) :=
        .single present (.inr rfl) (canvas.effect_size command) (by simp [Canvas.had])
          fun _ => canvas.effect_depth command
      have behind : Orderly host harmless s ((canvas.effect command).had command.serial) rest := by
        rcases orderly with ⟨_, _, orderly⟩ | ⟨rfl, _⟩
        · exact orderly
        · trivial
      have remains : ∀ id', (s.canvases id').isSome = true →
          (((s.read command).put id
            ((canvas.effect command).had command.serial)).canvases id').isSome = true := by
        intro id' there
        by_cases same : id' = id
        · simp [same]
        · rwa [put_other _ _ same, read_canvases]
      have later := ih (put_same _ id _) (behind.mono remains) _ rfl
      rw [perform, bind_ok ran]
      split <;> rename_i ended <;> rw [ended] at later <;> exact first.cons (put_same ..) later
    · rcases orderly with ⟨resolves, accepted, _⟩ | ⟨rfl, still⟩
      · exact absurd ⟨resolves, accepted⟩ refused
      · rw [perform, bind_error ran]
        exact .single present noted rfl rfl fun harmless =>
          (Op.depth_of_not_moves (harmless _ still) _).symm

end

section Canvas
variable {size : Nat × Nat}

theorem canvas_size (native : Native) (id : Nat) (size : Nat × Nat) :
    (native.canvas id size).size = size := by
  unfold canvas
  split
  · split
    · assumption
    · rfl
  · rfl

theorem canvas_fitting (present : native.canvases id = some canvas) (fits : canvas.size = size) :
    native.canvas id size = canvas := by
  simp [Native.canvas, present, fits]

theorem canvas_saves (spent : ∀ canvas, native.canvases id = some canvas →
    canvas.size = size ∨ canvas.saves = []) :
    (native.canvas id size).saves.length = native.depth id := by
  unfold canvas depth
  cases present : native.canvases id with
  | none => rfl
  | some canvas => rcases spent canvas present with fits | spent <;> simp_all [apply_ite]

theorem canvas_executed (spent : ∀ canvas, native.canvases id = some canvas →
    canvas.size = size ∨ canvas.executed = []) :
    (native.canvas id size).executed = native.executed id := by
  unfold canvas executed
  cases present : native.canvases id with
  | none => rfl
  | some canvas => rcases spent canvas present with fits | spent <;> simp_all [apply_ite]

end Canvas

/-- What a request that is no reset leaves: it may have been rejected with nothing to do, and it
may fail once its commands are done. -/
structure Served (id : Nat) (size : Nat × Nat) (harmless : Op → Prop) (commands : List Command)
    (before after : Native) : Prop where
  others : ∀ other, other ≠ id → after.canvases other = before.canvases other
  bitmaps : after.bitmaps = before.bitmaps
  painted : ∀ other, other ≠ id → after.painted other = before.painted other
  repainted : after.painted id = before.painted id ∨
    after.painted id = some (after.canvas id size).executed
  fits : (after.canvases id = before.canvases id ∧ commands = []) ∨
    ∃ next, after.canvases id = some next ∧ next.size = size
  executed : (after.canvas id size).executed =
    (before.canvas id size).executed ++ commands.map Command.serial
  depth : (∀ op, harmless op → ¬ op.moves) → (after.canvas id size).saves.length =
    depthAfter (before.canvas id size).saves.length commands
  readings : Current before id (before.canvas id size).executed commands →
    ∀ reading ∈ after.readings, reading ∈ before.readings ∨ reading.executed = reading.issued

/-- A batch that the native side takes up to its last command. -/
def Sendable (host : Host) (harmless : Op → Prop) (native : Native) (id : Nat) (size : Nat × Nat)
    (commands : List Command) : Prop :=
  commands ≠ [] → commands.all parses = true ∧ commands.all native.holds = true ∧
    host.rejects id commands = none ∧
    Orderly host harmless native (native.canvas id size) commands

theorem Sendable.prepared {size : Nat × Nat} {harmless : Op → Prop} {commands : List Command}
    (sendable : Sendable host harmless native id size commands) :
    Orderly host harmless (native.put id (native.canvas id size)) (native.canvas id size)
      commands := by
  by_cases idle : commands = []
  · rw [idle]
    trivial
  · refine (sendable idle).2.2.2.mono fun other there => ?_
    by_cases same : other = id
    · simp [same]
    · rwa [put_other _ _ same]

section Requests
variable {size : Nat × Nat} {harmless : Op → Prop} {commands : List Command} {action : Action}
  {answers : Answers} {after : Native}

theorem Served.refl : Served id size harmless [] native native where
  others _ _ := rfl
  bitmaps := rfl
  painted _ _ := rfl
  repainted := .inl rfl
  fits := .inl ⟨rfl, rfl⟩
  executed := by simp
  depth _ := rfl
  readings _ _ member := .inl member

theorem Batched.served (batched : Batched id harmless (native.canvas id size) commands
    (native.put id (native.canvas id size)) after) :
    Served id size harmless commands native after := by
  obtain ⟨next, present, sized, executed, depth⟩ := batched.own
  have fits : next.size = size := sized.trans (native.canvas_size id size)
  have target := canvas_fitting present fits
  refine ⟨fun other apart => ?_, batched.bitmaps, fun other _ => by rw [batched.painted]; rfl,
    .inl (by rw [batched.painted]; rfl), .inr ⟨next, present, fits⟩, by rw [target, executed],
    fun still => by rw [target, depth still], fun current => batched.readings ?_⟩
  · rw [batched.others other apart, put_other _ _ apart]
  · exact current.congr fun other apart _ => executed_congr (put_other _ _ apart)

theorem Served.painting (served : Served id size harmless commands native after)
    (present : after.canvases id = some canvas) (fits : canvas.size = size) :
    Served id size harmless commands native (after.paint id) where
  others := served.others
  bitmaps := served.bitmaps
  painted other apart := by
    rw [← served.painted other apart]
    exact Function.update_of_ne apart ..
  repainted := by
    right
    have target : (after.paint id).canvas id size = canvas := canvas_fitting present fits
    rw [target]
    simp [paint, present]
  fits := served.fits
  executed := served.executed
  depth := served.depth
  readings := served.readings

theorem refuseOn_none (s : σ) : refuseOn none s = .ok () s := rfl

theorem refuseOn_triple {P E : σ → Prop} {Q : Unit → σ → Prop} {error : Option String}
    (holds : ∀ s, P s → Q () s) (thrown : ∀ s, P s → E s) : Triple P (refuseOn error) Q E := by
  cases error with
  | none => exact Triple.returned holds
  | some error => exact Triple.thrown thrown

theorem answer_served (sends : action ≠ .reset) :
    Triple (fun after => Served id size harmless commands native after ∧
        ∃ canvas, after.canvases id = some canvas ∧ canvas.size = size)
      (answer answers { action, id, size, commands })
      (fun _ after => Served id size harmless commands native after ∧
        (action = .paint → after.painted id = some (after.canvas id size).executed))
      (Served id size harmless commands native) := by
  have question : ∀ error, action ≠ .paint →
      Triple (fun after => Served id size harmless commands native after ∧
          ∃ canvas, after.canvases id = some canvas ∧ canvas.size = size)
        (refuseOn error)
        (fun _ after => Served id size harmless commands native after ∧
          (action = .paint → after.painted id = some (after.canvas id size).executed))
        (Served id size harmless commands native) := fun error apart =>
    refuseOn_triple (fun _ held => ⟨held.1, fun same => absurd same apart⟩) fun _ => And.left
  cases action with
  | reset => contradiction
  | submit => exact Triple.returned fun _ held => ⟨held.1, nofun⟩
  | paint =>
    refine Triple.next (R := fun _ after => Served id size harmless commands native after ∧
        ∃ canvas, after.canvases id = some canvas ∧ canvas.size = size)
      (refuseOn_triple (fun _ held => held) fun _ => And.left) fun _ => Triple.modified ?_
    rintro after ⟨served, canvas, present, fits⟩
    refine ⟨served.painting present fits, fun _ => ?_⟩
    have target : (after.paint id).canvas id size = canvas := canvas_fitting present fits
    rw [target]
    simp [paint, present]
  | snapshot => exact question _ nofun
  | read => exact question _ nofun
  | measure => exact question _ nofun
  | hit => exact question _ nofun

/-- Whether it returns or throws, a request that the native side takes up to its last command
leaves the canvas as the page expects it. -/
theorem serve_served (answers : Answers) (sends : action ≠ .reset)
    (sendable : Sendable host harmless native id size commands) :
    Triple (· = native) (serve host answers { action, id, size, commands })
      (fun _ after => Served id size harmless commands native after ∧
        (action = .paint → after.painted id = some (after.canvas id size).executed))
      (Served id size harmless commands native) := by
  rintro s rfl
  unfold serve
  rw [get_bind]
  cases admitted : s.admission host answers { action, id, size, commands } with
  | some error =>
    have idle : commands = [] := by
      by_contra batch
      obtain ⟨parsed, held, accepted, _⟩ := sendable batch
      simp [admission, batch, parsed, held, accepted] at admitted
    subst idle
    exact Served.refl
  | none =>
    rw [bind_ok (refuseOn_none s), modify_bind]
    have prepared : prepare { action, id, size, commands } s = s.put id (s.canvas id size) := by
      simp [prepare, sends]
    rw [prepared]
    have batch := perform_batched (put_same s id _) sendable.prepared
    refine (Triple.next (batch.weaken (fun _ same => same) (fun _ after batched => ?_)
      fun after batched => batched.served) fun _ => answer_served sends) _ rfl
    obtain ⟨next, present, sized, _⟩ := batched.own
    exact ⟨batched.served, next, present, sized.trans (s.canvas_size _ _)⟩

section
variable (served : Served id size harmless commands native after)
include served

theorem Served.executed_after (spent : ∀ canvas, native.canvases id = some canvas →
      canvas.size = size ∨ canvas.executed = []) :
    after.executed id = native.executed id ++ commands.map Command.serial := by
  rcases served.fits with ⟨same, rfl⟩ | ⟨next, present, fits⟩
  · simp [Native.executed, same]
  · have grown := served.executed
    rwa [canvas_fitting present fits, canvas_executed spent, ← executed_present present] at grown

theorem Served.depth_after (spent : ∀ canvas, native.canvases id = some canvas → canvas.size = size ∨ canvas.saves = [])
    (still : ∀ op, harmless op → ¬ op.moves) :
    after.depth id = depthAfter (native.depth id) commands := by
  rcases served.fits with ⟨same, rfl⟩ | ⟨next, present, fits⟩
  · simp [Native.depth, same, depthAfter]
  · have moved := served.depth still
    rwa [canvas_fitting present fits, canvas_saves spent, ← depth_present present] at moved

/-- A canvas is never taken away. -/
theorem Served.remains (there : (native.canvases other).isSome = true) : (after.canvases other).isSome = true := by
  by_cases same : other = id
  · subst same
    rcases served.fits with ⟨same, _⟩ | ⟨next, present, _⟩
    · rwa [same]
    · simp [present]
  · rwa [served.others other same]

end

theorem Sendable.congr (sendable : Sendable host harmless native id size commands)
    (remains : ∀ other, (native.canvases other).isSome = true →
      (after.canvases other).isSome = true)
    (bitmaps : after.bitmaps = native.bitmaps)
    (same : after.canvases id = native.canvases id) :
    Sendable host harmless after id size commands := by
  intro batch
  obtain ⟨parsed, held, accepted, orderly⟩ := sendable batch
  have target : after.canvas id size = native.canvas id size := by
    unfold Native.canvas
    rw [same]
  refine ⟨parsed, ?_, accepted, target ▸ orderly.mono remains⟩
  have holds : after.holds = native.holds := by
    funext command
    unfold Native.holds
    rw [bitmaps]
  rwa [holds]

theorem serve_reset (host : Host) (answers : Answers) (id : Nat) (size : Nat × Nat)
    (native : Native) :
    serve host answers { action := .reset, id, size, commands := [] } native =
      match answers.rejects id .reset with
      | some error => .error error native
      | none => .ok () (native.put id { size }) := by
  unfold serve
  rw [get_bind]
  have admitted : native.admission host answers { action := .reset, id, size, commands := [] } =
      answers.rejects id .reset := by simp [admission]
  rw [admitted]
  cases answers.rejects id .reset with
  | some error => rfl
  | none => rfl

end Requests

/-- Nothing of the batch is refused. -/
abbrev Carried (host : Host) (native : Native) (id : Nat) (size : Nat × Nat)
    (commands : List Command) : Prop :=
  Sendable host (fun _ => False) native id size commands

theorem perform_returns {commands : List Command} (present : native.canvases id = some canvas)
    (orderly : Orderly host (fun _ => False) native canvas commands) :
    ∃ after, perform host id commands native = .ok () after := by
  induction commands generalizing native canvas with
  | nil => exact ⟨native, rfl⟩
  | cons command rest ih =>
    obtain ⟨resolves, accepted, orderly⟩ := orderly.resolve_right fun last => last.2
    rcases turn_cases host command present with
      ⟨_, _, ran⟩ | ⟨refused, _⟩
    · rw [perform, bind_ok ran]
      refine ih (put_same ..) (orderly.mono fun other there => ?_)
      by_cases same : other = id
      · simp [same]
      · rwa [put_other _ _ same, read_canvases]
    · exact absurd ⟨resolves, accepted⟩ refused

theorem serve_returns {size : Nat × Nat} {commands : List Command} {action : Action}
    {answers : Answers} (sends : action ≠ .reset)
    (carried : Carried host native id size commands)
    (heard : commands = [] → answers.rejects id action = none)
    (answered : action ≠ .submit → answers.fails id action = none) :
    ∃ after, serve host answers { action, id, size, commands } native = .ok () after := by
  have admitted : native.admission host answers { action, id, size, commands } = none := by
    by_cases idle : commands = []
    · simp [admission, idle, heard idle]
    · obtain ⟨parsed, held, accepted, _⟩ := carried idle
      simp [admission, idle, parsed, held, accepted]
  have prepared : prepare { action, id, size, commands } native =
      native.put id (native.canvas id size) := by
    simp [prepare, sends]
  obtain ⟨after, ran⟩ := perform_returns (put_same native id _) carried.prepared
  unfold serve
  rw [get_bind, admitted, bind_ok (refuseOn_none native), modify_bind, prepared, bind_ok ran]
  cases action with
  | reset => contradiction
  | submit => exact ⟨after, rfl⟩
  | _ =>
    simp only [answer, answered (by decide)]
    exact ⟨_, rfl⟩

end Native
end Chuzz.Canvas2D
