import Chuzz.Images.Element

/-! What the claimants of an image element may count on: its events, its bitmap, its paints and
its promises belong to the epoch they were made for, and every bitmap is closed once. A bitmap
whose close is interrupted, because canvas commands that were pending are refused just then, is
left open. -/
namespace Chuzz.Images
open Library.Transition List

/-- The stages behind the arrival of the bitmap. -/
def Stage.late : Stage → Bool
  | .painting | .failing | .finished => true
  | _ => false

/-- Whether the canvas commands that are pending at a step are submitted. -/
def ImageStep.submits : ImageStep → Bool
  | .assign _ submits | .look submits | .arrive _ submits | .failed _ submits => submits
  | _ => true

namespace ImageElement

/-- What was told to the holders of an epoch's promise has happened. -/
def Told (element : ImageElement) (index : Nat) : Outcome → Prop
  | .resolved => ∃ firing ∈ element.fired, firing.load = index ∧ firing.type = .load
  | .failed => ∃ firing ∈ element.fired, firing.load = index ∧ firing.type = .error
  | .changed => index + 1 < element.epoch
  | .missing => ∃ load, element.loads[index]? = some load ∧ load.source = none

structure Faithful (element : ImageElement) : Prop where
  /-- Loads are numbered as their epochs are. -/
  epochs : ∀ (index : Nat) (load : Load), element.loads[index]? = some load → load.epoch = index + 1
  /-- Of each load, one event is fired at most, and while its epoch lasts. -/
  events : (element.fired.map (·.load)).Nodup ∧
    ∀ firing ∈ element.fired, firing.epoch = firing.load + 1
  /-- The bitmap was made for the source of the epoch that lasts. -/
  bitmap : ∀ bitmap, element.bitmap = some bitmap → ∃ record load,
    element.bitmaps[bitmap]? = some record ∧ element.loads[record.load]? = some load ∧
      load.epoch = element.epoch ∧ element.source = some load.source
  /-- Every bitmap is closed once, or it is the element's, or its load is about to see it. -/
  owned : ∀ (bitmap : Nat) (record : Bitmap), element.bitmaps[bitmap]? = some record →
    record.closes = 1 ∧ element.bitmap ≠ some bitmap ∨
      record.closes = 0 ∧ (element.bitmap = some bitmap ∨
        ∃ load, element.loads[record.load]? = some load ∧ load.stage = .arriving bitmap)
  paints : ∀ painting ∈ element.shown, painting.epoch = painting.load + 1
  /-- `decode` hands out the promise of the epoch that lasts. -/
  promise : ∀ index, element.promise = some index → index + 1 = element.epoch
  decodes : (element.settled.map (·.1)).Nodup ∧
    ∀ entry ∈ element.settled, element.Told entry.1 entry.2

/-- Whether a step closes a bitmap. -/
def closing (element : ImageElement) : ImageStep → Bool
  | .assign _ _ => element.adopted && element.bitmap.isSome
  | .look _ => element.adopted && element.source ≠ some element.src && element.bitmap.isSome
  | .arrive load _ =>
    match element.loads[load]? with
    | some { stage := .arriving _, .. } => !element.current load
    | _ => false
  | .failed load _ =>
    match element.loads[load]? with
    | some { stage := .failing, dispatch := .none, .. } =>
      element.current load && element.bitmap.isSome
    | _ => false
  | _ => false

/-- No close is interrupted. -/
def Closes (element : ImageElement) (step : ImageStep) : Prop :=
  element.closing step = true → step.submits = true

instance (element : ImageElement) (step : ImageStep) : Decidable (element.Closes step) :=
  inferInstanceAs (Decidable (_ → _))

/-- Loads, markers and paints are numbered with their epochs. -/
structure Numbered (element : ImageElement) : Prop where
  count : element.epoch = element.loads.length
  epoch : ∀ (index : Nat) (load : Load), element.loads[index]? = some load → load.epoch = index + 1
  latest : ∀ (index : Nat) (load : Load), element.loads[index]? = some load → index + 1 = element.epoch →
    element.source = some load.source ∧ element.marker = some load.node
  missing : ∀ (index : Nat) (load : Load), element.loads[index]? = some load → load.source = none →
    load.stage = .reserved ∧ load.dispatch = .none
  started : ∀ (index : Nat) (load : Load), element.loads[index]? = some load → element.start = some index →
    load.stage = .reserved ∧ load.source ≠ none
  nodes : ∀ (first second : Nat) (former latter : Load), element.loads[first]? = some former →
    element.loads[second]? = some latter → former.node = latter.node → first = second
  handles : ∀ (index : Nat) (load : Load), element.loads[index]? = some load →
    load.node < element.handles
  paints : ∀ request ∈ element.paints, ∃ load,
    element.loads[request.2]? = some load ∧ load.node = request.1
  shown : ∀ painting ∈ element.shown, painting.epoch = painting.load + 1
  promise : ∀ index, element.promise = some index → index + 1 = element.epoch

/-- A bitmap is closed once, or somebody holds it. -/
def Owned (element : ImageElement) (bitmap : Nat) (record : Bitmap) : Prop :=
  record.closed = true ∧ record.closes = 1 ∧ element.bitmap ≠ some bitmap ∨
    record.closed = false ∧ record.closes = 0 ∧ (element.bitmap = some bitmap ∨
      ∃ load, element.loads[record.load]? = some load ∧ load.stage = .arriving bitmap)

structure Owning (element : ImageElement) : Prop where
  owned : ∀ (bitmap : Nat) (record : Bitmap), element.bitmaps[bitmap]? = some record → element.Owned bitmap record
  bitmap : ∀ bitmap, element.bitmap = some bitmap → ∃ record,
    element.bitmaps[bitmap]? = some record ∧ record.load + 1 = element.epoch ∧
      record.closed = false
  arriving : ∀ (index : Nat) (load : Load) bitmap, element.loads[index]? = some load →
    load.stage = .arriving bitmap → ∃ record,
      element.bitmaps[bitmap]? = some record ∧ record.load = index ∧ record.closed = false
  kept : ∀ (index : Nat) (load : Load), element.loads[index]? = some load → index + 1 = element.epoch →
    element.bitmap ≠ none → load.stage.late = true

/-- Events are fired and promises are settled once. -/
structure Telling (element : ImageElement) : Prop where
  reject : ∀ index, element.reject = some index →
    index + 1 = element.epoch ∧ index ∉ element.settled.map (·.1)
  fired : ∀ firing ∈ element.fired,
    firing.epoch = firing.load + 1 ∧ firing.load < element.epoch
  once : (element.fired.map (·.load)).Nodup
  settled : ∀ entry ∈ element.settled, entry.1 < element.epoch ∧ element.Told entry.1 entry.2
  decodes : (element.settled.map (·.1)).Nodup
  unfired : ∀ (index : Nat) (load : Load), element.loads[index]? = some load →
    load.dispatch = .none ∨ (∃ type, load.dispatch = .queued type) →
      index ∉ element.fired.map (·.load)
  running : ∀ (index : Nat) (load : Load) type, element.loads[index]? = some load →
    load.dispatch = .running type →
      ∃ firing ∈ element.fired, firing.load = index ∧ firing.type = type
  unsettled : ∀ (index : Nat) (load : Load), element.loads[index]? = some load →
    index ∈ element.settled.map (·.1) →
      index + 1 < element.epoch ∨ load.dispatch = .done ∨ load.source = none

structure Sound (element : ImageElement) : Prop where
  numbered : element.Numbered
  owning : element.Owning
  telling : element.Telling

theorem start_sound : ({} : ImageElement).Sound := by
  refine ⟨?_, ?_, ?_⟩
  · constructor <;> simp
  · constructor <;> simp
  · constructor <;> simp

variable {element : ImageElement}

theorem Sound.faithful (sound : element.Sound) : element.Faithful := by
  have numbered := sound.numbered
  constructor
  · exact numbered.epoch
  · exact ⟨sound.telling.once, fun firing member => (sound.telling.fired firing member).1⟩
  · intro bitmap held
    obtain ⟨record, here, epoch, _⟩ := sound.owning.bitmap bitmap held
    have inside : record.load < element.loads.length := by
      have count := numbered.count
      omega
    have made := getElem?_eq_getElem inside
    exact ⟨record, _, here, made, (numbered.epoch _ _ made).trans epoch,
      (numbered.latest _ _ made epoch).1⟩
  · intro bitmap record here
    rcases sound.owning.owned bitmap record here with ⟨_, closes, past⟩ | ⟨_, closes, held⟩
    · exact .inl ⟨closes, past⟩
    · exact .inr ⟨closes, held⟩
  · exact numbered.shown
  · exact numbered.promise
  · exact ⟨sound.telling.decodes, fun entry member => (sound.telling.settled entry member).2⟩

theorem nodup_concat {A : Type} {list : List A} {number : A → Nat} {one : A}
    (once : (list.map number).Nodup) (fresh : number one ∉ list.map number) :
    ((list ++ [one]).map number).Nodup := by
  rw [map_append, map_singleton, ← concat_eq_append]
  exact once.concat fresh

theorem Numbered.current (numbered : element.Numbered) {index : Nat}
    (lasts : element.current index = true) : index + 1 = element.epoch := by
  rw [ImageElement.current] at lasts
  split at lasts
  · rename_i load here
    simp only [Bool.and_eq_true, decide_eq_true_eq] at lasts
    rw [← numbered.epoch index load here, lasts.1.1.1]
  · cases lasts

section Change
variable {index : Nat} {load : Load} {edit : Load → Load}

theorem change_here (here : element.loads[index]? = some load) (edit : Load → Load) :
    (element.change index edit).loads[index]? = some (edit load) := by
  rw [change, getElem?_modify, here]
  simp

variable {other : Nat}

theorem change_other (edit : Load → Load) (apart : other ≠ index) :
    (element.change index edit).loads[other]? = element.loads[other]? := by
  rw [change, getElem?_modify]
  simp [Ne.symm apart]

theorem change_cases (here : element.loads[index]? = some load) {found : Load}
    (there : (element.change index edit).loads[other]? = some found) :
    other = index ∧ found = edit load ∨ other ≠ index ∧ element.loads[other]? = some found := by
  by_cases same : other = index
  · subst same
    rw [change_here here] at there
    exact .inl ⟨rfl, (Option.some.inj there).symm⟩
  · rw [change_other edit same] at there
    exact .inr ⟨same, there⟩

theorem change_each {holds : Nat → Load → Prop} (here : element.loads[index]? = some load)
    (mine : holds index (edit load))
    (rest : ∀ other found, element.loads[other]? = some found → holds other found) :
    ∀ other found, (element.change index edit).loads[other]? = some found → holds other found := by
  intro other found there
  rcases change_cases here there with ⟨rfl, rfl⟩ | ⟨_, there⟩
  · exact mine
  · exact rest other found there

theorem change_exists {P : Load → Prop} (here : element.loads[index]? = some load)
    (kept : P load → P (edit load))
    (there : ∃ found, element.loads[other]? = some found ∧ P found) :
    ∃ found, (element.change index edit).loads[other]? = some found ∧ P found := by
  obtain ⟨found, there, holds⟩ := there
  by_cases same : other = index
  · subst same
    obtain rfl := Option.some.inj (here.symm.trans there)
    exact ⟨edit load, change_here here edit, kept holds⟩
  · exact ⟨found, (change_other edit same).trans there, holds⟩

theorem Numbered.change (numbered : element.Numbered) (here : element.loads[index]? = some load)
    (epoch : (edit load).epoch = load.epoch) (node : (edit load).node = load.node)
    (source : (edit load).source = load.source)
    (missing : load.source = none → (edit load).stage = .reserved ∧ (edit load).dispatch = .none)
    (started : element.start = some index → (edit load).stage = .reserved) :
    (element.change index edit).Numbered := by
  constructor
  · exact numbered.count.trans (length_modify _ _ _).symm
  · exact change_each here (epoch.trans (numbered.epoch index load here)) numbered.epoch
  · refine change_each here ?_ numbered.latest
    rw [source, node]
    exact numbered.latest index load here
  · refine change_each here ?_ numbered.missing
    rw [source]
    exact missing
  · refine change_each here (fun start => ?_) numbered.started
    rw [source]
    exact ⟨started start, (numbered.started index load here start).2⟩
  · intro first second former latter one two same
    rcases change_cases here one with ⟨rfl, rfl⟩ | ⟨_, found⟩
    · rcases change_cases here two with ⟨rfl, rfl⟩ | ⟨_, other⟩
      · rfl
      · exact numbered.nodes first second load latter here other (node.symm.trans same)
    · rcases change_cases here two with ⟨rfl, rfl⟩ | ⟨_, other⟩
      · exact numbered.nodes first second former load found here (same.trans node)
      · exact numbered.nodes first second former latter found other same
  · refine change_each here ?_ numbered.handles
    rw [node]
    exact numbered.handles index load here
  · intro request member
    apply change_exists here _ (numbered.paints request member)
    exact node.trans
  · exact numbered.shown
  · exact numbered.promise

theorem Owning.change (owning : element.Owning) (here : element.loads[index]? = some load)
    (before : ∀ bitmap, load.stage ≠ .arriving bitmap)
    (after : ∀ bitmap, (edit load).stage ≠ .arriving bitmap)
    (late : load.stage.late = true → (edit load).stage.late = true) :
    (element.change index edit).Owning := by
  constructor
  · intro bitmap record there
    rcases owning.owned bitmap record there with closed | ⟨open_, closes, held | arrives⟩
    · exact .inl closed
    · exact .inr ⟨open_, closes, .inl held⟩
    · refine .inr ⟨open_, closes, .inr ?_⟩
      apply change_exists here _ arrives
      exact fun arrives => absurd arrives (before bitmap)
  · exact owning.bitmap
  · intro other found bitmap there arrives
    rcases change_cases here there with ⟨rfl, rfl⟩ | ⟨_, there⟩
    · exact absurd arrives (after bitmap)
    · exact owning.arriving other found bitmap there arrives
  · exact change_each here (fun lasts some => late (owning.kept index load here lasts some))
      owning.kept

theorem Owning.dispatch (owning : element.Owning) (here : element.loads[index]? = some load)
    (dispatch : Dispatch) : (element.change index fun load => { load with dispatch }).Owning := by
  constructor
  · intro bitmap record there
    rcases owning.owned bitmap record there with closed | ⟨open_, closes, held | arrives⟩
    · exact .inl closed
    · exact .inr ⟨open_, closes, .inl held⟩
    · exact .inr ⟨open_, closes, .inr (change_exists here id arrives)⟩
  · exact owning.bitmap
  · intro other found bitmap there
    rcases change_cases here there with ⟨rfl, rfl⟩ | ⟨_, there⟩
    · exact owning.arriving other load bitmap here
    · exact owning.arriving other found bitmap there
  · exact change_each here (owning.kept index load here) owning.kept

theorem Told.change {outcome : Outcome} (told : element.Told other outcome)
    (here : element.loads[index]? = some load) (source : (edit load).source = load.source) :
    (element.change index edit).Told other outcome := by
  cases outcome with
  | resolved => exact told
  | failed => exact told
  | changed => exact told
  | missing =>
    apply change_exists here _ told
    exact source.trans

theorem Told.fires {outcome : Outcome} (told : element.Told other outcome) (firings : List Firing) :
    ({ element with fired := element.fired ++ firings } : ImageElement).Told other outcome := by
  cases outcome with
  | resolved =>
    obtain ⟨firing, member, fits⟩ := told
    exact ⟨firing, mem_append_left _ member, fits⟩
  | failed =>
    obtain ⟨firing, member, fits⟩ := told
    exact ⟨firing, mem_append_left _ member, fits⟩
  | changed => exact told
  | missing => exact told

theorem Telling.change (telling : element.Telling) (here : element.loads[index]? = some load)
    (source : (edit load).source = load.source) (dispatch : (edit load).dispatch = load.dispatch) :
    (element.change index edit).Telling := by
  constructor
  · exact telling.reject
  · exact telling.fired
  · exact telling.once
  · intro entry member
    obtain ⟨earlier, told⟩ := telling.settled entry member
    exact ⟨earlier, told.change here source⟩
  · exact telling.decodes
  · refine change_each here ?_ telling.unfired
    rw [dispatch]
    exact telling.unfired index load here
  · intro other found type there
    rcases change_cases here there with ⟨rfl, rfl⟩ | ⟨_, there⟩
    · rw [dispatch]
      exact telling.running other load type here
    · exact telling.running other found type there
  · refine change_each here ?_ telling.unsettled
    rw [dispatch, source]
    exact telling.unsettled index load here

theorem Numbered.advance (numbered : element.Numbered) (here : element.loads[index]? = some load)
    (begun : load.stage ≠ .reserved) (stage : Stage) : (element.advance index stage).Numbered := by
  apply numbered.change here rfl rfl rfl
  · exact fun none => absurd (numbered.missing index load here none).1 begun
  · exact fun start => absurd (numbered.started index load here start).1 begun

theorem Telling.advance (telling : element.Telling) (here : element.loads[index]? = some load)
    (stage : Stage) : (element.advance index stage).Telling :=
  telling.change here rfl rfl

theorem Sound.advance (sound : element.Sound) (here : element.loads[index]? = some load)
    (begun : load.stage ≠ .reserved) (before : ∀ bitmap, load.stage ≠ .arriving bitmap)
    {stage : Stage} (after : ∀ bitmap, stage ≠ .arriving bitmap)
    (late : load.stage.late = true → stage.late = true) : (element.advance index stage).Sound where
  numbered := sound.numbered.advance here begun stage
  owning := sound.owning.change here before after late
  telling := sound.telling.advance here stage

theorem Sound.proceed (sound : element.Sound) (index : Nat) {stage next : Stage} (ok : Bool)
    (begun : stage ≠ .reserved) (before : ∀ bitmap, stage ≠ .arriving bitmap)
    (after : ∀ bitmap, next ≠ .arriving bitmap) (early : stage.late = false) :
    (element.proceed index stage next ok).Sound := by
  rw [ImageElement.proceed]
  split
  · rename_i load here
    split
    · rename_i same
      subst same
      apply sound.advance here begun before
      · split
        · exact after
        · exact nofun
      · exact fun late => nomatch early.symm.trans late
    · exact sound
  · exact sound

theorem Telling.dispatch (telling : element.Telling) (here : element.loads[index]? = some load)
    {dispatch : Dispatch} (queued : (dispatch = .none ∨ ∃ type, dispatch = .queued type) →
      load.dispatch = .none ∨ ∃ type, load.dispatch = .queued type)
    (running : ∀ type, dispatch ≠ .running type)
    (done : load.dispatch = .done → dispatch = .done) :
    (element.change index fun load => { load with dispatch }).Telling := by
  constructor
  · exact telling.reject
  · exact telling.fired
  · exact telling.once
  · intro entry member
    obtain ⟨earlier, told⟩ := telling.settled entry member
    exact ⟨earlier, told.change here rfl⟩
  · exact telling.decodes
  · exact change_each here (fun waits => telling.unfired index load here (queued waits))
      telling.unfired
  · intro other found type there
    rcases change_cases here there with ⟨rfl, rfl⟩ | ⟨_, there⟩
    · exact fun runs => absurd runs (running type)
    · exact telling.running other found type there
  · exact change_each here
      (fun told => (telling.unsettled index load here told).imp id (.imp done id)) telling.unsettled

theorem Numbered.dispatch (numbered : element.Numbered)
    (here : element.loads[index]? = some load) (sourced : load.source ≠ none)
    (dispatch : Dispatch) :
    (element.change index fun load => { load with dispatch }).Numbered :=
  numbered.change here rfl rfl rfl (fun none => absurd none sourced)
    fun start => (numbered.started index load here start).1

section
variable (sound : element.Sound)
include sound

theorem Sound.event (here : element.loads[index]? = some load)
    (sourced : load.source ≠ none) (type : EventType) : (element.event index type).Sound := by
  rw [ImageElement.event, here]
  dsimp only
  split
  · rename_i ready
    rw [Bool.and_eq_true, decide_eq_true_eq] at ready
    constructor
    · exact sound.numbered.dispatch here sourced _
    · exact sound.owning.dispatch here _
    · apply sound.telling.dispatch here
      · exact fun _ => .inl ready.2
      · exact nofun
      · exact fun done => nomatch ready.2.symm.trans done
  · exact sound

theorem Sound.painted (index : Nat) (ok : Bool) : (element.painted index ok).Sound := by
  rw [ImageElement.painted]
  split
  · rename_i load here
    split
    · rename_i stage
      have sourced : load.source ≠ none := fun none =>
        nomatch stage.symm.trans (sound.numbered.missing index load here none).1
      have moves : ∀ next : Stage, (∀ bitmap, next ≠ .arriving bitmap) → next.late = true →
          (element.advance index next).Sound := fun next after late =>
        sound.advance here (by rw [stage]; exact nofun) (by rw [stage]; exact nofun) after
          fun _ => late
      split
      · exact (moves .finished nofun rfl).event (change_here here _) sourced .load
      · exact moves .failing nofun rfl
    · exact sound
  · exact sound

variable {submits : Bool}

theorem Sound.drop (closes : element.bitmap ≠ none → submits = true) : ∃ bitmaps,
      element.dropBitmap submits = ({ element with bitmaps, bitmap := none }, true) ∧
        ({ element with bitmaps, bitmap := none } : ImageElement).Sound := by
  cases held : element.bitmap with
  | none =>
    have same : { element with bitmap := none } = element := by rw [← held]
    refine ⟨element.bitmaps, ?_, ?_⟩
    · rw [dropBitmap, held]
      exact congrArg (·, true) same.symm
    · exact same.symm ▸ sound
  | some bitmap =>
    obtain ⟨record, here, epoch, open_⟩ := sound.owning.bitmap bitmap held
    refine ⟨element.bitmaps.set bitmap { record with closed := true, closes := record.closes + 1 },
      ?_, ?_⟩
    · simp only [dropBitmap, held, close, here, open_, closes (by rw [held]; exact nofun)]
      rfl
    · have numbered := sound.numbered
      have telling := sound.telling
      constructor
      · exact { numbered with }
      · constructor
        · intro other found there
          by_cases mine : bitmap = other
          · subst mine
            have inside := (List.getElem?_eq_some_iff.mp here).1
            obtain rfl := Option.some.inj ((getElem?_set_self inside).symm.trans there)
            rcases sound.owning.owned bitmap record here with ⟨closed, _⟩ | ⟨_, closes, _⟩
            · cases open_.symm.trans closed
            · exact .inl ⟨rfl, congrArg (· + 1) closes, nofun⟩
          · have there : element.bitmaps[other]? = some found :=
              (getElem?_set_ne mine).symm.trans there
            rcases sound.owning.owned other found there with
              ⟨closed, closes, _⟩ | ⟨open_, closes, same | arrives⟩
            · exact .inl ⟨closed, closes, nofun⟩
            · exact absurd (Option.some.inj (held.symm.trans same)) mine
            · exact .inr ⟨open_, closes, .inr arrives⟩
        · exact nofun
        · intro index load other there arrives
          obtain ⟨found, that, same, fresh⟩ := sound.owning.arriving index load other there arrives
          by_cases mine : bitmap = other
          · subst mine
            obtain rfl := Option.some.inj (here.symm.trans that)
            have late := sound.owning.kept index load there (same ▸ epoch) (by rw [held]; exact nofun)
            rw [arrives] at late
            cases late
          · exact ⟨found, (getElem?_set_ne mine).trans that, same, fresh⟩
        · exact fun index load _ _ some => absurd rfl some
      · exact { telling with }

theorem Sound.failed (index : Nat)
    (closes : element.Closes (.failed index submits)) : (element.failed index submits).Sound := by
  rw [ImageElement.failed]
  split
  · rename_i load here
    split
    · rename_i stage
      have sourced : load.source ≠ none := fun none =>
        nomatch stage.symm.trans (sound.numbered.missing index load here none).1
      have finished : (element.advance index .finished).Sound :=
        sound.advance here (by rw [stage]; exact nofun) (by rw [stage]; exact nofun) nofun
          fun _ => rfl
      dsimp only
      split
      · rename_i lasts
        have returns : (element.advance index .finished).bitmap ≠ none → submits = true := by
          intro held
          apply closes
          obtain ⟨epoch, source, explicit, node, _, dispatch⟩ := load
          rw [Bool.and_eq_true, decide_eq_true_eq] at lasts
          obtain ⟨lasts, rfl⟩ := lasts
          obtain rfl : _ = Stage.failing := stage
          simp only [closing, here, lasts, Bool.true_and]
          exact Option.isSome_iff_ne_none.mpr held
        obtain ⟨bitmaps, same, dropped⟩ := finished.drop returns
        rw [same]
        have completed : ({ element.advance index .finished with
            bitmaps, bitmap := none, complete := true } : ImageElement).Sound :=
          ⟨{ dropped.numbered with },
          { dropped.owning with },
          { dropped.telling with }⟩
        exact completed.event (change_here here _) sourced .error
      · exact finished
    · exact sound
  · exact sound

theorem Sound.decoded (index : Nat) (ok : Bool) : (element.decoded index ok).Sound := by
  rw [ImageElement.decoded]
  split
  · rename_i load here
    split
    · rename_i stage
      have begun : load.stage ≠ .reserved := by
        rw [stage]
        exact nofun
      split
      · have telling := sound.telling.advance here (.arriving element.bitmaps.length)
        have owning := sound.owning
        let made : ImageElement := { element with bitmaps := element.bitmaps ++ [{ load := index }] }
        have there : made.loads[index]? = some load := here
        constructor
        · have moved := sound.numbered.advance here begun (.arriving element.bitmaps.length)
          exact { moved with }
        · constructor
          · intro bitmap record found
            have found : (element.bitmaps ++ [({ load := index } : Bitmap)])[bitmap]? = some record :=
              found
            rw [getElem?_append] at found
            split at found
            · rcases owning.owned bitmap record found with closed | ⟨open_, closes, held | arrives⟩
              · exact .inl closed
              · exact .inr ⟨open_, closes, .inl held⟩
              · refine .inr ⟨open_, closes, .inr ?_⟩
                apply change_exists there _ arrives
                intro arriving
                cases stage.symm.trans arriving
            · rename_i outside
              obtain ⟨inside, same⟩ := List.getElem?_eq_some_iff.mp found
              rw [length_singleton] at inside
              obtain rfl : bitmap = element.bitmaps.length := by omega
              simp only [Nat.sub_self, getElem_cons_zero] at same
              subst same
              exact .inr ⟨rfl, rfl, .inr ⟨_, change_here there _, rfl⟩⟩
          · intro bitmap held
            obtain ⟨record, found, epoch, open_⟩ := owning.bitmap bitmap held
            exact ⟨record, List.getElem?_append_left (List.getElem?_eq_some_iff.mp found).1 ▸ found,
              epoch, open_⟩
          · intro other found bitmap at_ arrives
            rcases change_cases there at_ with ⟨rfl, rfl⟩ | ⟨_, at_⟩
            · obtain rfl := Stage.arriving.inj arrives
              exact ⟨{ load := other }, getElem?_concat_length, rfl, rfl⟩
            · obtain ⟨record, found, same, open_⟩ := owning.arriving other found bitmap at_ arrives
              exact ⟨record, List.getElem?_append_left (List.getElem?_eq_some_iff.mp found).1 ▸ found,
                same, open_⟩
          · refine change_each there (fun lasts held => ?_) owning.kept
            have late := owning.kept index load here lasts held
            rw [stage] at late
            cases late
        · exact { telling with }
      · exact sound.advance here begun (by rw [stage]; exact nofun) nofun fun _ => rfl
    · exact sound
  · exact sound

theorem Sound.keep (here : element.loads[index]? = some load)
    {bitmap : Nat} (stage : load.stage = .arriving bitmap) (lasts : index + 1 = element.epoch) :
    ({ element with
      bitmap := some bitmap, complete := true
      paints := element.paints ++ [(load.node, index)] }.advance index .painting).Sound := by
  have owning := sound.owning
  have telling := sound.telling.advance here .painting
  have begun : load.stage ≠ .reserved := by
    rw [stage]
    exact nofun
  have empty : element.bitmap = none := by
    by_contra held
    have late := owning.kept index load here lasts held
    rw [stage] at late
    cases late
  obtain ⟨record, made, mine, open_⟩ := owning.arriving index load bitmap here stage
  constructor
  · have moved := sound.numbered.advance here begun .painting
    refine ⟨moved.count, moved.epoch, moved.latest, moved.missing, moved.started, moved.nodes,
      moved.handles, ?_, moved.shown, moved.promise⟩
    exact forall_mem_append.mpr ⟨moved.paints,
      forall_mem_singleton.mpr ⟨_, change_here here _, rfl⟩⟩
  · constructor
    · intro other found there
      rcases owning.owned other found there with
        ⟨closed, closes, _⟩ | ⟨fresh, closes, held | arrives⟩
      · refine .inl ⟨closed, closes, ?_⟩
        rintro ⟨⟩
        obtain rfl := Option.some.inj (made.symm.trans there)
        cases open_.symm.trans closed
      · cases empty.symm.trans held
      · by_cases same : other = bitmap
        · subst same
          exact .inr ⟨fresh, closes, .inl rfl⟩
        · refine .inr ⟨fresh, closes, .inr ?_⟩
          apply change_exists here _ arrives
          intro arriving
          exact absurd (Stage.arriving.inj (arriving.symm.trans stage)) same
    · rintro _ ⟨⟩
      exact ⟨record, made, mine ▸ lasts, open_⟩
    · intro other found next there arrives
      rcases change_cases here there with ⟨rfl, rfl⟩ | ⟨_, there⟩
      · cases arrives
      · exact owning.arriving other found next there arrives
    · intro other found there latest _
      rcases change_cases here there with ⟨rfl, rfl⟩ | ⟨apart, there⟩
      · rfl
      · exact absurd (Nat.succ.inj (latest.trans lasts.symm)) apart
  · exact { telling with }

theorem Sound.discard (here : element.loads[index]? = some load)
    {bitmap : Nat} (stage : load.stage = .arriving bitmap) {record : Bitmap}
    (made : element.bitmaps[bitmap]? = some record) :
    ({ element with
      bitmaps := element.bitmaps.set bitmap
        { record with closed := true, closes := record.closes + 1 } }.advance index
          .finished).Sound := by
  have owning := sound.owning
  have telling := sound.telling.advance here .finished
  have begun : load.stage ≠ .reserved := by
    rw [stage]
    exact nofun
  have inside := (List.getElem?_eq_some_iff.mp made).1
  obtain ⟨_, same, mine, open_⟩ := owning.arriving index load bitmap here stage
  obtain rfl := Option.some.inj (made.symm.trans same)
  have past : element.bitmap ≠ some bitmap := by
    intro held
    obtain ⟨_, same, epoch, _⟩ := owning.bitmap bitmap held
    obtain rfl := Option.some.inj (made.symm.trans same)
    have late := owning.kept index load here (mine ▸ epoch) (by rw [held]; exact nofun)
    rw [stage] at late
    cases late
  constructor
  · have moved := sound.numbered.advance here begun .finished
    exact { moved with }
  · constructor
    · intro other found there
      by_cases this : bitmap = other
      · subst this
        obtain rfl := Option.some.inj ((List.getElem?_set_self inside).symm.trans there)
        rcases owning.owned bitmap record made with ⟨closed, _⟩ | ⟨_, closes, _⟩
        · cases open_.symm.trans closed
        · exact .inl ⟨rfl, congrArg (· + 1) closes, past⟩
      · have there : element.bitmaps[other]? = some found :=
          (List.getElem?_set_ne this).symm.trans there
        rcases owning.owned other found there with closed | ⟨fresh, closes, held | arrives⟩
        · exact .inl closed
        · exact .inr ⟨fresh, closes, .inl held⟩
        · refine .inr ⟨fresh, closes, .inr ?_⟩
          apply change_exists here _ arrives
          intro arriving
          exact absurd (Stage.arriving.inj (stage.symm.trans arriving)) this
    · intro other held
      obtain ⟨found, there, epoch, fresh⟩ := owning.bitmap other held
      have this : bitmap ≠ other := fun same => past (same ▸ held)
      exact ⟨found, (List.getElem?_set_ne this).trans there, epoch, fresh⟩
    · intro other found next there arrives
      rcases change_cases here there with ⟨rfl, rfl⟩ | ⟨apart, there⟩
      · cases arrives
      · obtain ⟨one, that, whose, fresh⟩ := owning.arriving other found next there arrives
        have this : bitmap ≠ next := by
          rintro rfl
          obtain rfl := Option.some.inj (made.symm.trans that)
          exact apart (whose.symm.trans mine)
        exact ⟨one, (List.getElem?_set_ne this).trans that, whose, fresh⟩
    · exact change_each here (fun _ _ => rfl) owning.kept
  · exact { telling with }

theorem Sound.arrive (index : Nat)
    (closes : element.Closes (.arrive index submits)) : (element.arrive index submits).Sound := by
  rw [ImageElement.arrive]
  split
  · rename_i load here
    split
    · rename_i bitmap stage
      split
      · rename_i lasts
        exact sound.keep here stage (sound.numbered.current lasts)
      · rename_i stale
        have returns : submits = true := by
          apply closes
          obtain ⟨epoch, source, explicit, node, _, dispatch⟩ := load
          obtain rfl : _ = Stage.arriving bitmap := stage
          simp only [closing, here, stale]
          rfl
        obtain ⟨record, made, _, open_⟩ := sound.owning.arriving index load bitmap here stage
        have closed := sound.discard here stage made
        simp only [close, made, open_, returns]
        exact closed
    · exact sound
  · exact sound

theorem Sound.fire (index : Nat) : (element.fire index).Sound := by
  rw [ImageElement.fire]
  split
  · rename_i load here
    split
    · rename_i type queued
      have numbered := sound.numbered
      have telling := sound.telling
      have owning := sound.owning
      have sourced : load.source ≠ none := fun none =>
        nomatch queued.symm.trans (numbered.missing index load here none).2
      have fresh := telling.unfired index load here (.inr ⟨type, queued⟩)
      split
      · rename_i lasts
        have epoch := numbered.current lasts
        constructor
        · have moved := numbered.dispatch here sourced (.running type)
          exact { moved with }
        · have moved := owning.dispatch here (.running type)
          exact { moved with }
        · constructor
          · exact telling.reject
          · exact forall_mem_append.mpr ⟨telling.fired,
              forall_mem_singleton.mpr ⟨epoch.symm, Nat.lt_of_succ_le (Nat.le_of_eq epoch)⟩⟩
          · exact nodup_concat telling.once fresh
          · intro entry member
            obtain ⟨earlier, told⟩ := telling.settled entry member
            refine ⟨earlier, ?_⟩
            have moved : (element.change index fun load =>
                { load with dispatch := .running type }).Told entry.1 entry.2 :=
              told.change here rfl
            exact moved.fires _
          · exact telling.decodes
          · intro other found there waits
            rcases change_cases here there with ⟨rfl, rfl⟩ | ⟨apart, there⟩
            · rcases waits with none | ⟨_, queued⟩
              · cases none
              · cases queued
            · intro member
              dsimp only [ImageElement.change] at member
              rw [map_append] at member
              rcases mem_append.mp member with old | new
              · exact telling.unfired other found there waits old
              · exact apart (mem_singleton.mp new)
          · intro other found next there runs
            rcases change_cases here there with ⟨rfl, rfl⟩ | ⟨_, there⟩
            · obtain rfl := Dispatch.running.inj runs
              exact ⟨_, mem_append_right _ (mem_singleton_self _), rfl, rfl⟩
            · obtain ⟨firing, member, fits⟩ := telling.running other found next there runs
              exact ⟨firing, mem_append_left _ member, fits⟩
          · refine change_each here (fun told => ?_) telling.unsettled
            rcases telling.unsettled index load here told with past | done | none
            · exact .inl past
            · cases queued.symm.trans done
            · exact .inr (.inr none)
      · constructor
        · exact numbered.dispatch here sourced _
        · exact owning.dispatch here _
        · apply telling.dispatch here
          · rintro (none | ⟨_, queued⟩)
            · cases none
            · cases queued
          · exact nofun
          · exact fun _ => rfl
    · exact sound
  · exact sound

theorem Sound.dispatched (index : Nat) : (element.dispatched index).Sound := by
  rw [ImageElement.dispatched]
  split
  · rename_i load here
    split
    · rename_i type runs
      have numbered := sound.numbered
      have telling := sound.telling
      have sourced : load.source ≠ none := fun none =>
        nomatch runs.symm.trans (numbered.missing index load here none).2
      have numbers := numbered.dispatch here sourced .done
      have owns := sound.owning.dispatch here .done
      have tells : (element.change index fun load => { load with dispatch := .done }).Telling := by
        apply telling.dispatch here
        · rintro (none | ⟨_, queued⟩)
          · cases none
          · cases queued
        · exact nofun
        · exact fun _ => rfl
      split
      · rename_i lasts
        have epoch := numbered.current lasts
        have fresh : index ∉ element.settled.map (·.1) := by
          intro told
          rcases telling.unsettled index load here told with past | done | none
          · exact absurd epoch (Nat.ne_of_lt past)
          · cases runs.symm.trans done
          · exact sourced none
        constructor
        · exact { numbers with }
        · exact { owns with }
        · constructor
          · exact nofun
          · exact tells.fired
          · exact tells.once
          · refine forall_mem_append.mpr ⟨tells.settled, forall_mem_singleton.mpr
              ⟨Nat.lt_of_succ_le (Nat.le_of_eq epoch), ?_⟩⟩
            obtain ⟨firing, seen, same, kind⟩ := telling.running index load type here runs
            cases type with
            | load => exact ⟨firing, seen, same, kind⟩
            | error => exact ⟨firing, seen, same, kind⟩
          · exact nodup_concat telling.decodes fresh
          · exact tells.unfired
          · exact tells.running
          · intro other found there told
            rcases change_cases here there with ⟨rfl, rfl⟩ | ⟨apart, found⟩
            · exact .inr (.inl rfl)
            · dsimp only [settle, ImageElement.change] at told
              rw [map_append] at told
              rcases mem_append.mp told with old | new
              · exact telling.unsettled other _ found old
              · exact absurd (mem_singleton.mp new) apart
      · exact ⟨numbers, owns, tells⟩
    · exact sound
  · exact sound

theorem Sound.paint (position : Nat) : (element.paint position).Sound := by
  have numbered := sound.numbered
  have owning := sound.owning
  have telling := sound.telling
  rw [ImageElement.paint]
  split
  · rename_i node index here
    obtain ⟨load, made, same⟩ := numbered.paints _ (mem_of_getElem? here)
    have others : ∀ request ∈ element.paints.eraseIdx position, ∃ load,
        element.loads[request.2]? = some load ∧ load.node = request.1 := fun request member =>
      numbered.paints request (mem_of_mem_eraseIdx member)
    split
    · rename_i marked
      refine ⟨⟨numbered.count, numbered.epoch, numbered.latest, numbered.missing, numbered.started,
        numbered.nodes, numbered.handles, others, ?_, numbered.promise⟩,
        { owning with },
        { telling with }⟩
      refine forall_mem_append.mpr ⟨numbered.shown, forall_mem_singleton.mpr ?_⟩
      have inside : index < element.epoch :=
        numbered.count ▸ (List.getElem?_eq_some_iff.mp made).1
      have last : element.epoch - 1 < element.loads.length := by
        have count := numbered.count
        omega
      have latest := (numbered.latest _ _ (getElem?_eq_getElem last) (by omega)).2
      have mine := numbered.nodes _ _ _ _ made (getElem?_eq_getElem last)
        (same.trans (Option.some.inj (marked.symm.trans latest)))
      dsimp only
      omega
    · exact ⟨⟨numbered.count, numbered.epoch, numbered.latest, numbered.missing, numbered.started,
        numbered.nodes, numbered.handles, others, numbered.shown, numbered.promise⟩,
        { owning with },
        { telling with }⟩
  · exact sound

theorem Sound.runStart : element.runStart.Sound := by
  rw [ImageElement.runStart]
  split
  · rename_i index start
    split
    · have numbered := sound.numbered
      have owning := sound.owning
      have telling := sound.telling
      rename_i lasts
      have inside : index < element.loads.length := by
        have count := numbered.count
        have epoch := numbered.current lasts
        omega
      have here := getElem?_eq_getElem inside
      obtain ⟨stage, sourced⟩ := numbered.started index _ here start
      have stopped : ({ element with start := none } : ImageElement).Sound := by
        refine ⟨⟨numbered.count, numbered.epoch, numbered.latest, numbered.missing, (by intros; contradiction),
          numbered.nodes, numbered.handles, numbered.paints, numbered.shown, numbered.promise⟩,
          { owning with },
          { telling with }⟩
      constructor
      · exact stopped.numbered.change here rfl rfl rfl (fun none => absurd none sourced) (by rintro ⟨⟩)
      · apply stopped.owning.change here
        · rw [stage]
          intro _ here
          contradiction
        · intro _ here
          contradiction
        · rw [stage]
          rintro ⟨⟩
      · exact stopped.telling.advance here .ready
    · exact sound
  · exact sound

end

end Change

/-- The epoch before is over, and the holders of its promise are told. -/
def supersede (element : ImageElement) : ImageElement :=
  { element with
    epoch := element.epoch + 1
    settled := element.settled ++ (element.reject.map fun index => (index, .changed)).toList }

theorem supersede_close (bitmap : Nat) (submits : Bool) :
    element.supersede.close bitmap submits =
      ((element.close bitmap submits).1.supersede, (element.close bitmap submits).2) := by
  unfold close
  cases here : element.bitmaps[bitmap]? with
  | none => simp [supersede, here]
  | some record =>
    cases closed : record.closed with
    | true => simp [supersede, here, closed]
    | false =>
      cases submits with
      | true => simp [supersede, here, closed]
      | false => simp [supersede, here, closed]

theorem supersede_drop (submits : Bool) : element.supersede.dropBitmap submits =
    ((element.dropBitmap submits).1.supersede, (element.dropBitmap submits).2) := by
  unfold dropBitmap
  cases held : element.bitmap with
  | none => simp [supersede, held]
  | some bitmap =>
    have same : element.supersede.bitmap = some bitmap := held
    rw [same]
    dsimp only
    rw [supersede_close]
    cases returns : (element.close bitmap submits).2 with
    | true => simp [supersede]
    | false => simp

/-- The epoch counts on before the bitmap is closed, which makes no difference to the close. -/
theorem startImage_eq (source : Option String) (explicit submits : Bool) :
    element.startImage source explicit submits =
      let (dropped, returns) := element.dropBitmap submits
      if returns then (dropped.supersede.reserve source explicit, true)
      else (dropped.supersede, false) := by
  have begun : ({ element with epoch := element.epoch + 1 } : ImageElement).rejectChanged =
      element.supersede := by
    cases rejects : element.reject with
    | some index => simp [rejectChanged, supersede, settle, rejects]
    | none => simp [rejectChanged, supersede, rejects]
  rw [startImage, begun, supersede_drop]

/-- What has been told stays true, and the promise of the epoch that is over is settled. -/
theorem Telling.supersede (telling : element.Telling) (after : ImageElement)
    (epoch : after.epoch = element.epoch + 1) (fired : after.fired = element.fired)
    (loads : ∀ (index : Nat) (load : Load), element.loads[index]? = some load →
      after.loads[index]? = some load) :
    (∀ entry ∈ element.supersede.settled,
      entry.1 < element.epoch ∧ after.Told entry.1 entry.2) ∧
        (element.supersede.settled.map (·.1)).Nodup := by
  have kept : ∀ (index : Nat) (outcome : Outcome), element.Told index outcome →
      after.Told index outcome := by
    intro index outcome told
    cases outcome with
    | resolved =>
      rw [Told, fired]
      exact told
    | failed =>
      rw [Told, fired]
      exact told
    | changed =>
      rw [Told, epoch]
      exact Nat.lt_succ_of_lt told
    | missing =>
      obtain ⟨load, here, none⟩ := told
      exact ⟨load, loads index load here, none⟩
  have old : ∀ entry ∈ element.settled, entry.1 < element.epoch ∧ after.Told entry.1 entry.2 := by
    intro entry member
    obtain ⟨earlier, told⟩ := telling.settled entry member
    exact ⟨earlier, kept entry.1 entry.2 told⟩
  cases rejects : element.reject with
  | none =>
    have same : element.supersede.settled = element.settled := by
      simp [ImageElement.supersede, rejects]
    rw [same]
    exact ⟨old, telling.decodes⟩
  | some index =>
    have same : element.supersede.settled = element.settled ++ [(index, .changed)] := by
      simp [ImageElement.supersede, rejects]
    obtain ⟨last, fresh⟩ := telling.reject index rejects
    rw [same]
    refine ⟨forall_mem_append.mpr ⟨old, forall_mem_singleton.mpr
      ⟨Nat.lt_of_succ_le (Nat.le_of_eq last), ?_⟩⟩, nodup_concat telling.decodes fresh⟩
    rw [Told, epoch]
    exact Nat.lt_succ_of_le (Nat.le_of_eq last)

/-- The load of the next epoch. -/
def nextLoad (element : ImageElement) (source : Option String) (explicit : Bool) : Load :=
  { epoch := element.epoch + 1, source, explicit, node := element.handles }

/-- The epoch that `reserve` begins, whatever becomes of its promise. -/
def begin (element : ImageElement) (source : Option String) (explicit : Bool)
    (start reject : Option Nat) (settled : List (Nat × Outcome)) : ImageElement :=
  { element.supersede with
    source := some source, complete := blank source, start, reject, settled
    promise := some element.loads.length, marker := some element.handles
    handles := element.handles + 1, loads := element.loads ++ [element.nextLoad source explicit] }

section Begin
variable {source : Option String} {explicit : Bool} {start reject : Option Nat}
  {settled : List (Nat × Outcome)} {index : Nat} {found : Load}

theorem begin_old (here : element.loads[index]? = some found) :
    (element.begin source explicit start reject settled).loads[index]? = some found :=
  (List.getElem?_append_left (List.getElem?_eq_some_iff.mp here).1).trans here

theorem begin_new : (element.begin source explicit start reject settled).loads[
    element.loads.length]? = some (element.nextLoad source explicit) :=
  getElem?_concat_length

theorem Numbered.begin_cases (numbered : element.Numbered)
    (here : (element.begin source explicit start reject settled).loads[index]? = some found) :
    index < element.epoch ∧ element.loads[index]? = some found ∨
      index = element.epoch ∧ found = element.nextLoad source explicit := by
  rw [numbered.count]
  by_cases inside : index < element.loads.length
  · exact .inl ⟨inside, (getElem?_append_left inside).symm.trans here⟩
  · have bound := (List.getElem?_eq_some_iff.mp here).1
    rw [begin, length_append, length_singleton] at bound
    obtain rfl : index = element.loads.length := by omega
    exact .inr ⟨rfl, (Option.some.inj (begin_new.symm.trans here)).symm⟩

theorem Numbered.begin_each {holds : Nat → Load → Prop} (numbered : element.Numbered)
    (old : ∀ index found, element.loads[index]? = some found → index < element.epoch →
      holds index found) (new : holds element.epoch (element.nextLoad source explicit)) :
    ∀ index found, (element.begin source explicit start reject settled).loads[index]? =
      some found → holds index found := by
  intro index found here
  rcases numbered.begin_cases here with ⟨earlier, there⟩ | ⟨rfl, rfl⟩
  · exact old index found there earlier
  · exact new

theorem Numbered.begin (numbered : element.Numbered)
    (sourced : start = some element.epoch → source ≠ none)
    (starts : start = none ∨ start = some element.epoch) :
    (element.begin source explicit start reject settled).Numbered := by
  have count := numbered.count
  constructor
  · rw [ImageElement.begin, length_append, length_singleton, ← count]
    rfl
  · exact numbered.begin_each (fun index found there _ => numbered.epoch index found there) rfl
  · refine numbered.begin_each (fun index found _ earlier last => ?_) fun _ => ⟨rfl, rfl⟩
    exact absurd (Nat.succ.inj last) (Nat.ne_of_lt earlier)
  · exact numbered.begin_each (fun index found there _ => numbered.missing index found there)
      fun _ => ⟨rfl, rfl⟩
  · refine numbered.begin_each (fun index found _ earlier begun => ?_) fun begun =>
      ⟨rfl, sourced begun⟩
    rcases starts with none | last
    · cases none.symm.trans begun
    · exact absurd (Option.some.inj (begun.symm.trans last)) (Nat.ne_of_lt earlier)
  · intro first second former latter one two same
    rcases numbered.begin_cases one with ⟨_, one⟩ | ⟨rfl, rfl⟩
    · rcases numbered.begin_cases two with ⟨_, two⟩ | ⟨rfl, rfl⟩
      · exact numbered.nodes first second former latter one two same
      · exact absurd same (Nat.ne_of_lt (numbered.handles first former one))
    · rcases numbered.begin_cases two with ⟨_, two⟩ | ⟨rfl, rfl⟩
      · exact absurd same.symm (Nat.ne_of_lt (numbered.handles second latter two))
      · rfl
  · exact numbered.begin_each (fun index found there _ =>
      Nat.lt_succ_of_lt (numbered.handles index found there)) (Nat.lt_succ_self _)
  · intro request member
    obtain ⟨painted, there, same⟩ := numbered.paints request member
    exact ⟨painted, begin_old there, same⟩
  · exact numbered.shown
  · rintro _ ⟨⟩
    exact congrArg (· + 1) count.symm

theorem Sound.begin_owning (sound : element.Sound) (empty : element.bitmap = none) :
    (element.begin source explicit start reject settled).Owning := by
  have owning := sound.owning
  constructor
  · intro bitmap record this
    rcases owning.owned bitmap record this with
      closed | ⟨open_, closes, held | ⟨arrived, there, stage⟩⟩
    · exact .inl closed
    · exact .inr ⟨open_, closes, .inl held⟩
    · exact .inr ⟨open_, closes, .inr ⟨arrived, begin_old there, stage⟩⟩
  · intro bitmap held
    cases empty.symm.trans held
  · intro index found bitmap this arrives
    rcases sound.numbered.begin_cases this with ⟨_, there⟩ | ⟨rfl, rfl⟩
    · exact owning.arriving index found bitmap there arrives
    · cases arrives
  · intro index found _ _ held
    exact absurd empty held

theorem Sound.begin_telling (sound : element.Sound) {more : List (Nat × Outcome)}
    (rejects : reject = none ∨ reject = some element.epoch ∧ more = [])
    (missing : more = [] ∨ more = [(element.epoch, .missing)] ∧ source = none) :
    (element.begin source explicit start reject (element.supersede.settled ++ more)).Telling := by
  have numbered := sound.numbered
  have telling := sound.telling
  obtain ⟨told, once⟩ := telling.supersede (element.begin source explicit start reject
    (element.supersede.settled ++ more)) rfl rfl fun _ _ => begin_old
  have fresh : element.epoch ∉ element.supersede.settled.map (·.1) := by
    intro member
    obtain ⟨entry, inside, same⟩ := mem_map.mp member
    exact absurd same (Nat.ne_of_lt (told entry inside).1)
  constructor
  · intro index rejected
    rcases rejects with none | ⟨same, rfl⟩
    · cases none.symm.trans rejected
    · obtain rfl := Option.some.inj (same.symm.trans rejected)
      rw [append_nil]
      exact ⟨rfl, fresh⟩
  · intro firing member
    obtain ⟨epoch, earlier⟩ := telling.fired firing member
    exact ⟨epoch, Nat.lt_succ_of_lt earlier⟩
  · exact telling.once
  · refine forall_mem_append.mpr ⟨fun entry former =>
      ⟨Nat.lt_succ_of_lt (told entry former).1, (told entry former).2⟩, ?_⟩
    rcases missing with rfl | ⟨rfl, none⟩
    · exact nofun
    · exact forall_mem_singleton.mpr ⟨Nat.lt_succ_self _, element.nextLoad source explicit,
        numbered.count ▸ begin_new, none⟩
  · rcases missing with rfl | ⟨rfl, _⟩
    · rw [append_nil]
      exact once
    · exact nodup_concat once fresh
  · refine numbered.begin_each (fun index found there _ => telling.unfired index found there) ?_
    intro _ member
    obtain ⟨firing, seen, same⟩ := mem_map.mp member
    exact absurd same (Nat.ne_of_lt (telling.fired firing seen).2)
  · intro index found type this runs
    rcases numbered.begin_cases this with ⟨_, there⟩ | ⟨rfl, rfl⟩
    · exact telling.running index found type there runs
    · cases runs
  · refine numbered.begin_each (fun index found _ earlier _ => .inl (Nat.succ_lt_succ earlier)) ?_
    intro member
    rcases missing with rfl | ⟨_, none⟩
    · rw [append_nil] at member
      exact absurd member fresh
    · exact .inr (.inr none)

end Begin

theorem Sound.reserve (sound : element.Sound) (empty : element.bitmap = none)
    (source : Option String) (explicit : Bool) :
    (element.supersede.reserve source explicit).Sound := by
  have count := congrArg some sound.numbered.count.symm
  rw [ImageElement.reserve]
  split
  · rename_i missing
    constructor
    · exact sound.numbered.begin nofun (.inl rfl)
    · exact sound.begin_owning empty
    · exact sound.begin_telling (.inl rfl) (.inr ⟨by rw [sound.numbered.count]; rfl, missing⟩)
  · rename_i sourced
    constructor
    · exact sound.numbered.begin (fun _ => sourced) (.inr count)
    · exact sound.begin_owning empty
    · have told : (element.begin source explicit (some element.loads.length)
          (some element.loads.length) (element.supersede.settled ++ [])).Telling :=
        sound.begin_telling (.inr ⟨count, rfl⟩) (.inl rfl)
      rw [append_nil] at told
      exact told

theorem Sound.frame (sound : element.Sound) (src : Option String)
    (connected adopted complete : Bool) :
    ({ element with src, connected, adopted, complete } : ImageElement).Sound := by
  have numbered := sound.numbered
  have owning := sound.owning
  have telling := sound.telling
  exact ⟨{ numbered with },
    { owning with },
    { telling with }⟩

theorem Sound.imageState (sound : element.Sound) (force : Bool) {submits : Bool}
    (closes : element.adopted = true → force = true ∨ element.source ≠ some element.src →
      element.bitmap ≠ none → submits = true) : (element.imageState force submits).Sound := by
  rw [ImageElement.imageState]
  split
  · rename_i adopted
    have started : ∀ starts : Bool, (starts = true → element.bitmap ≠ none → submits = true) →
        let (started, returns) :=
          if starts then element.startImage element.src force submits else (element, true)
        (if returns then started.runStart else started).Sound := by
      intro starts closes
      cases starts with
      | false => exact sound.runStart
      | true =>
        obtain ⟨bitmaps, same, dropped⟩ := sound.drop (closes rfl)
        rw [if_pos rfl, startImage_eq, same]
        exact (dropped.reserve rfl element.src force).runStart
    apply started
    intro starts
    apply closes adopted
    simpa using starts
  · exact sound.frame element.src element.connected element.adopted (blank element.src)

theorem perform_sound (sound : element.Sound) {step : ImageStep} (closes : element.Closes step) :
    (element.perform step).Sound := by
  cases step with
  | assign source submits =>
    have framed := sound.frame source element.connected element.adopted element.complete
    refine framed.imageState true fun adopted _ held => closes ?_
    simp only [closing, Bool.and_eq_true]
    exact ⟨adopted, Option.isSome_iff_ne_none.mpr held⟩
  | write source => exact sound.frame source element.connected element.adopted element.complete
  | look submits =>
    refine sound.imageState false fun adopted apart held => closes ?_
    simp only [closing, Bool.and_eq_true, decide_eq_true_eq]
    exact ⟨⟨adopted, apart.resolve_left nofun⟩, Option.isSome_iff_ne_none.mpr held⟩
  | connect connected => exact sound.frame element.src connected element.adopted element.complete
  | adopt adopted => exact sound.frame element.src element.connected adopted element.complete
  | allocate =>
    have numbered := sound.numbered
    have owning := sound.owning
    have telling := sound.telling
    exact ⟨⟨numbered.count, numbered.epoch, numbered.latest, numbered.missing, numbered.started,
      numbered.nodes, fun index load here => Nat.lt_succ_of_lt (numbered.handles index load here),
      numbered.paints, numbered.shown, numbered.promise⟩,
      { owning with },
      { telling with }⟩
  | ready load fetches => exact sound.proceed load _ nofun nofun nofun rfl
  | fetched load ok => exact sound.proceed load ok nofun nofun nofun rfl
  | read load ok => exact sound.proceed load ok nofun nofun nofun rfl
  | decoded load ok => exact sound.decoded load ok
  | arrive load submits => exact sound.arrive load closes
  | painted load ok => exact sound.painted load ok
  | failed load submits => exact sound.failed load closes
  | fire load => exact sound.fire load
  | dispatched load => exact sound.dispatched load
  | paint position => exact sound.paint position

/-- The runs in which no close is interrupted. -/
abbrev Reached (element : ImageElement) : Prop :=
  Reachable (· = {}) (restrict (fun before step after => before.perform step = after) Closes)
    element

end ImageElement
end Chuzz.Images
