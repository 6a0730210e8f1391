import Chuzz.Library.FloatKeys
import Chuzz.Video.Seek

/-! Which picture a seek shows first. Decoding starts at one sync sample, so a picture that lies
before it in decode order is not shown whatever its time is; and behind the last picture of a video
that is shorter than its movie nothing is shown at all. -/
namespace Chuzz.Video.Demux
open Library.Fallible Library.FloatOrder List Option

/-- Decoding from the start reaches the sample: a sync sample is at or before it, and none behind it
is presented by the target. -/
structure Opens (samples : List Sample) (target : Float) (place : Nat) : Prop where
  opened : ∃ earlier sample, samples[earlier]? = some sample ∧ earlier ≤ place ∧ sample.sync
  unopened : ∀ later sample, samples[later]? = some sample → place < later → sample.sync →
    ¬ sample.pts ≤ target

/-- The order in which samples are presented. -/
def Precedes (place : Nat) (sample : Sample) (place' : Nat) (sample' : Sample) : Prop :=
  totalKey sample.pts < totalKey sample'.pts ∨
    totalKey sample.pts = totalKey sample'.pts ∧ place ≤ place'

/-- The sample for a target: the one whose interval contains it, or the last or the first one
where the target lies outside of the track. -/
structure Nearest (samples : List Sample) (target : Float) (sample : Sample) : Prop where
  behind : (∀ other ∈ samples, other.endTime ≤ target) →
    ∀ other ∈ samples, other.endTime ≤ sample.endTime
  ahead : (∃ other ∈ samples, target < other.endTime) → (∀ other ∈ samples, target < other.pts) →
    ∀ other ∈ samples, sample.pts ≤ other.pts
  within : (∃ other ∈ samples, target < other.endTime) → (∃ other ∈ samples, other.pts ≤ target) →
    sample.pts ≤ target ∧ target < sample.endTime

/-- A sample that is right for the target is reached: its interval contains the target; or it is
the first one and the target lies before it; or the target is the end of the movie, less than the
sample's duration behind its end, and no such sample precedes it. -/
def Movie.Reaches (movie : Movie) (target : Float) : Prop :=
  ∃ place sample, movie.video.samples[place]? = some sample ∧
    Opens movie.video.samples target place ∧
    (sample.pts ≤ target ∧ target < sample.endTime ∨
      (∀ other ∈ movie.video.samples, target < other.pts) ∧
        (∀ other ∈ movie.video.samples, sample.pts ≤ other.pts) ∧ target < sample.endTime ∨
      (∀ other ∈ movie.video.samples, other.endTime ≤ target) ∧ movie.duration ≤ target ∧
        (∀ other ∈ movie.video.samples, other.endTime ≤ sample.endTime) ∧
        target < sample.endTime + sample.duration ∧
        ∀ place' other, movie.video.samples[place']? = some other →
          Opens movie.video.samples target place' → target < other.endTime + other.duration →
          Precedes place sample place' other)

/-! The start. -/

theorem lastPlace {A : Type} (passes : A → Bool) (l : List A) :
    match ((l.zipIdx.filter fun pair => passes pair.1).map (·.2)).getLast? with
    | none => ∀ a ∈ l, passes a = false
    | some i => ∃ a, l[i]? = some a ∧ passes a = true ∧
        ∀ (j : Nat) b, l[j]? = some b → i < j → passes b = false := by
  induction l using reverseRecOn with
  | nil => exact nofun
  | append_singleton l x ih =>
    rw [zipIdx_append, filter_append, map_append, getLast?_append]
    cases last : passes x with
    | true =>
      have only : ((([x].zipIdx l.length).filter fun pair => passes pair.1).map (·.2)).getLast? =
          some l.length := by simp [last]
      rw [Nat.zero_add, only]
      refine ⟨x, by simp, last, fun j b held later => ?_⟩
      rw [getElem?_append_right later.le, getElem?_eq_none (by simp; omega)] at held
      cases held
    | false =>
      have none' : (([x].zipIdx l.length).filter fun pair => passes pair.1).map (·.2) = [] := by
        simp [last]
      rw [Nat.zero_add, none', getLast?_nil, none_or]
      cases found : ((l.zipIdx.filter fun pair => passes pair.1).map (·.2)).getLast? with
      | none =>
        rw [found] at ih
        simpa [or_imp, forall_and, last] using ih
      | some i =>
        rw [found] at ih
        obtain ⟨a, held, passed, later⟩ := ih
        have inside := (List.getElem?_eq_some_iff.mp held).1
        refine ⟨a, by rwa [getElem?_append_left inside], passed, fun j b held' after => ?_⟩
        rcases Nat.lt_or_ge j l.length with early | late
        · rw [getElem?_append_left early] at held'
          exact later j b held' after
        · rw [getElem?_append_right late] at held'
          obtain ⟨_, rfl⟩ := List.getElem?_eq_some_iff.mp held'
          simpa using last

theorem startIndex_iff {samples : List Sample} {target : Float} {place : Nat} :
    Opens samples target place ↔
      ∃ start, startIndex samples target = some start ∧ start ≤ place := by
  have last := lastPlace (fun sample : Sample => sample.sync && sample.pts ≤ target) samples
  have unfolded : startIndex samples target =
      (((samples.zipIdx.filter fun pair => pair.1.sync && pair.1.pts ≤ target).map
        (·.2)).getLast?).or (samples.findIdx? (·.sync)) := rfl
  rw [unfolded]
  cases chosen : ((samples.zipIdx.filter fun pair => pair.1.sync && pair.1.pts ≤ target).map
      (·.2)).getLast? with
  | some start =>
    rw [chosen] at last
    obtain ⟨sample, held, passes, later⟩ := last
    rw [Bool.and_eq_true, decide_eq_true_eq] at passes
    constructor
    · intro opens
      refine ⟨start, rfl, ?_⟩
      by_contra behind
      exact opens.unopened start sample held (not_le.mp behind) passes.1 passes.2
    · rintro ⟨_, ⟨⟩, before⟩
      refine ⟨⟨start, sample, held, before, passes.1⟩, fun j other held' after sync early => ?_⟩
      have fails := later j other held' (before.trans_lt after)
      rw [sync, decide_eq_true early] at fails
      cases fails
  | none =>
    rw [chosen] at last
    have never : ∀ sample ∈ samples, sample.sync → ¬ sample.pts ≤ target := by
      intro sample member sync early
      have fails := last sample member
      rw [sync, decide_eq_true early] at fails
      cases fails
    constructor
    · rintro ⟨⟨earlier, sample, held, before, sync⟩, _⟩
      cases first : samples.findIdx? (·.sync) with
      | none =>
        have none' := findIdx?_eq_none_iff.mp first sample (mem_of_getElem? held)
        rw [sync] at none'
        cases none'
      | some start =>
        refine ⟨start, rfl, ?_⟩
        obtain ⟨inside, _, least⟩ := findIdx?_eq_some_iff_getElem.mp first
        by_contra behind
        obtain ⟨inside', rfl⟩ := List.getElem?_eq_some_iff.mp held
        exact least earlier (before.trans_lt (not_le.mp behind)) sync
    · rintro ⟨start, first, before⟩
      obtain ⟨inside, sync, _⟩ := findIdx?_eq_some_iff_getElem.mp first
      exact ⟨⟨start, _, getElem?_eq_getElem inside, before, sync⟩,
        fun j other held _ => never other (mem_of_getElem? held)⟩

namespace Setting
variable {D : Type} {setting : Setting D} {A B : Type}

/-! The run. -/

/-- The pictures of the samples, without the page. -/
def coded (coder : Coder D) (lengthSize : Nat) :
    D → List Sample → Except MediaError (D × List Picture)
  | decoder, [] => .ok (decoder, [])
  | decoder, sample :: samples => do
    let (decoder, first) ← decodeSample coder lengthSize decoder sample
    let (decoder, rest) ← coded coder lengthSize decoder samples
    return (decoder, first ++ rest)

/-- Every packet decodes, and the decoder returns each picture once, in presentation order. -/
structure Decodes (setting : Setting D) (shown : Sample → Picture) : Prop where
  ordered : ∀ start, startIndex setting.movie.video.samples setting.target = some start →
    ∃ lengthSize decoder decoder' pictures,
      opened setting.coder setting.movie.avcc = .ok (lengthSize, decoder) ∧
      coded setting.coder lengthSize decoder (setting.movie.video.samples.drop start) =
        .ok (decoder', pictures) ∧
      pictures ++ setting.coder.flush decoder' =
        (displayed (setting.movie.video.samples.drop start)).map shown
  fine : ∀ sample ∈ setting.movie.video.samples, checkPicture (shown sample) = .ok ()

/-- No newer seek comes, and the element stays. -/
def Quiet (setting : Setting D) : Prop :=
  ∀ look, (setting.page look).newer = false ∧ (setting.page look).stopped = false

def frame (shown : Sample → Picture) (sample : Sample) : TimedPicture :=
  ⟨sample.pts, sample.endTime, shown sample⟩

def shows (setting : Setting D) (sample : Sample) : Bool := !setting.skips sample

/-- What the run has queued first, and what is left of it. -/
structure Stands (first : Option TimedPicture) (life : Life) : Prop where
  queued : life.queued.head? = first
  empty : first = none → life.shared.video = []
  kept : first ≠ none → life.shared.presented = true ∨ life.shared.video ≠ []

/-- How the program ends in this state. -/
def Proceeds (program : EStateM Ending Life A) (life : Life) (Q : A → Life → Prop)
    (E : Ending → Life → Prop) : Prop :=
  match program life with
  | .ok value after => Q value after
  | .error ending after => E ending after

/-- A run that waits for a place in a full queue has queued something. -/
def Waits (first : Option TimedPicture) (ending : Ending) (after : Life) : Prop :=
  ending = .blocked ∧ first ≠ none ∧ Stands first after

variable {life : Life} {E : Ending → Life → Prop} {program : EStateM Ending Life A}

theorem Proceeds.next {rest : A → EStateM Ending Life B}
    {R : A → Life → Prop} {Q : B → Life → Prop} (first : Proceeds program life R E)
    (continues : ∀ value after, R value after → Proceeds (rest value) after Q E) :
    Proceeds (program >>= rest) life Q E := by
  unfold Proceeds at first ⊢
  simp only [bind, EStateM.bind]
  cases ran : program life with
  | ok value after =>
    rw [ran] at first
    exact continues value after first
  | error ending after =>
    rw [ran] at first
    exact first

theorem Proceeds.weaken {Q : A → Life → Prop}
    {E F : Ending → Life → Prop} (proceeds : Proceeds program life Q E)
    (weaker : ∀ ending after, E ending after → F ending after) : Proceeds program life Q F := by
  unfold Proceeds at *
  split at proceeds
  · exact proceeds
  · exact weaker _ _ proceeds

variable {first : Option TimedPicture}

theorem Stands.poll (stands : Stands first life) (movie : Movie) (polls : List Poll) :
    Stands first { life with shared := polls.foldl (Shared.poll movie) life.shared } := by
  induction polls generalizing life with
  | nil => exact stands
  | cons poll rest ih =>
    refine @ih { life with shared := life.shared.poll movie poll } ⟨stands.queued, ?_, ?_⟩
    · intro none
      have empty := stands.empty none
      unfold Shared.poll
      split
      · simp [empty]
      · simp only [empty]
    · intro some
      unfold Shared.poll
      split
      · exact .inl rfl
      · rename_i hidden
        rcases stands.kept some with presented | left
        · exact absurd (.inl presented) hidden
        · split
          · contradiction
          · exact .inl rfl

theorem meanwhile_proceeds (quiet : setting.Quiet)
    (stands : Stands first life) : Proceeds setting.meanwhile life
      (fun moment after => (moment.newer = false ∧ moment.stopped = false) ∧ Stands first after)
      E := by
  have polled := stands.poll setting.movie (setting.page life.looks).polls
  exact ⟨quiet life.looks, polled.queued, polled.empty, polled.kept⟩

theorem active_proceeds (quiet : setting.Quiet)
    (stands : Stands first life) : Proceeds setting.active life (fun _ => Stands first) E := by
  refine (meanwhile_proceeds quiet stands).next fun moment after ⟨⟨newer, stopped⟩, stands⟩ => ?_
  rw [newer, stopped, if_neg (by decide)]
  exact stands

theorem offer_proceeds (quiet : setting.Quiet) (frame : TimedPicture) (attempts : Nat)
    (stands : Stands first life)
    (patient : first = none → 0 < attempts) : Proceeds (setting.offer frame attempts) life
      (fun _ => Stands (first.or (some frame))) (Waits first) := by
  induction attempts generalizing life with
  | zero => exact ⟨rfl, fun none => absurd (patient none) (Nat.lt_irrefl 0), stands⟩
  | succ attempts ih =>
    refine (active_proceeds quiet stands).next fun _ after stands => ?_
    refine (meanwhile_proceeds quiet stands).next fun moment after ⟨⟨newer, _⟩, stands⟩ => ?_
    rw [newer, if_neg (by decide)]
    change Proceeds (if after.shared.video.length < videoQueue then _ else _) after _ _
    split
    · refine ⟨?_, fun none => ?_, fun _ => .inr ?_⟩
      · change (after.queued ++ [frame]).head? = _
        rw [head?_append, stands.queued]
        rfl
      · cases first <;> cases none
      · exact append_ne_nil_of_right_ne_nil _ (cons_ne_nil _ _)
    · rename_i full
      refine ih stands fun none => ?_
      rw [stands.empty none] at full
      exact absurd (by decide) full

theorem queuePicture_proceeds (quiet : setting.Quiet) (patient : 0 < setting.patience)
    {shown : Sample → Picture} {sample : Sample} (fine : checkPicture (shown sample) = .ok ())
    (stands : Stands first life) :
    Proceeds (setting.queuePicture sample (shown sample)) life
      (fun _ => Stands (first.or (if setting.shows sample then some (frame shown sample) else none)))
      (Waits first) := by
  unfold queuePicture shows
  cases skipped : setting.skips sample with
  | true =>
    change Stands _ life
    rw [Bool.not_true, if_neg (by decide), or_none]
    exact stands
  | false =>
    rw [fine]
    exact offer_proceeds quiet _ _ stands fun _ => patient

variable {shown : Sample → Picture} {whole : Option TimedPicture}

/-- With `rest` still to come, the run queues first what it would queue first of everything. -/
def Stays (setting : Setting D) (shown : Sample → Picture) (whole : Option TimedPicture)
    (rest : List Sample) (life : Life) : Prop :=
  ∃ first, first.or ((rest.find? setting.shows).map (frame shown)) = whole ∧ Stands first life

section
variable (quiet : setting.Quiet) (patient : 0 < setting.patience)
include quiet patient

theorem queuePictures_proceeds (part : List Sample) {rest : List Sample}
    (fine : ∀ sample ∈ part, checkPicture (shown sample) = .ok ())
    (stays : Stays setting shown whole (part ++ rest) life) :
    Proceeds (setting.queuePictures (part.map shown) (part ++ rest)) life
      (fun display after => display = rest ∧ Stays setting shown whole rest after)
      (Waits whole) := by
  induction part generalizing life with
  | nil => exact ⟨rfl, stays⟩
  | cons sample part ih =>
    obtain ⟨first, same, stands⟩ := stays
    have waits (ending : Ending) (after : Life) (blocked : Waits first ending after) :
        Waits whole ending after := by
      cases first with
      | none => exact absurd rfl blocked.2.1
      | some found =>
        rwa [← same]
    refine ((queuePicture_proceeds quiet patient
      (fine sample mem_cons_self) stands).weaken waits).next fun _ after stands => ?_
    refine ih (fun other member => fine other (mem_cons_of_mem _ member)) ⟨_, ?_, stands⟩
    rw [← same, Option.or_assoc, List.cons_append, List.find?_cons]
    cases setting.shows sample <;> rfl

theorem decodeSamples_proceeds {lengthSize : Nat} {samples part rest : List Sample} {decoder decoder' : D}
    (fine : ∀ sample ∈ part, checkPicture (shown sample) = .ok ())
    (decoded : coded setting.coder lengthSize decoder samples = .ok (decoder', part.map shown))
    (stays : Stays setting shown whole (part ++ rest) life) :
    Proceeds (setting.decodeSamples lengthSize samples decoder (part ++ rest)) life
      (fun result after => result = (decoder', rest) ∧ Stays setting shown whole rest after)
      (Waits whole) := by
  generalize pictures : part.map shown = all at decoded
  induction samples generalizing decoder part all life with
  | nil =>
    cases decoded
    obtain rfl := map_eq_nil_iff.mp pictures
    exact ⟨rfl, stays⟩
  | cons sample samples ih =>
    obtain ⟨⟨middle, first⟩, here, remaining⟩ := bind_ok decoded
    obtain ⟨⟨last, later⟩, there, same⟩ := bind_ok remaining
    obtain ⟨rfl, rfl⟩ := Prod.mk.inj (Except.ok.inj same)
    obtain ⟨start, stop, rfl, rfl, rfl⟩ := map_eq_append_iff.mp pictures
    obtain ⟨known, holds, stands⟩ := stays
    refine (active_proceeds quiet stands).next fun _ after stands => ?_
    rw [here]
    rw [append_assoc] at holds ⊢
    refine (queuePictures_proceeds quiet patient start
      (fun other member => fine other (mem_append_left _ member))
      ⟨known, holds, stands⟩).next fun display after ⟨left, stays⟩ => ?_
    rw [left]
    exact ih (fun other member => fine other (mem_append_right _ member)) stays _ rfl there

/-- A quiet run queues first the first picture that is not skipped, if there is one. -/
theorem decodeVideo_proceeds (decodes : setting.Decodes shown) {start : Nat}
    (begins : startIndex setting.movie.video.samples setting.target = some start)
    (first : whole = ((displayed (setting.movie.video.samples.drop start)).find?
      setting.shows).map (frame shown)) :
    Proceeds setting.decodeVideo {} (fun _ after => after.queued.head? = whole)
      (fun ending after => after.queued.head? = whole ∧
        (whole ≠ none → ending ≠ .failed noFrame)) := by
  obtain ⟨lengthSize, decoder, decoder', pictures, opens, decoded, returned⟩ :=
    decodes.ordered start begins
  generalize ordered : displayed (setting.movie.video.samples.drop start) = display at *
  have fine : ∀ sample ∈ display, checkPicture (shown sample) = .ok () := by
    intro sample member
    rw [← ordered] at member
    exact decodes.fine sample (mem_of_mem_drop ((mem_insertionSort _).mp member))
  obtain ⟨part, rest, rfl, rfl, flushed⟩ := map_eq_append_iff.mp returned.symm
  have stays : Stays setting shown whole (part ++ rest) {} :=
    ⟨none, by rw [first, none_or], rfl, fun _ => rfl, fun some => absurd rfl some⟩
  have waits (ending : Ending) (after : Life) (blocked : Waits whole ending after) :
      after.queued.head? = whole ∧ (whole ≠ none → ending ≠ .failed noFrame) := by
    obtain ⟨rfl, _, stands⟩ := blocked
    exact ⟨stands.queued, nofun⟩
  unfold decodeVideo
  dsimp only
  rw [begins]
  dsimp only
  rw [ordered, opens]
  refine ((decodeSamples_proceeds quiet patient
    (fun sample member => fine sample (mem_append_left _ member)) decoded stays).weaken
    waits).next fun _ after ⟨left, stays⟩ => ?_
  rw [left]
  rw [← append_nil rest] at stays ⊢
  rw [← flushed]
  refine ((queuePictures_proceeds quiet patient rest
    (fun sample member => fine sample (mem_append_right _ member)) stays).weaken
    waits).next fun _ after ⟨left, stays⟩ => ?_
  obtain ⟨found, same, stands⟩ := stays
  rw [left, if_neg (not_not.mpr rfl)]
  rw [find?_nil, map_none, or_none] at same
  subst same
  refine (meanwhile_proceeds quiet stands).next fun moment after ⟨_, stands⟩ => ?_
  change Proceeds (if _ then _ else _) after _ _
  split
  · rename_i hidden
    refine ⟨stands.queued, fun some => ?_⟩
    rcases stands.kept some with presented | left
    · exact absurd presented hidden.2.1
    · exact absurd hidden.2.2 left
  · exact stands.queued

end

/-- The run does not end for want of a picture, and the first one it queues is that of the sample
for the target. -/
structure Shows (setting : Setting D) (shown : Sample → Picture) : Prop where
  framed : ∀ life, setting.decodeVideo {} ≠ .error (.failed noFrame) life
  nearest : ∃ sample ∈ setting.movie.video.samples,
    (Library.Throwing.left setting.decodeVideo {}).queued.head? = some (frame shown sample) ∧
      Nearest setting.movie.video.samples setting.target sample

/-! The choice. -/

/-- What a run shows first: of the samples that are reached and not skipped, the first one. -/
structure Chosen (setting : Setting D) (place : Nat) (sample : Sample) : Prop where
  held : setting.movie.video.samples[place]? = some sample
  opens : Opens setting.movie.video.samples setting.target place
  shows : setting.shows sample
  earliest : ∀ place' other, setting.movie.video.samples[place']? = some other →
    Opens setting.movie.video.samples setting.target place' → setting.shows other →
    Precedes place sample place' other

variable {sample : Sample}

theorem chosen_found {start : Nat}
    (begins : startIndex setting.movie.video.samples setting.target = some start)
    (found : (displayed (setting.movie.video.samples.drop start)).find? setting.shows =
      some sample) : ∃ place, setting.Chosen place sample := by
  obtain ⟨i, held, earliest⟩ := Library.StableSort.find?_insertionSort found
  rw [getElem?_drop] at held
  refine ⟨start + i, held, startIndex_iff.mpr ⟨start, begins, Nat.le_add_right start i⟩,
    find?_some found, fun place' other held' opens shows => ?_⟩
  obtain ⟨_, same, after⟩ := startIndex_iff.mp opens
  obtain rfl := Option.some.inj (begins.symm.trans same)
  have there : (setting.movie.video.samples.drop start)[place' - start]? = some other := by
    rw [getElem?_drop, Nat.add_sub_cancel' after, held']
  rcases earliest _ _ there shows with before | ⟨same, before⟩
  · exact .inl before
  · exact .inr ⟨same, by omega⟩

theorem chosen_of_shows {place : Nat} (held : setting.movie.video.samples[place]? = some sample)
    (opens : Opens setting.movie.video.samples setting.target place)
    (shows : setting.shows sample) : ∃ start chosen,
      startIndex setting.movie.video.samples setting.target = some start ∧
        (displayed (setting.movie.video.samples.drop start)).find? setting.shows = some chosen := by
  obtain ⟨start, begins, after⟩ := startIndex_iff.mp opens
  have there : sample ∈ displayed (setting.movie.video.samples.drop start) := by
    refine (mem_insertionSort _).mpr (mem_of_getElem? (i := place - start) ?_)
    rw [getElem?_drop, Nat.add_sub_cancel' after, held]
  obtain ⟨chosen, found⟩ := isSome_iff_exists.mp
    (find?_isSome.mpr ⟨sample, there, shows⟩)
  exact ⟨start, chosen, begins, found⟩

theorem shows_cases : setting.shows sample ↔ ¬ sample.endTime ≤ setting.target ∨
      setting.target < sample.endTime + sample.duration ∧
        ¬ setting.target < setting.movie.duration := by
  unfold shows skips
  by_cases ended : sample.endTime ≤ setting.target
  · by_cases near : setting.target < sample.endTime + sample.duration
    · simp [ended, near]
    · simp [ended, near]
  · simp [ended]

section Times
variable {place : Nat} {sample : Sample} (sound : setting.movie.Sound)
  (number : setting.target.isNaN = false)
include sound number

/-- Within the video track, a sample is shown if it ends behind the target. -/
theorem shows_ahead (before : ∃ other ∈ setting.movie.video.samples, setting.target < other.endTime)
    (member : sample ∈ setting.movie.video.samples) :
    setting.shows sample ↔ setting.target < sample.endTime := by
  obtain ⟨other, inside, before⟩ := before
  have playing : setting.target < setting.movie.duration := by
    rw [lt_iff number sound.duration]
    rw [lt_iff number (sound.stop other inside)] at before
    exact before.trans_le
      ((le_iff (sound.stop other inside) sound.duration).mp (sound.inside other inside))
  rw [shows_cases, or_iff_left fun last => last.2 playing,
    le_iff (sound.stop sample member) number, lt_iff number (sound.stop sample member), not_le]

theorem shows_behind (ended : sample.endTime ≤ setting.target) : setting.shows sample ↔
    setting.movie.duration ≤ setting.target ∧
      setting.target < sample.endTime + sample.duration := by
  rw [shows_cases, or_iff_right (not_not.mpr ended), lt_iff number sound.duration, not_lt,
    ← le_iff sound.duration number, and_comm]

omit number in
theorem pts_le {place' : Nat} {other : Sample} (precedes : Precedes place sample place' other)
    (member : sample ∈ setting.movie.video.samples)
    (member' : other ∈ setting.movie.video.samples) : sample.pts ≤ other.pts := by
  refine Library.FloatKeys.le_of_key_le (sound.pts sample member) (sound.pts other member') ?_
  rcases precedes with before | ⟨same, _⟩
  · exact before.le
  · exact same.le

theorem Chosen.reaches (chosen : setting.Chosen place sample)
    (nearest : Nearest setting.movie.video.samples setting.target sample) :
    setting.movie.Reaches setting.target := by
  have member := mem_of_getElem? chosen.held
  refine ⟨place, sample, chosen.held, chosen.opens, ?_⟩
  by_cases ahead : ∃ other ∈ setting.movie.video.samples, setting.target < other.endTime
  · have shows := (shows_ahead sound number ahead member).mp chosen.shows
    by_cases begun : ∃ other ∈ setting.movie.video.samples, other.pts ≤ setting.target
    · exact .inl (nearest.within ahead begun)
    · have later : ∀ other ∈ setting.movie.video.samples, setting.target < other.pts := by
        intro other inside
        rw [lt_iff number (sound.pts other inside), ← not_le,
          ← le_iff (sound.pts other inside) number]
        exact fun begins => begun ⟨other, inside, begins⟩
      exact .inr (.inl ⟨later, nearest.ahead ahead later, shows⟩)
  · have behind : ∀ other ∈ setting.movie.video.samples, other.endTime ≤ setting.target :=
      fun other inside => le_of_not_lt number (sound.stop other inside)
        fun before => ahead ⟨other, inside, before⟩
    obtain ⟨ending, close⟩ := (shows_behind sound number (behind sample member)).mp chosen.shows
    refine .inr (.inr ⟨behind, ending, nearest.behind behind, close, fun place' other held opens near =>
      chosen.earliest place' other held opens ?_⟩)
    exact (shows_behind sound number (behind other (mem_of_getElem? held))).mpr ⟨ending, near⟩

theorem Chosen.nearest (chosen : setting.Chosen place sample)
    (reaches : setting.movie.Reaches setting.target) :
    Nearest setting.movie.video.samples setting.target sample := by
  have member := mem_of_getElem? chosen.held
  obtain ⟨place', other, held, opens, right⟩ := reaches
  have inside := mem_of_getElem? held
  rcases right with ⟨begun, before⟩ | ⟨later, least, before⟩ | ⟨behind, ending, last, near, first⟩
  · have ahead : ∃ other ∈ setting.movie.video.samples, setting.target < other.endTime :=
      ⟨other, inside, before⟩
    have precedes := chosen.earliest place' other held opens
      ((shows_ahead sound number ahead inside).mpr before)
    have within : sample.pts ≤ setting.target := le_transitive (sound.pts sample member)
      (sound.pts other inside) number (pts_le sound precedes member inside) begun
    refine ⟨fun behind => ?_, fun _ later => ?_, fun _ _ => ?_⟩
    · exact absurd before (not_lt_of_le number (sound.stop other inside) (behind other inside))
    · exact absurd (later other inside) (not_lt_of_le number (sound.pts other inside) begun)
    · exact ⟨within, (shows_ahead sound number ahead member).mp chosen.shows⟩
  · have ahead : ∃ other ∈ setting.movie.video.samples, setting.target < other.endTime :=
      ⟨other, inside, before⟩
    have precedes := chosen.earliest place' other held opens
      ((shows_ahead sound number ahead inside).mpr before)
    refine ⟨fun behind => ?_, fun _ _ third member' => ?_, fun _ begun => ?_⟩
    · exact absurd before (not_lt_of_le number (sound.stop other inside) (behind other inside))
    · exact le_transitive (sound.pts sample member) (sound.pts other inside)
        (sound.pts third member') (pts_le sound precedes member inside) (least third member')
    · obtain ⟨third, member', begins⟩ := begun
      exact absurd (later third member')
        (not_lt_of_le number (sound.pts third member') begins)
  · have shows := (shows_behind sound number (behind other inside)).mpr ⟨ending, near⟩
    have close := (shows_behind sound number (behind sample member)).mp chosen.shows
    obtain rfl : sample = other := by
      have before := chosen.earliest place' other held opens shows
      have after := first place sample chosen.held chosen.opens close.2
      have same : place = place' := by
        unfold Precedes at before after
        omega
      subst same
      exact Option.some.inj (chosen.held.symm.trans held)
    have never : ¬ ∃ other ∈ setting.movie.video.samples, setting.target < other.endTime :=
      fun ⟨third, member', before⟩ => not_lt_of_le number (sound.stop third member')
        (behind third member') before
    exact ⟨fun _ => last, fun ahead => absurd ahead never, fun ahead => absurd ahead never⟩

theorem reaches_shows (reaches : setting.movie.Reaches setting.target) :
    ∃ place sample, setting.movie.video.samples[place]? = some sample ∧
      Opens setting.movie.video.samples setting.target place ∧ setting.shows sample := by
  obtain ⟨place, sample, held, opens, right⟩ := reaches
  have member := mem_of_getElem? held
  refine ⟨place, sample, held, opens, ?_⟩
  rcases right with ⟨_, before⟩ | ⟨_, _, before⟩ | ⟨behind, ending, _, near, _⟩
  · exact (shows_ahead sound number ⟨sample, member, before⟩ member).mpr before
  · exact (shows_ahead sound number ⟨sample, member, before⟩ member).mpr before
  · exact (shows_behind sound number (behind sample member)).mpr ⟨ending, near⟩

end Times

theorem nearest_of_frame {samples : List Sample} {target : Float} {sample other : Sample}
    (nearest : Nearest samples target sample)
    (same : frame shown other = frame shown sample) : Nearest samples target other := by
  have pts : other.pts = sample.pts := congrArg TimedPicture.start same
  have stop : other.endTime = sample.endTime := congrArg TimedPicture.stop same
  exact ⟨by rw [stop]; exact nearest.behind, by rw [pts]; exact nearest.ahead,
    by rw [pts, stop]; exact nearest.within⟩

theorem shows_iff_reaches (sound : setting.movie.Sound) (number : setting.target.isNaN = false)
    (decodes : setting.Decodes shown) (quiet : setting.Quiet) (patient : 0 < setting.patience) :
    setting.Shows shown ↔ setting.movie.Reaches setting.target := by
  cases begins : startIndex setting.movie.video.samples setting.target with
  | none =>
    have stopped : setting.decodeVideo {} =
        .error (.failed (.decode "the H.264 track has no sync sample")) {} := by
      unfold decodeVideo
      rw [begins]
      rfl
    constructor
    · intro shows
      obtain ⟨sample, _, queued, _⟩ := shows.nearest
      rw [Library.Throwing.left, stopped] at queued
      cases queued
    · rintro ⟨place, sample, held, opens, _⟩
      obtain ⟨_, some, _⟩ := startIndex_iff.mp opens
      rw [begins] at some
      cases some
  | some start =>
    have proceeds := decodeVideo_proceeds quiet patient decodes begins rfl
    unfold Proceeds at proceeds
    have queued : (Library.Throwing.left setting.decodeVideo {}).queued.head? =
        ((displayed (setting.movie.video.samples.drop start)).find? setting.shows).map
          (frame shown) := by
      unfold Library.Throwing.left
      cases ran : setting.decodeVideo {} with
      | ok value after =>
        rw [ran] at proceeds
        exact proceeds
      | error ending after =>
        rw [ran] at proceeds
        exact proceeds.1
    constructor
    · intro shows
      obtain ⟨sample, member, first, nearest⟩ := shows.nearest
      rw [queued] at first
      obtain ⟨chosen, found, same⟩ := map_eq_some_iff.mp first
      obtain ⟨place, chosen⟩ := chosen_found begins found
      exact chosen.reaches sound number (nearest_of_frame nearest same)
    · intro reaches
      obtain ⟨place', other, held, opens, shows⟩ := reaches_shows sound number reaches
      obtain ⟨_, sample, same, found⟩ := chosen_of_shows held opens shows
      obtain rfl := Option.some.inj (begins.symm.trans same)
      obtain ⟨place, chosen⟩ := chosen_found begins found
      refine ⟨fun life failed => ?_, sample, mem_of_getElem? chosen.held, ?_,
        chosen.nearest sound number reaches⟩
      · rw [failed, found] at proceeds
        exact proceeds.2 nofun rfl
      · rw [queued, found]
        rfl

end Setting

theorem number_of_le {a b : Float} (h : a ≤ b) : b.isNaN = false := by
  cases unordered : b.isNaN with
  | false => rfl
  | true =>
    change decide (a.toModel ≤ b.toModel) = true at h
    rw [decide_eq_true_eq] at h
    change (a.toModel.unpack.compare b.toModel.unpack).any (·.isLE) = true at h
    change b.toModel.unpack.isNaN = true at unordered
    cases hu : b.toModel.unpack with
    | notANumber =>
      rw [hu] at h
      cases hv : a.toModel.unpack <;> simp [hv, Float.Model.UnpackedFloat.compare] at h
    | _ => simp [hu, Float.Model.UnpackedFloat.isNaN] at unordered

/-- A seek shows the picture for its target exactly if decoding from the start reaches a sample
that is right for it and not skipped. -/
theorem seek_shows_iff {D : Type} {tracks : Tracks} {length : UInt64} {setting : Setting D}
    {shown : Sample → Picture} (accepted : tracks.movie length = .ok setting.movie)
    (nonnegative : 0 ≤ setting.target)
    (decodes : setting.Decodes shown) (quiet : setting.Quiet) (patient : 0 < setting.patience) :
    setting.Shows shown ↔ setting.movie.Reaches setting.target :=
  Setting.shows_iff_reaches (Tracks.movie_sound accepted) (number_of_le nonnegative) decodes quiet
    patient

theorem one_wide : 1 < 2 ^ 32 := by decide

/-- A track of one picture a second. -/
def still (seconds : Nat) : MediaTrack where
  timescale := some 1
  stts := some [⟨seconds, 1, one_wide⟩]
  stsz := some ⟨5, []⟩
  stsc := some [⟨1, 1, 1⟩]
  stco := some (List.replicate seconds 0)

/-- A library that takes every sample for one picture. -/
def grey : Coder Unit where
  parseConfig _ := .ok ⟨4, [[103]], [[104]]⟩
  start := ()
  decodeNal _ nal := .ok ((), if nal = [101] then [⟨2, 2, [0, 0, 0, 0], [0], [0]⟩] else [])
  flush _ := []
  parseAnnexB _ := [[101]]
  read _ _ := .ok ⟨[0, 0, 0, 1, 101], by decide⟩

/-- Sound that goes on for two seconds behind the video. -/
def longSound : Tracks := { video := still 1, avcc := [1], audio := some (still 3) }

def stillTable (seconds : Nat) : Table :=
  ⟨(List.range seconds).map fun i => ⟨0, 5, i, 1, asF64 i, 1, true⟩, asF64 seconds⟩

def longMovie : Movie := ⟨stillTable 1, [1], some (stillTable 3), 3⟩

theorem longSound_movie : longSound.movie 5 = .ok longMovie := by decide +kernel

example : longMovie.duration ≤ 3 := by decide +kernel

/-- A seek of `longMovie` that nothing disturbs. -/
def seekLong (target : Float) : Setting Unit := ⟨longMovie, target, grey, fun _ => {}, 1⟩

def greyPicture (_ : Sample) : Picture := ⟨2, 2, [0, 0, 0, 0], [0], [0]⟩

theorem seekLong_start (target : Float) :
    startIndex (seekLong target).movie.video.samples target = some 0 := by
  have table : longMovie.video.samples = [⟨0, 5, 0, 1, 0, 1, true⟩] := by rfl
  change startIndex longMovie.video.samples target = some 0
  rw [table]
  unfold startIndex
  cases early : decide ((0 : Float) ≤ target) <;> simp [early]

theorem seekLong_decodes (target : Float) : (seekLong target).Decodes greyPicture := by
  have table : (seekLong target).movie.video.samples = [⟨0, 5, 0, 1, 0, 1, true⟩] := by
    change longMovie.video.samples = _
    rfl
  have fine : Setting.checkPicture ⟨2, 2, [0, 0, 0, 0], [0], [0]⟩ = .ok () := by decide
  refine ⟨fun start begins => ?_, fun _ _ => fine⟩
  obtain rfl := Option.some.inj ((seekLong_start target).symm.trans begins)
  refine ⟨4, (), (), [greyPicture ⟨0, 5, 0, 1, 0, 1, true⟩], ?_, ?_, ?_⟩
  · change Setting.opened grey [1] = .ok (4, ())
    rfl
  · rw [table]
    change Setting.coded grey 4 () [⟨0, 5, 0, 1, 0, 1, true⟩] = .ok _
    decide +kernel
  · rw [table]
    rfl

example : longMovie.video.samples.length = 1 := by decide +kernel

theorem seekLong_quiet (target : Float) : (seekLong target).Quiet := fun _ => ⟨rfl, rfl⟩

theorem longMovie_reaches : longMovie.Reaches 0 := by
  have held : longMovie.video.samples[0]? = some ⟨0, 5, 0, 1, 0, 1, true⟩ := by rfl
  exact ⟨0, _, held, startIndex_iff.mpr ⟨0, seekLong_start 0, le_rfl⟩,
    .inl ⟨by decide, by decide⟩⟩

/-- At its beginning there is one. -/
theorem seek_shows_first : (seekLong 0).Shows greyPicture :=
  (seek_shows_iff longSound_movie (by decide) (seekLong_decodes 0) (seekLong_quiet 0)
    Nat.one_pos).mpr longMovie_reaches

/-- Where the video has ended and the sound has not, there is no picture. -/
theorem seek_behind_video : longSound.movie 5 = .ok longMovie ∧
    0 ≤ (seekLong 2).target ∧ (seekLong 2).target ≤ longMovie.duration ∧
    (seekLong 2).Decodes greyPicture ∧ (seekLong 2).Quiet ∧ 0 < (seekLong 2).patience ∧
    ¬ (seekLong 2).Shows greyPicture := by
  refine ⟨longSound_movie, by decide, by decide, seekLong_decodes 2,
    seekLong_quiet 2, Nat.one_pos, fun shows => ?_⟩
  obtain ⟨sample, _, queued, _⟩ := shows.nearest
  have nothing : (Library.Throwing.left (seekLong 2).decodeVideo {}).queued = [] := by
    decide +kernel
  rw [nothing] at queued
  cases queued

example : (seekLong 2).target ≤ longMovie.duration := by decide +kernel

end Chuzz.Video.Demux
