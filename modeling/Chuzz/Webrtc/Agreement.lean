import Chuzz.Webrtc.Transceivers

/-! The page and the engine number new slots alike, as long as no transceiver is added while
a remote offer that brings slots is in flight. -/
namespace Chuzz.Webrtc
open Library Library.Transition List

/-- The slots that a notice reports. -/
def Notice.entries : Notice → Option Snapshot
  | .reply _ (.ok entries) => entries
  | .snapshot entries => some entries
  | _ => none

theorem Command.added_eq_none {command : Command} (other : command.isAdd = false) :
    command.added = none := by
  cases command with
  | add => cases other
  | _ => rfl

namespace Session

/-- The ids that wait in the queue. -/
def adds (jobs : List Job) : List Nat := jobs.filterMap (·.command.added)

theorem adds_append (jobs : List Job) (job : Job) :
    adds (jobs ++ [job]) = adds jobs ++ job.command.added.toList := by
  rw [adds, filterMap_append]
  congr 1

theorem adds_cons (job : Job) (rest : List Job) :
    adds (job :: rest) = job.command.added.toList ++ adds rest := by
  rw [adds, filterMap_cons]
  cases job.command.added <;> rfl

theorem adds_other {jobs : List Job} (none : jobs.all (!·.command.isAdd)) : adds jobs = [] := by
  rw [all_eq_true] at none
  refine filterMap_eq_nil_iff.mpr fun job member => ?_
  exact Command.added_eq_none ((Bool.not_eq_true' _).mp (none job member))

/-- Both sides count from one. The ids that wait follow those of the engine, and while some
wait the page has seen all of the engine's. -/
structure Agreed (session : Session) : Prop where
  counted : Engine.Counted session.engine.slots
  limit : session.engine.slots.length ≤ slotLimit
  page : session.page.slots.map (·.slot) = List.range' 1 session.page.nextSlot
  pageLimit : session.page.nextSlot ≤ slotLimit
  reported : ∀ notice ∈ session.notices, ∀ entries ∈ notice.entries,
    ∃ n ≤ session.engine.slots.length, entries.map (·.slot) = List.range' 1 n
  formed : ∀ job ∈ session.jobs, job.command.isAdd →
    ∃ id kind direction media, job.command = .add (some id) (some kind) direction media
  waiting : adds session.jobs =
    List.range' (session.engine.slots.length + 1) (adds session.jobs).length
  next : session.closed = false →
    session.page.nextSlot ≤ session.engine.slots.length + (adds session.jobs).length
  seen : session.closed = false → adds session.jobs ≠ [] →
    session.page.nextSlot = session.engine.slots.length + (adds session.jobs).length
  cleared : session.closed = true → session.jobs = []
  refused : session.refused = []

theorem enqueue_ok {session queued : Session} {job : Job}
    (taken : session.enqueue job = .ok queued) :
    session.closed = false ∧ queued = { session with jobs := session.jobs ++ [job] } := by
  unfold enqueue at taken
  split_ifs at taken with closed full
  cases taken
  exact ⟨Bool.eq_false_iff.mpr closed, rfl⟩

section Preservation
variable {session queued : Session}

section
variable (agreed : session.Agreed)
include agreed

theorem Agreed.close : session.close.Agreed :=
  { agreed with
    formed := fun _ member => absurd member not_mem_nil
    waiting := rfl
    next := fun h => by cases h
    seen := fun h => by cases h
    cleared := fun _ => rfl }

theorem Agreed.post {notice : Notice} (reports : ∀ entries ∈ notice.entries,
      ∃ n ≤ session.engine.slots.length, entries.map (·.slot) = List.range' 1 n) :
    (session.post notice).Agreed := by
  unfold Session.post
  split
  · exact agreed
  · refine { agreed with reported := fun other member => ?_ }
    rcases mem_append.mp member with old | new
    · exact agreed.reported other old
    · rw [mem_singleton.mp new]
      exact reports

theorem Agreed.reply (token : Nat) {result : Except String (Option Snapshot)}
    (reports : ∀ entries, result = .ok (some entries) →
      ∃ n ≤ session.engine.slots.length, entries.map (·.slot) = List.range' 1 n) :
    (session.reply token result).Agreed := by
  unfold Session.reply
  split
  · cases result with
    | error error => exact (agreed.post fun _ h => by cases h).close
    | ok entries => exact agreed
  · refine agreed.post fun entries reported => ?_
    cases result with
    | error error => cases reported
    | ok some => exact reports entries (congrArg Except.ok reported)

theorem Agreed.shutdown : session.shutdown.Agreed := by
  unfold Session.shutdown
  split
  · exact agreed
  · exact { agreed.close with }

theorem Agreed.enqueue {job : Job} (other : job.command.isAdd = false)
    (taken : session.enqueue job = .ok queued) : queued.Agreed := by
  obtain ⟨going, rfl⟩ := enqueue_ok taken
  have same : adds (session.jobs ++ [job]) = adds session.jobs := by
    rw [adds_append, Command.added_eq_none other]
    exact append_nil _
  refine { agreed with
    formed := fun later member add => ?_
    waiting := same.symm ▸ agreed.waiting
    next := same.symm ▸ agreed.next
    seen := same.symm ▸ agreed.seen
    cleared := fun closed => ?_ }
  · rcases mem_append.mp member with old | new
    · exact agreed.formed later old add
    · rw [mem_singleton.mp new, other] at add
      cases add
  · rw [going] at closed
    cases closed

theorem Agreed.request (command : Command) : (session.request command).Agreed := by
  unfold Session.request
  split
  · exact agreed
  · rename_i asked
    rw [not_or, not_or] at asked
    dsimp only
    cases taken : session.enqueue ⟨session.page.nextToken + 1, command⟩ with
    | error error => exact { agreed with }
    | ok queued =>
      have page := (enqueue_ok taken).2
      have kept := agreed.enqueue (Bool.eq_false_iff.mpr asked.2.2) taken
      subst page
      exact { kept with }

theorem Agreed.send (command : Command) : (session.send command).Agreed := by
  unfold Session.send
  split
  · exact agreed
  · rename_i asked
    rw [not_or] at asked
    cases taken : session.enqueue ⟨0, command⟩ with
    | error error => exact agreed
    | ok queued => exact agreed.enqueue (Bool.eq_false_iff.mpr asked.2) taken

theorem Agreed.pageLength : session.page.slots.length = session.page.nextSlot := by
  simpa only [length_map, length_range'] using congrArg List.length agreed.page

theorem Agreed.pageMem (id : Nat) :
    session.page.slots.any (·.slot = id) = true ↔ 0 < id ∧ id ≤ session.page.nextSlot := by
  have listed : id ∈ session.page.slots.map (·.slot) ↔ 0 < id ∧ id ≤ session.page.nextSlot := by
    rw [agreed.page, mem_range'_1]
    omega
  rw [← listed]
  simp [any_eq_true, mem_map]

/-- The page takes the number after the engine's and after those that wait. -/
theorem Agreed.addTransceiver (kind : Kind) (direction : Text) (media : Media) (leased : Bool)
    (apart : session.apart (.addTransceiver kind direction media leased)) :
    (session.addTransceiver kind direction media leased).Agreed := by
  unfold Session.addTransceiver
  split
  · exact agreed
  · rename_i asked
    rw [not_or, not_or, Bool.not_eq_true] at asked
    obtain ⟨page, room, -⟩ := asked
    rw [agreed.pageLength] at room
    dsimp only
    cases taken : session.enqueue
        ⟨0, .add (some (session.page.nextSlot + 1)) (some kind) (some direction) media⟩ with
    | error error => exact agreed
    | ok queued =>
      obtain ⟨going, rfl⟩ := enqueue_ok taken
      -- Every slot of the engine is the page's, so the page's count is not behind.
      have caught : session.engine.slots.length ≤ session.page.nextSlot := by
        unfold Session.apart at apart
        dsimp only at apart
        rw [going, page, Bool.false_or, Bool.false_or, all_eq_true] at apart
        rcases Nat.eq_zero_or_pos session.engine.slots.length with none | some
        · omega
        · obtain ⟨slot, member, same⟩ := mem_map.mp
            ((agreed.counted.mem _).mpr ⟨some, Nat.le_refl _⟩)
          have := ((agreed.pageMem _).mp (apart slot member)).2
          omega
      have least := agreed.next going
      have whole : session.page.nextSlot =
          session.engine.slots.length + (adds session.jobs).length := by
        rcases Nat.eq_zero_or_pos (adds session.jobs).length with none | some
        · omega
        · exact agreed.seen going (ne_nil_of_length_pos some)
      have grown : adds (session.jobs ++ [⟨0, .add (some (session.page.nextSlot + 1)) (some kind)
          (some direction) media⟩]) = adds session.jobs ++ [session.page.nextSlot + 1] :=
        adds_append _ _
      have length : (adds (session.jobs ++ [⟨0, .add (some (session.page.nextSlot + 1)) (some kind)
          (some direction) media⟩])).length = (adds session.jobs).length + 1 := by
        rw [grown, length_append, length_singleton]
      dsimp only
      refine { agreed with
        page := ?_, pageLimit := by dsimp only; omega, formed := ?_, waiting := ?_
        next := fun _ => ?_, seen := fun _ _ => ?_, cleared := fun closed => ?_ }
      · rw [map_append, agreed.page, map_singleton, List.range'_1_concat, Nat.add_comm 1]
      · intro job member add
        rcases mem_append.mp member with old | new
        · exact agreed.formed job old add
        · rw [mem_singleton.mp new]
          exact ⟨_, _, _, _, rfl⟩
      · dsimp only
        rw [length, grown, agreed.waiting, List.range'_1_concat, length_range']
        congr 2
        omega
      · dsimp only
        omega
      · dsimp only
        omega
      · dsimp only at closed
        rw [going] at closed
        cases closed

/-- The entries that are left of a snapshot, where the page has all before them. -/
theorem Agreed.bindAll {entries : Snapshot} {first : Nat}
    (rising : entries.map (·.slot) = List.range' first entries.length) (start : 0 < first)
    (before : first ≤ session.page.nextSlot + 1)
    (known : first + entries.length ≤ session.engine.slots.length + 1) :
    (session.bindAll entries).Agreed := by
  induction entries generalizing session first with
  | nil => exact agreed
  | cons entry rest ih =>
    rw [map_cons, length_cons, List.range'_succ, List.cons.injEq] at rising
    obtain ⟨here, rising⟩ := rising
    rw [length_cons] at known
    unfold Session.bindAll
    split
    · rename_i found
      have := ((agreed.pageMem _).mp found).2
      exact ih agreed rising (Nat.succ_pos _) (by omega) (by omega)
    · rename_i new
      rw [agreed.pageMem] at new
      cases taken : session.enqueue ⟨0, .bind (some entry.slot)
          { output := some entry.slot, receiver := some ⟨entry.slot, entry.kind⟩ }⟩ with
      | error error => exact agreed.shutdown
      | ok queued =>
        have kept := agreed.enqueue (by rfl) taken
        obtain ⟨going, rfl⟩ := enqueue_ok taken
        have next : max session.page.nextSlot entry.slot = session.page.nextSlot + 1 := by omega
        have number : entry.slot = session.page.nextSlot + 1 := by omega
        have least := kept.next going
        have seen := kept.seen going
        have limit := agreed.limit
        refine ih ?_ rising (Nat.succ_pos _) ?_ (by dsimp only; omega)
        · refine { kept with
            page := ?_, pageLimit := by dsimp only; omega
            next := fun _ => by dsimp only; omega
            seen := fun _ some => ?_ }
          · dsimp only
            rw [next, map_append, agreed.page, map_singleton, number,
              List.range'_1_concat, Nat.add_comm 1]
          · have := seen some
            dsimp only at this ⊢
            omega
        · dsimp only
          omega

theorem Agreed.snapshot {entries : Snapshot} {n : Nat}
    (known : n ≤ session.engine.slots.length) (listed : entries.map (·.slot) = List.range' 1 n) :
    (session.bindAll entries).Agreed := by
  have length : entries.length = n := by
    simpa only [length_map, length_range'] using congrArg List.length listed
  rw [← length] at listed known
  exact agreed.bindAll listed Nat.one_pos (by omega) (by omega)

theorem Agreed.deliver : session.deliver.Agreed := by
  unfold Session.deliver
  cases queued : session.notices with
  | nil => exact agreed
  | cons notice rest =>
    have taken : ({ session with notices := rest } : Session).Agreed :=
      { agreed with
        reported := fun other member =>
          agreed.reported other (queued ▸ mem_cons_of_mem _ member) }
    have reports := agreed.reported notice (queued ▸ mem_cons_self)
    dsimp only
    split
    · exact taken
    · cases notice with
      | reply token result =>
        dsimp only
        split
        · exact taken
        · rcases result with _ | _ | entries
          · exact { taken with }
          · exact { taken with }
          · obtain ⟨n, known, listed⟩ := reports entries rfl
            have idle : ({ session with
                notices := rest, page := { session.page with pending := none } } : Session).Agreed :=
              { taken with }
            exact idle.snapshot known listed
      | snapshot entries =>
        obtain ⟨n, known, listed⟩ := reports entries rfl
        exact taken.snapshot known listed
      | fatal error => exact taken.shutdown

end

theorem snapshot_slots (engine : Engine) :
    engine.snapshot.map (·.slot) = engine.slots.map (·.id) := by
  rw [Engine.snapshot, map_map]
  rfl

/-- The command at the head of the queue that adds a slot takes the engine's next number. -/
theorem Agreed.head (agreed : session.Agreed) {job : Job} {rest : List Job}
    (queued : session.jobs = job :: rest) (add : job.command.isAdd) :
    ∃ kind direction media, job.command =
        .add (some (session.engine.slots.length + 1)) (some kind) direction media ∧
      session.engine.slots.length < slotLimit ∧
      adds rest = List.range' (session.engine.slots.length + 2) (adds rest).length ∧
      session.closed = false ∧
      session.page.nextSlot = session.engine.slots.length + 1 + (adds rest).length := by
  obtain ⟨id, kind, direction, media, shape⟩ :=
    agreed.formed job (queued ▸ mem_cons_self) add
  have going : session.closed = false := by
    rw [← Bool.not_eq_true]
    intro closed
    rw [agreed.cleared closed] at queued
    cases queued
  have split : adds session.jobs = id :: adds rest := by
    rw [queued, adds_cons, shape]
    rfl
  have waiting := agreed.waiting
  have seen := agreed.seen going
  rw [split, length_cons, List.range'_succ, List.cons.injEq] at waiting
  rw [split, length_cons] at seen
  have next := seen (cons_ne_nil _ _)
  have limit := agreed.pageLimit
  refine ⟨kind, direction, media, ?_, by omega, waiting.2, going, by omega⟩
  rw [shape, waiting.1]

theorem Agreed.process (agreed : session.Agreed) (rtc : Str0m)
    (apart : session.apart (.process rtc)) : (session.process rtc).Agreed := by
  unfold Session.process
  cases queued : session.jobs with
  | nil => exact agreed
  | cons job rest =>
    have formed : ∀ later ∈ rest, later.command.isAdd → ∃ id kind direction media,
        later.command = .add (some id) (some kind) direction media :=
      fun later member => agreed.formed later (queued ▸ mem_cons_of_mem _ member)
    have going : session.closed = false := by
      rw [← Bool.not_eq_true]
      intro closed
      rw [agreed.cleared closed] at queued
      cases queued
    by_cases add : job.command.isAdd
    · obtain ⟨kind, direction, media, shape, room, waiting, -, next⟩ := agreed.head queued add
      obtain ⟨engine, done, counted, length⟩ :=
        Engine.add_next agreed.counted room rtc kind direction media
      dsimp only
      rw [shape, done]
      refine Agreed.reply ?_ _ fun entries some => by cases some
      exact
        { counted
          limit := by dsimp only; omega
          page := agreed.page
          pageLimit := agreed.pageLimit
          reported := fun notice member entries some => by
            obtain ⟨n, known, listed⟩ := agreed.reported notice member entries some
            exact ⟨n, by dsimp only; omega, listed⟩
          formed
          waiting := by
            dsimp only
            rw [length]
            exact waiting
          next := fun _ => by dsimp only; omega
          seen := fun _ _ => by dsimp only; omega
          cleared := fun closed => by rw [going] at closed; cases closed
          refused := agreed.refused }
    · rw [Bool.not_eq_true] at add
      have grows : Engine.Grows session.engine job.command
          (session.engine.command rtc job.command).1.slots :=
        Engine.command_grows agreed.counted agreed.limit add
      have least := grows.least
      have same : adds session.jobs = adds rest := by
        rw [queued, adds_cons, Command.added_eq_none add]
        rfl
      -- Either no slot is new, or no transceiver waits to be added.
      have clear : (session.engine.command rtc job.command).1.slots.length =
          session.engine.slots.length ∨ adds rest = [] := by
        unfold Session.apart at apart
        rw [queued] at apart
        dsimp only at apart
        rw [Bool.or_eq_true, Bool.not_eq_true'] at apart
        exact apart.imp grows.still adds_other
      have waiting := agreed.waiting
      have least' := agreed.next going
      have seen := agreed.seen going
      rw [same] at waiting least' seen
      rcases outcome : session.engine.command rtc job.command with ⟨engine, result⟩
      rw [outcome] at grows least clear
      dsimp only at grows least clear ⊢
      rw [outcome]
      dsimp only
      refine Agreed.reply ?_ _ fun entries some => ?_
      · refine
          { counted := grows.counted
            limit := grows.limit
            page := agreed.page
            pageLimit := agreed.pageLimit
            reported := fun notice member entries some => ?_
            formed
            waiting := ?_
            next := fun _ => ?_
            seen := fun _ some => ?_
            cleared := fun closed => by rw [going] at closed; cases closed
            refused := by
              dsimp only
              rw [Command.added_eq_none add, agreed.refused]
              cases result <;> rfl }
        · obtain ⟨n, known, listed⟩ := agreed.reported notice member entries some
          exact ⟨n, Nat.le_trans known least, listed⟩
        · dsimp only
          rcases clear with still | none
          · rw [still]
            exact waiting
          · rw [none]
            rfl
        · dsimp only
          omega
        · have := seen some
          rcases clear with still | none
          · dsimp only
            omega
          · exact absurd none some
      · refine ⟨engine.slots.length, Nat.le_refl _, ?_⟩
        cases result with
        | error error => cases some
        | ok value =>
          rw [Except.map, Except.ok.injEq] at some
          split at some
          · cases some
            rw [snapshot_slots]
            exact grows.counted
          · cases some

theorem Agreed.step (agreed : session.Agreed) (action : Action) (apart : session.apart action) :
    (session.step action).Agreed := by
  cases action with
  | addTransceiver kind direction media leased =>
    exact agreed.addTransceiver kind direction media leased apart
  | request command => exact agreed.request command
  | send command => exact agreed.send command
  | process rtc => exact agreed.process rtc apart
  | report =>
    refine agreed.post fun entries some => ?_
    cases some
    exact ⟨_, Nat.le_refl _, (snapshot_slots _).trans agreed.counted⟩
  | deliver => exact agreed.deliver
  | fail error => exact (agreed.post fun _ h => by cases h).close
  | shutdown => exact agreed.shutdown

theorem agreed_start : Agreed {} where
  counted := rfl
  limit := Nat.zero_le _
  page := rfl
  pageLimit := Nat.zero_le _
  reported := fun _ member => absurd member not_mem_nil
  formed := fun _ member => absurd member not_mem_nil
  waiting := rfl
  next := fun _ => Nat.zero_le _
  seen := fun _ some => absurd rfl some
  cleared := fun h => by cases h
  refused := rfl

end Preservation

/-- Every run whose steps keep additions and remote offers apart. -/
abbrev Reached : Session → Prop :=
  Reachable (· = {}) (restrict (fun session action after => session.step action = after)
    fun session action => session.apart action)

theorem Reached.agreed {session : Session} (reached : Reached session) : session.Agreed := by
  apply Reachable.invariant _ _ reached
  · rintro _ rfl
    exact agreed_start
  · rintro before action _ - agreed ⟨rfl, apart⟩
    exact agreed.step action apart

/-- No `add` was refused, the one that comes next has an id that is not in the table and
succeeds, and the page's transceivers have slots of their own. -/
theorem reached_ids_agree {session : Session} (reached : Reached session) :
    session.refused = [] ∧ (session.page.slots.map (·.slot)).Nodup ∧
      ∀ job rest, session.jobs = job :: rest → ∀ id, job.command.added = some id →
        (∀ slot ∈ session.engine.slots, slot.id ≠ id) ∧
        ∀ rtc, ∃ engine, session.engine.command rtc job.command = (engine, .ok none) := by
  have agreed := reached.agreed
  refine ⟨agreed.refused, agreed.page ▸ nodup_range', fun job rest queued id added => ?_⟩
  have add : job.command.isAdd := by
    by_contra other
    rw [Command.added_eq_none (Bool.eq_false_iff.mpr other)] at added
    cases added
  obtain ⟨kind, direction, media, shape, room, -⟩ := agreed.head queued add
  rw [shape] at added ⊢
  cases added
  constructor
  · intro slot member same
    have := ((agreed.counted.mem slot.id).mp (mem_map_of_mem member)).2
    omega
  · intro rtc
    obtain ⟨engine, done, -⟩ := Engine.add_next agreed.counted room rtc kind direction media
    exact ⟨engine, done⟩

section Samples

def offered : Action := .request (.setRemote (some (Engine.sampleAudio "r1")))

def worked : Action := .process (Engine.sampleRtc "m1")

def heard : Action := .addTransceiver .audio (text "sendrecv") {} true

/-- The page sees the remote slot, binds its receiver and adds a transceiver. -/
def awaited : List Action := [offered, worked, .deliver, worked, heard]

/-- The page adds a transceiver before the engine takes up the offer. -/
def crossed : List Action := [offered, heard, worked]

set_option maxRecDepth 20000 in
theorem reached_ids_agree_awaited :
    (awaited.foldl step {}).refused = [] ∧
      ((awaited.foldl step {}).page.slots.map (·.slot)).Nodup ∧
      ∀ job rest, (awaited.foldl step {}).jobs = job :: rest →
        ∀ id, job.command.added = some id →
          (∀ slot ∈ (awaited.foldl step {}).engine.slots, slot.id ≠ id) ∧
          ∀ rtc, ∃ engine,
            (awaited.foldl step {}).engine.command rtc job.command = (engine, .ok none) :=
  have run : Reached (awaited.foldl step {}) :=
    Reachable.run_meeting awaited (.start rfl) (by decide)
  reached_ids_agree run

set_option maxRecDepth 20000 in
/-- The remote slot has taken the number of the `add` that waits, and the peer ends. -/
theorem not_ids_agree_crossed :
    ∃ session : Session,
      Reachable (· = {}) (fun session action after => session.step action = after) session ∧
      session.jobs.map (·.command.added) = [some 1] ∧ session.engine.slots.map (·.id) = [1] ∧
      (session.step worked).refused = [1] ∧ (session.step worked).closed = true :=
  ⟨_, Reachable.run crossed (.start rfl), by decide, by decide,
    by decide, by decide⟩

end Samples

end Session
end Chuzz.Webrtc
