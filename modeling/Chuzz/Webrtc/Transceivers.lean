import Chuzz.Webrtc.Signaling

/-! The page's transceivers and the engine's slots. Commands go to the engine in one queue,
replies and snapshots come back in another, and each side numbers new slots from the table
that it has. -/
namespace Chuzz.Webrtc
open Library Library.Transition List

/-- A transceiver of the page, or the entry of a slot in a snapshot. -/
structure Transceiver where
  slot : Nat
  kind : Kind
deriving DecidableEq, Repr

abbrev Snapshot := List Transceiver

/-- The page's side of a connection. `pending` is the token of the operation under way:
operations wait for each other. -/
structure Page where
  slots : List Transceiver := []
  nextSlot : Nat := 0
  nextToken : Nat := 0
  pending : Option Nat := none
  closed : Bool := false
deriving DecidableEq, Repr

/-- A command without a reply has token 0. -/
structure Job where
  token : Nat
  command : Command

inductive Notice where
  | reply (token : Nat) (result : Except String (Option Snapshot))
  | snapshot (entries : Snapshot)
  | fatal (error : String)

/-- A page, its engine and the two queues; `refused` is the history of the ids whose `add`
the engine refused. -/
structure Session where
  page : Page := {}
  jobs : List Job := []
  engine : Engine := {}
  notices : List Notice := []
  closed : Bool := false
  refused : List Nat := []

def commandLimit : Nat := 64

/-- The id that a command adds a transceiver under. -/
def Command.added : Command → Option Nat
  | .add id _ _ _ => id
  | _ => none

def Command.isAdd : Command → Bool
  | .add _ _ _ _ => true
  | _ => false

/-- The commands that are answered with a snapshot. -/
def Command.reports : Command → Bool
  | .setLocal _ | .setRemote _ => true
  | _ => false

def Engine.snapshot (engine : Engine) : Snapshot :=
  engine.slots.map fun slot => { slot := slot.id, kind := slot.kind }

/-- Calls of the page's script, and steps of the engine and of the page's event loop. -/
inductive Action where
  /-- `leased` is whether the host lets the page have the tracks that the call names. -/
  | addTransceiver (kind : Kind) (direction : Text) (media : Media) (leased : Bool)
  /-- An operation with a reply. -/
  | request (command : Command)
  /-- A command without one, such as a change of direction. -/
  | send (command : Command)
  | process (rtc : Str0m)
  /-- A snapshot of the engine's own, as `setLocal` posts before its reply. -/
  | report
  | deliver
  | fail (error : String)
  | shutdown

namespace Session

def enqueue (session : Session) (job : Job) : Except String Session :=
  if session.closed then throw "InvalidStateError: peer is closed"
  else if session.jobs.length = commandLimit then
    throw "OperationError: peer operation queue is full"
  else .ok { session with jobs := session.jobs ++ [job] }

def post (session : Session) (notice : Notice) : Session :=
  if session.closed then session else { session with notices := session.notices ++ [notice] }

def close (session : Session) : Session := { session with closed := true, jobs := [] }

/-- A command without a reply must not fail: the peer ends if it does. -/
def reply (session : Session) (token : Nat) (result : Except String (Option Snapshot)) :
    Session :=
  if token = 0 then
    match result with
    | .error error => (session.post (.fatal error)).close
    | .ok _ => session
  else session.post (.reply token result)

/-- The page's own end of a connection. -/
def shutdown (session : Session) : Session :=
  if session.page.closed then session
  else { session.close with page := { session.page with closed := true, pending := none } }

def addTransceiver (session : Session) (kind : Kind) (direction : Text) (media : Media)
    (leased : Bool) : Session :=
  if session.page.closed ∨ session.page.slots.length ≥ slotLimit ∨ leased = false then session
  else
    let slot := session.page.nextSlot + 1
    match session.enqueue ⟨0, .add (some slot) (some kind) (some direction) media⟩ with
    | .error _ => session
    | .ok queued => { queued with page := { session.page with
        nextSlot := slot, slots := session.page.slots ++ [{ slot, kind }] } }

def request (session : Session) (command : Command) : Session :=
  if session.page.closed ∨ session.page.pending.isSome ∨ command.isAdd then session
  else
    let token := session.page.nextToken + 1
    match session.enqueue ⟨token, command⟩ with
    | .error _ => { session with page := { session.page with nextToken := token } }
    | .ok queued =>
      { queued with page := { session.page with nextToken := token, pending := some token } }

def send (session : Session) (command : Command) : Session :=
  if session.page.closed ∨ command.isAdd then session
  else match session.enqueue ⟨0, command⟩ with
    | .error _ => session
    | .ok queued => queued

/-- The engine's turn. -/
def process (session : Session) (rtc : Str0m) : Session :=
  match session.jobs with
  | [] => session
  | job :: rest =>
    let (engine, result) := session.engine.command rtc job.command
    let refused := match result with
      | .error _ => session.refused ++ job.command.added.toList
      | .ok _ => session.refused
    { session with engine, jobs := rest, refused }.reply job.token
      (result.map fun _ => if job.command.reports then some engine.snapshot else none)

/-- The entries of a snapshot without a transceiver get one, whose receiver goes by the
number of the slot here. -/
def bindAll : Snapshot → Session → Session
  | [], session => session
  | entry :: rest, session =>
    if session.page.slots.any (·.slot = entry.slot) then bindAll rest session
    else
      match session.enqueue ⟨0, .bind (some entry.slot)
          { output := some entry.slot, receiver := some ⟨entry.slot, entry.kind⟩ }⟩ with
      | .error _ => session.shutdown
      | .ok queued => bindAll rest { queued with page := { session.page with
          slots := session.page.slots ++ [entry]
          nextSlot := max session.page.nextSlot entry.slot } }

/-- The page's event loop takes the next notice. -/
def deliver (session : Session) : Session :=
  match session.notices with
  | [] => session
  | notice :: rest =>
    let session := { session with notices := rest }
    if session.page.closed then session
    else match notice with
      | .reply token result =>
        if session.page.pending ≠ some token then session
        else
          let session := { session with page := { session.page with pending := none } }
          match result with
          | .ok (some entries) => session.bindAll entries
          | _ => session
      | .snapshot entries => session.bindAll entries
      | .fatal _ => session.shutdown

def step (session : Session) : Action → Session
  | .addTransceiver kind direction media leased =>
    session.addTransceiver kind direction media leased
  | .request command => session.request command
  | .send command => session.send command
  | .process rtc => session.process rtc
  | .report => session.post (.snapshot session.engine.snapshot)
  | .deliver => session.deliver
  | .fail error => (session.post (.fatal error)).close
  | .shutdown => session.shutdown

end Session

/-- The command is a remote offer that is taken up now and has a section without a slot. -/
def Engine.brings (engine : Engine) : Command → Bool
  | .setRemote (some value) =>
    value.type = text "offer" && engine.signaling = .stable &&
      match sections value with
      | .error _ => false
      | .ok parts => match Engine.assign engine.slots parts [] with
        | .error _ => false
        | .ok assigned => Engine.numbered engine.slots assigned ≠ []
  | _ => false

/-- No transceiver is added while a remote offer that brings slots is in flight: none waits
behind it in the queue, and none is added before the page has seen every slot. -/
def Session.apart (session : Session) : Action → Bool
  | .addTransceiver _ _ _ _ => session.closed || session.page.closed ||
      session.engine.slots.all fun slot => session.page.slots.any (·.slot = slot.id)
  | .process _ => match session.jobs with
    | [] => true
    | job :: rest => !session.engine.brings job.command || rest.all (!·.command.isAdd)
  | _ => true

namespace Engine

/-- The ids are the numbers from one on, in the order of the slots. -/
def Counted (slots : List Slot) : Prop := slots.map (·.id) = List.range' 1 slots.length

theorem Counted.mem {slots : List Slot} (counted : Counted slots) (id : Nat) :
    id ∈ slots.map (·.id) ↔ 0 < id ∧ id ≤ slots.length := by
  rw [counted, mem_range'_1]
  omega

theorem Counted.of_ids {before after : List Slot} (counted : Counted before)
    (same : after.map (·.id) = before.map (·.id)) :
    Counted after ∧ after.length = before.length := by
  have length : after.length = before.length := by
    simpa only [length_map] using congrArg List.length same
  exact ⟨by rw [Counted, same, counted, length], length⟩

section Numbering
variable {slots : List Slot}

theorem any_id (slots : List Slot) (id : Nat) :
    slots.any (·.id = id) = true ↔ id ∈ slots.map (·.id) := by
  simp [any_eq_true, mem_map]

variable {assigned : List (Section × Nat)}

theorem numbered_congr {slots' : List Slot}
    (agree : ∀ item ∈ assigned, item.2 ∈ slots.map (·.id) ↔ item.2 ∈ slots'.map (·.id)) :
    numbered slots assigned = numbered slots' assigned := by
  refine filter_congr fun item member => ?_
  rw [Bool.eq_iff_iff, Bool.not_eq_true', Bool.not_eq_true', ← Bool.not_eq_true,
    ← Bool.not_eq_true, any_id, any_id, agree item member]

theorem numbered_cons (slots : List Slot) (item : Section × Nat)
    (rest : List (Section × Nat)) :
    numbered slots (item :: rest) =
      if item.2 ∈ slots.map (·.id) then numbered slots rest
      else item :: numbered slots rest := by
  rw [numbered, filter_cons]
  by_cases known : item.2 ∈ slots.map (·.id)
  · rw [if_pos known, (any_id slots item.2).mpr known]
    rfl
  · rw [if_neg known, Bool.eq_false_iff.mpr (mt (any_id slots item.2).mp known)]
    rfl

theorem numbered_snoc {earlier : List (Section × Nat)} {part : Section} {id : Nat}
    (outside : id ∉ slots.map (·.id)) :
    numbered slots (earlier ++ [(part, id)]) = numbered slots earlier ++ [(part, id)] := by
  have one : numbered slots [(part, id)] = [(part, id)] := by
    rw [numbered_cons, if_neg outside]
    rfl
  calc numbered slots (earlier ++ [(part, id)])
      = numbered slots earlier ++ numbered slots [(part, id)] := filter_append _ _
    _ = numbered slots earlier ++ [(part, id)] := by rw [one]

/-- The numbers without a slot are given slots at the end, in their order. -/
theorem occupyAll_ids (distinct : (assigned.map (·.2)).Nodup) :
    (assigned.foldl occupy slots).map (·.id) =
      slots.map (·.id) ++ (numbered slots assigned).map (·.2) := by
  induction assigned generalizing slots with
  | nil => rw [numbered, filter_nil, map_nil, append_nil]; rfl
  | cons item rest ih =>
    rw [map_cons, nodup_cons] at distinct
    have other : ∀ later ∈ rest, later.2 ≠ item.2 :=
      fun later member same => distinct.1 (same ▸ mem_map_of_mem member)
    have grown := occupy_ids slots item
    rw [foldl_cons, ih distinct.2, numbered_cons]
    by_cases known : item.2 ∈ slots.map (·.id)
    · rw [if_pos known] at grown ⊢
      have same : numbered (occupy slots item) rest = numbered slots rest :=
        numbered_congr fun later _ => by rw [grown]
      rw [grown, same]
    · rw [if_neg known] at grown ⊢
      have same : numbered (occupy slots item) rest = numbered slots rest := by
        refine numbered_congr fun later member => ?_
        rw [grown, mem_append, mem_singleton, or_iff_left (other later member)]
      rw [grown, same, map_cons, append_assoc, singleton_append]

theorem assign_numbers {parts : List Section} {earlier assigned : List (Section × Nat)}
    (counted : Counted slots) (success : assign slots parts earlier = .ok assigned)
    (distinct : (earlier.map (·.2)).Nodup)
    (bounded : ∀ item ∈ earlier, item.2 ≤ slotLimit)
    (numbers : (numbered slots earlier).map (·.2) =
      List.range' (slots.length + 1) (numbered slots earlier).length) :
    (assigned.map (·.2)).Nodup ∧ (∀ item ∈ assigned, item.2 ≤ slotLimit) ∧
      (numbered slots assigned).map (·.2) =
        List.range' (slots.length + 1) (numbered slots assigned).length := by
  induction parts generalizing earlier with
  | nil =>
    cases success
    exact ⟨distinct, bounded, numbers⟩
  | cons part rest ih =>
    obtain ⟨refused, success⟩ := Fallible.guard_ok success
    rw [not_or, gt_iff_lt, Nat.not_lt] at refused
    have snoc : ∀ id, id ≤ slotLimit → id ∉ earlier.map (·.2) →
        ((earlier ++ [(part, id)]).map (·.2)).Nodup ∧
          ∀ item ∈ earlier ++ [(part, id)], item.2 ≤ slotLimit := by
      intro id small unused
      constructor
      · rw [map_append, map_singleton, nodup_append]
        refine ⟨distinct, nodup_singleton _, ?_⟩
        rintro one member other here rfl
        rw [mem_singleton.mp here] at member
        exact unused member
      · intro item member
        rcases mem_append.mp member with old | new
        · exact bounded item old
        · rw [mem_singleton.mp new]
          exact small
    obtain ⟨distinct, bounded⟩ := snoc _ refused.1 refused.2
    refine ih success distinct bounded ?_
    cases found : matching slots (earlier.map (·.2)) part with
    | some slot =>
      rw [numbered_own (matching_eq_some found).1 rfl]
      exact numbers
    | none =>
      have outside : slots.length + (numbered slots earlier).length + 1 ∉ slots.map (·.id) := by
        rw [counted.mem]
        omega
      change (numbered slots (earlier ++
            [(part, slots.length + (numbered slots earlier).length + 1)])).map (·.2) =
          List.range' (slots.length + 1) (numbered slots (earlier ++
            [(part, slots.length + (numbered slots earlier).length + 1)])).length
      rw [numbered_snoc outside, map_append, numbers, map_singleton, length_append,
        length_singleton, List.range'_1_concat, Nat.add_right_comm]

theorem occupied_counted {parts : List Section}
    (counted : Counted slots) (limit : slots.length ≤ slotLimit)
    (success : assign slots parts [] = .ok assigned) :
    Counted (assigned.foldl occupy slots) ∧
      (assigned.foldl occupy slots).length = slots.length + (numbered slots assigned).length ∧
      (assigned.foldl occupy slots).length ≤ slotLimit := by
  obtain ⟨distinct, bounded, numbers⟩ := assign_numbers counted success nodup_nil
    (fun _ member => absurd member not_mem_nil) rfl
  have ids : (assigned.foldl occupy slots).map (·.id) =
      slots.map (·.id) ++ (numbered slots assigned).map (·.2) := occupyAll_ids distinct
  have length : (assigned.foldl occupy slots).length =
      slots.length + (numbered slots assigned).length := by
    simpa only [length_map, length_append] using congrArg List.length ids
  refine ⟨?_, length, ?_⟩
  · rw [Counted, ids, counted, numbers, length, Nat.add_comm slots.length 1, List.range'_append_1]
  · rcases Nat.eq_zero_or_pos (numbered slots assigned).length with none | some
    · omega
    · have last : slots.length + (numbered slots assigned).length ∈
          (numbered slots assigned).map (·.2) := by
        rw [numbers, mem_range'_1]
        omega
      obtain ⟨item, member, same⟩ := mem_map.mp last
      have := bounded item (mem_filter.mp member).1
      omega

end Numbering
section Commands
variable {engine : Engine} {rtc : Str0m}

/-- What a command leaves of a counted table, and what it may add to it. -/
structure Grows (engine : Engine) (command : Command) (after : List Slot) : Prop where
  counted : Counted after
  limit : after.length ≤ slotLimit
  least : engine.slots.length ≤ after.length
  still : engine.brings command = false → after.length = engine.slots.length

section
variable {command : Command} {after : List Slot} (counted : Counted engine.slots)
  (limit : engine.slots.length ≤ slotLimit)
include counted limit

theorem Grows.of_ids (same : after.map (·.id) = engine.slots.map (·.id)) : Grows engine command after := by
  obtain ⟨counted, length⟩ := counted.of_ids same
  exact ⟨counted, length ▸ limit, length ▸ Nat.le_refl _, fun _ => length⟩

theorem Grows.of_same (same : SameSlots engine.slots after) : Grows engine command after :=
  .of_ids counted limit same.ids

end

theorem setRemote_grows (counted : Counted engine.slots) (limit : engine.slots.length ≤ slotLimit)
    (value : Description) :
    Grows engine (.setRemote (some value)) (engine.setRemote rtc value).1.slots := by
  unfold setRemote
  split
  · rename_i offered
    unfold setRemoteOffer
    dsimp only
    split
    · exact .of_ids counted limit rfl
    · rename_i checked
      obtain ⟨parts, passed, checked⟩ := Fallible.bind_ok checked
      obtain ⟨assigned, assignment, checked⟩ := Fallible.bind_ok checked
      obtain ⟨_, _, checked⟩ := Fallible.bind_ok checked
      obtain ⟨_, _, checked⟩ := Fallible.bind_ok checked
      cases checked
      obtain ⟨grown, length, bounded⟩ := occupied_counted counted limit assignment
      refine ⟨grown, bounded, length ▸ Nat.le_add_right _ _, fun brings => ?_⟩
      rw [Engine.brings, decide_eq_true offered.1, decide_eq_true offered.2,
        preflight_ok passed] at brings
      simp only [Bool.true_and, assignment, ne_eq, decide_not, Bool.not_eq_false',
        decide_eq_true_eq] at brings
      rw [length, brings]
      rfl
  · split
    · exact .of_same counted limit (setRemoteAnswer_same _ _ _)
    · exact .of_ids counted limit rfl

theorem offer_ids (engine : Engine) (rtc : Str0m) :
    (engine.offer rtc).1.slots.map (·.id) = engine.slots.map (·.id) := by
  have requested := requestMedia_ids rtc engine.slots
  unfold offer
  split
  · rfl
  · split
    · rfl
    · dsimp only
      split
      · exact requested
      · split <;> exact requested

theorem command_grows (counted : Counted engine.slots) (limit : engine.slots.length ≤ slotLimit)
    {command : Command} (other : command.isAdd = false) :
    Grows engine command (engine.command rtc command).1.slots := by
  cases command with
  | add => cases other
  | bind => exact .of_same counted limit (changeSlot_same _ _ _ fun _ => rfl)
  | direction id direction =>
    cases direction with
    | none => exact .of_ids counted limit rfl
    | some direction => exact .of_same counted limit (changeSlot_same _ _ _ fun _ => rfl)
  | replace => exact .of_same counted limit (changeSlot_same _ _ _ fun _ => rfl)
  | active id active =>
    cases active with
    | none => exact .of_ids counted limit rfl
    | some active => exact .of_same counted limit (changeSlot_same _ _ _ fun _ => rfl)
  | parameters => exact .of_same counted limit (changeSlot_same _ _ _ fun _ => rfl)
  | preferences => exact .of_same counted limit (changePreferences_same _ _ _)
  | createOffer => exact .of_ids counted limit (offer_ids engine rtc)
  | createAnswer => exact .of_ids counted limit (congrArg _ (answer_slots engine rtc))
  | setLocal value =>
    cases value with
    | none => exact .of_ids counted limit rfl
    | some value => exact .of_same counted limit (setLocal_same _ _)
  | setRemote value =>
    cases value with
    | none => exact .of_ids counted limit rfl
    | some value => exact setRemote_grows counted limit value
  | restart => exact .of_ids counted limit rfl
  | candidate => exact .of_ids counted limit rfl

/-- The number after the last one is free, and adding under it succeeds. -/
theorem add_next (counted : Counted engine.slots) (room : engine.slots.length < slotLimit)
    (rtc : Str0m) (kind : Kind) (direction : Option Text) (media : Media) :
    ∃ after, engine.command rtc (.add (some (engine.slots.length + 1)) (some kind) direction media) =
        (after, .ok none) ∧
      Counted after.slots ∧ after.slots.length = engine.slots.length + 1 := by
  have free : ¬ (engine.slots.any (·.id = engine.slots.length + 1) ∨
      engine.slots.length ≥ slotLimit) := by
    rw [any_id, counted.mem]
    omega
  have numbered : slotId (some (engine.slots.length + 1)) = .ok (engine.slots.length + 1) := by
    have range : 0 < engine.slots.length + 1 ∧ engine.slots.length + 1 ≤ slotLimit := by omega
    rw [slotId, Option.filter_some, if_pos (decide_eq_true range)]
  have added : ∀ slot : Nat → Kind → Slot,
      engine.add (some (engine.slots.length + 1)) (some kind) slot =
        ({ engine with slots := engine.slots ++ [slot (engine.slots.length + 1) kind] },
          .ok ()) := by
    intro slot
    unfold add
    rw [numbered]
    simp only [bind, Except.bind, if_neg free, pure, Except.pure]
  refine ⟨_, congrArg silent (added _), ?_, ?_⟩
  · rw [Counted, map_append, counted, length_append, length_singleton,
      List.range'_1_concat, Nat.add_comm 1]
    rfl
  · rw [length_append]
    rfl

end Commands
end Engine
end Chuzz.Webrtc
