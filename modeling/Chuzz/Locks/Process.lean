import Chuzz.Library.FairQueue
import Chuzz.Library.Transition

/-! The leases of the process, which the realms share. Realms and channels draw their
numbers from the same counter as leases; it is 64 bits wide and never reaches its end. -/
namespace Chuzz.Locks
open Library Library.FairQueue Library.Transition List Bool

structure Realm where
  id : Nat
  origin : String
deriving DecidableEq, Repr

structure Lease where
  id : Nat
  owner : Nat
  origin : String
  name : String
  shared : Bool
  held : Bool := false
deriving DecidableEq, Repr

structure Process where
  leases : List Lease := []
  nextId : Nat := 1
deriving DecidableEq, Repr

namespace Process

/-- Whether another lease of the list is in the way of the one at the index. -/
def blocked (leases : List Lease) (index : Nat) (candidate : Lease) : Bool :=
  leases.zipIdx.any fun (other, otherIndex) =>
    otherIndex ≠ index && other.origin = candidate.origin && other.name = candidate.name &&
      (!other.held && otherIndex < index || other.held && (!other.shared || !candidate.shared))

/-- The body of the loop of `grant`. -/
def grantAt (leases : List Lease) (index : Nat) : List Lease :=
  match leases[index]? with
  | none => leases
  | some candidate =>
    if candidate.held || blocked leases index candidate then leases
    else leases.set index { candidate with held := true }

def grant (process : Process) : Process :=
  { process with leases := (List.range process.leases.length).foldl grantAt process.leases }

/-- `LockRequest`: null where the request is only for an available lock. -/
def request (process : Process) (realm : Realm) (name : String) (shared available : Bool) :
    Process × Option Nat :=
  let blocked := process.leases.any fun lease =>
    lease.origin = realm.origin && lease.name = name && (!lease.held || !shared || !lease.shared)
  if available && blocked then (process, none)
  else
    let lease :=
      { id := process.nextId, owner := realm.id, origin := realm.origin, name, shared }
    (grant { leases := process.leases ++ [lease], nextId := process.nextId + 1 },
      some process.nextId)

/-- `LockStatus` -/
def status (process : Process) (realm : Realm) (id : Nat) : Bool :=
  process.leases.any fun lease => lease.id = id && lease.owner = realm.id && lease.held

/-- `LockRelease` -/
def release (process : Process) (realm : Realm) (id : Nat) : Process :=
  grant { process with
    leases := process.leases.filter fun lease => lease.id ≠ id || lease.owner ≠ realm.id }

/-- The part of `Realm::drop` that is about leases. -/
def drop (process : Process) (realm : Realm) : Process :=
  grant { process with leases := process.leases.filter (·.owner ≠ realm.id) }

/-- A number for a new realm or channel. -/
def draw (process : Process) : Process := { process with nextId := process.nextId + 1 }

end Process

inductive Operation where
  | request (name : String) (shared available : Bool)
  | status (id : Nat)
  | release (id : Nat)
  | drop
  | draw
deriving DecidableEq, Repr

def Process.perform (process : Process) : Realm × Operation → Process
  | (realm, .request name shared available) => (process.request realm name shared available).1
  | (_, .status _) => process
  | (realm, .release id) => process.release realm id
  | (realm, .drop) => process.drop realm
  | (_, .draw) => process.draw

/-- The processes that operations of any realms reach. -/
def Process.Reached : Process → Prop :=
  Reachable (· = {}) fun before input after => before.perform input = after

namespace Lease

def sameLock (a b : Lease) : Bool := a.origin = b.origin && a.name = b.name

/-- Leases of one origin and name wait for each other, in the order of the list. -/
def rules : Rules Lease where
  held := Lease.held
  grant lease := { lease with held := true }
  contends := sameLock
  excludes a b := sameLock a b && (!a.shared || !b.shared)
  held_grant _ := rfl
  contends_grant _ _ := ⟨rfl, rfl⟩
  excludes_grant _ _ := ⟨rfl, rfl⟩
  excludes_symm a b := by
    simp only [sameLock, eq_comm, Bool.or_comm]

/-- The same lease, which may have been granted meanwhile. -/
structure Becomes (before after : Lease) : Prop where
  id : before.id = after.id
  owner : before.owner = after.owner
  origin : before.origin = after.origin
  name : before.name = after.name
  held : before.held → after.held

theorem Becomes.refl (lease : Lease) : lease.Becomes lease := ⟨rfl, rfl, rfl, rfl, fun held => held⟩

theorem sameLock_symm (a b : Lease) : sameLock a b = sameLock b a := by
  simp only [sameLock, eq_comm]

end Lease

namespace Process
open Lease
variable {process : Process} {leases before rest : List Lease} {lease : Lease} {realm : Realm}

theorem any_zipIdx {α : Type} {items : List α} {start : Nat} {test : α × Nat → Bool}
    {plain : α → Bool}
    (same : ∀ item index, start ≤ index → index < start + items.length →
      test (item, index) = plain item) : (items.zipIdx start).any test = items.any plain := by
  induction items generalizing start with
  | nil => rfl
  | cons item rest ih =>
    rw [zipIdx_cons, any_cons, any_cons, same item start (Nat.le_refl _) (by simp)]
    congr 1
    apply ih
    intro item index low high
    rw [length_cons] at same
    exact same item index (by omega) (by omega)

theorem blocked_eq : blocked (before ++ lease :: rest) before.length lease =
    rules.blocked before lease rest := by
  have front : before.zipIdx.any (fun (other, index) => index ≠ before.length &&
      other.origin = lease.origin && other.name = lease.name &&
      (!other.held && index < before.length || other.held && (!other.shared || !lease.shared))) =
      before.any fun other => rules.contends other lease && !rules.held other ||
        rules.held other && rules.excludes other lease := by
    apply any_zipIdx
    intro other index _ below
    have inside : index < before.length := by omega
    have apart : index ≠ before.length := by omega
    simp only [rules, sameLock, inside, apart, ne_eq, not_false_eq_true, decide_true, Bool.and_true,
      Bool.true_and]
    cases other.held <;> simp
  have back : (rest.zipIdx (before.length + 1)).any (fun (other, index) => index ≠ before.length &&
      other.origin = lease.origin && other.name = lease.name &&
      (!other.held && index < before.length || other.held && (!other.shared || !lease.shared))) =
      rest.any fun other => rules.held other && rules.excludes other lease := by
    apply any_zipIdx
    intro other index above _
    have outside : ¬ index < before.length := by omega
    have apart : index ≠ before.length := by omega
    simp only [rules, sameLock, outside, apart, ne_eq, not_false_eq_true, decide_true,
      decide_false, Bool.and_false, Bool.false_or, Bool.true_and]
    cases other.held <;> simp
  rw [blocked, zipIdx_append, any_append, zipIdx_cons, any_cons, Nat.zero_add,
    front, back]
  simp [Rules.blocked]

theorem foldl_grantAt (before rest : List Lease) :
    (List.range' before.length rest.length).foldl grantAt (before ++ rest) =
      rules.sweep before rest := by
  induction rest generalizing before with
  | nil => simp [Rules.sweep]
  | cons lease rest ih =>
    have step : grantAt (before ++ lease :: rest) before.length =
        if rules.held lease || rules.blocked before lease rest then before ++ [lease] ++ rest
        else before ++ [rules.grant lease] ++ rest := by
      simp [grantAt, blocked_eq, rules]
    have further : ∀ passed : Lease, (List.range' (before.length + 1) rest.length).foldl grantAt
        (before ++ [passed] ++ rest) = rules.sweep (before ++ [passed]) rest := by
      intro passed
      simpa using ih (before ++ [passed])
    rw [length_cons, List.range'_succ, foldl_cons, step, Rules.sweep]
    split
    · exact further lease
    · exact further (rules.grant lease)

theorem grant_leases : process.grant.leases = rules.sweep [] process.leases := by
  rw [grant, range_eq_range']
  exact foldl_grantAt [] process.leases

@[simp] theorem grant_nextId : process.grant.nextId = process.nextId := rfl

/-- What holds of the list after every operation. -/
structure Sound (process : Process) : Prop where
  exclusive : rules.Exclusive process.leases
  fair : rules.Fair process.leases
  settled : rules.Settled process.leases
  ordered : process.leases.Pairwise (·.id < ·.id)
  below : ∀ lease ∈ process.leases, lease.id < process.nextId

theorem grant_sound (exclusive : rules.Exclusive process.leases) (fair : rules.Fair process.leases)
    (ordered : process.leases.Pairwise (·.id < ·.id))
    (below : ∀ lease ∈ process.leases, lease.id < process.nextId) : process.grant.Sound := by
  have ids : process.grant.leases.map (·.id) = process.leases.map (·.id) := by
    rw [grant_leases, Rules.sweep_map (fun _ => rfl), nil_append]
  constructor
  · rw [grant_leases]
    exact Rules.sweep_exclusive exclusive
  · rw [grant_leases]
    exact Rules.sweep_fair fair
  · rw [grant_leases]
    exact Rules.sweep_settled _
  · have sorted := pairwise_map.mpr ordered
    rw [← ids] at sorted
    exact pairwise_map.mp sorted
  · intro lease member
    have known := mem_map_of_mem (f := (·.id)) member
    rw [ids] at known
    obtain ⟨old, there, same⟩ := mem_map.mp known
    rw [← same]
    exact below old there

theorem Sound.leave (sound : process.Sound) {leases : List Lease}
    (fewer : leases.Sublist process.leases) : (grant { process with leases }).Sound := by
  apply grant_sound
  · exact sound.exclusive.sublist fewer
  · exact sound.fair.sublist fewer
  · exact sound.ordered.sublist fewer
  · exact fun lease member => sound.below lease (fewer.mem member)

theorem Sound.request (sound : process.Sound) (realm : Realm) (name : String)
    (shared available : Bool) : (process.request realm name shared available).1.Sound := by
  rw [Process.request]
  dsimp only
  split
  · exact sound
  · apply grant_sound
    · exact sound.exclusive.arrive rfl
    · exact sound.fair.arrive rfl
    · apply pairwise_append.mpr
      refine ⟨sound.ordered, pairwise_singleton _ _, fun lease there new member => ?_⟩
      rw [mem_singleton.mp member]
      exact sound.below lease there
    · intro lease member
      rcases mem_append.mp member with there | new
      · exact Nat.lt_succ_of_lt (sound.below lease there)
      · rw [mem_singleton.mp new]
        exact Nat.lt_succ_self _

theorem Sound.perform (sound : process.Sound) (input : Realm × Operation) :
    (process.perform input).Sound := by
  obtain ⟨realm, operation⟩ := input
  cases operation with
  | request name shared available => exact sound.request realm name shared available
  | status id => exact sound
  | release id => exact sound.leave filter_sublist
  | drop => exact sound.leave filter_sublist
  | draw =>
    exact { sound with below := fun lease member => Nat.lt_succ_of_lt (sound.below lease member) }

theorem start_sound : ({} : Process).Sound where
  exclusive := List.Pairwise.nil
  fair := List.Pairwise.nil
  settled before lease after divided := by simp at divided
  ordered := List.Pairwise.nil
  below := by simp

theorem reached_sound (run : process.Reached) : process.Sound := by
  apply Reachable.invariant _ _ run
  · rintro _ rfl
    exact start_sound
  · rintro before input _ _ sound rfl
    exact sound.perform input

/-- A request is answered null exactly when its lease would have had to wait. -/
theorem Sound.available (sound : process.Sound) (realm : Realm) (name : String) (shared : Bool) :
    (process.request realm name shared true).2 = none ↔
      (process.request realm name shared false).1.status realm process.nextId = false := by
  let lease : Lease :=
    { id := process.nextId, owner := realm.id, origin := realm.origin, name, shared }
  have stops : rules.blocked process.leases lease [] = process.leases.any fun other =>
      other.origin = realm.origin && other.name = name &&
        (!other.held || !shared || !other.shared) := by
    rw [Rules.blocked, List.any_nil, Bool.or_false]
    congr 1
    funext other
    simp only [rules, sameLock, lease]
    cases other.held <;> simp [Bool.or_comm]
  have arrived : (process.request realm name shared false).1.leases = process.leases ++
      [if rules.blocked process.leases lease [] then lease else rules.grant lease] := by
    rw [Process.request, Bool.false_and, if_neg Bool.false_ne_true, grant_leases]
    exact sound.settled.arrive rfl
  have others : (process.leases.any fun other =>
      other.id = process.nextId && other.owner = realm.id && other.held) = false := by
    rw [List.any_eq_false]
    intro other there
    have below := sound.below other there
    have apart : other.id ≠ process.nextId := by omega
    simp [apart]
  rw [Process.status, arrived, List.any_append, others, Bool.false_or, stops, Process.request,
    Bool.true_and]
  cases (process.leases.any fun other => other.origin = realm.origin && other.name = name &&
    (!other.held || !shared || !other.shared)) <;> simp [lease, rules]

/-- The leases that are held after an operation and were not before. -/
def newlyHeld (before after : Process) : List Lease :=
  after.leases.filter fun lease =>
    lease.held && !before.leases.any fun old => old.id = lease.id && old.held

/-- The leases granted so far, in the order in which they were. -/
def Granting (process : Process) (granted : List Lease) : Prop :=
  Reachable (fun start => start.1 = {} ∧ start.2 = [])
    (observe (fun before input after => before.perform input = after)
      fun granted before _ after => granted ++ newlyHeld before after) (process, granted)

theorem Granting.start : Granting {} [] := Reachable.start ⟨rfl, rfl⟩

variable {granted : List Lease}

theorem Granting.perform (run : process.Granting granted)
    (input : Realm × Operation) : (process.perform input).Granting
      (granted ++ newlyHeld process (process.perform input)) :=
  Reachable.next run (l := input) ⟨rfl, rfl⟩

def InOrder (granted : List Lease) : Prop :=
  granted.Pairwise fun a b => sameLock a b → a.id < b.id

variable {input : Realm × Operation}

theorem perform_lease (member : lease ∈ (process.perform input).leases) :
    (∃ old ∈ process.leases, old.Becomes lease) ∨ process.nextId ≤ lease.id := by
  have pass : ∀ {leases : List Lease} {next : Nat},
      lease ∈ (Process.grant { leases, nextId := next }).leases →
      ∃ old ∈ leases, old.Becomes lease := by
    intro leases next member
    rw [grant_leases] at member
    rcases Rules.mem_sweep member with there | ⟨old, there, _, rfl⟩
    · exact ⟨lease, there, .refl lease⟩
    · exact ⟨old, there, rfl, rfl, rfl, rfl, fun _ => rfl⟩
  obtain ⟨realm, operation⟩ := input
  cases operation with
  | request name shared available =>
    rw [Process.perform, Process.request] at member
    dsimp only at member
    split at member
    · exact .inl ⟨lease, member, .refl lease⟩
    · obtain ⟨old, there, same⟩ := pass member
      rcases mem_append.mp there with there | new
      · exact .inl ⟨old, there, same⟩
      · rw [mem_singleton.mp new] at same
        exact .inr (Nat.le_of_eq same.id)
  | status id => exact .inl ⟨lease, member, .refl lease⟩
  | release id =>
    obtain ⟨old, there, same⟩ := pass member
    exact .inl ⟨old, mem_of_mem_filter there, same⟩
  | drop =>
    obtain ⟨old, there, same⟩ := pass member
    exact .inl ⟨old, mem_of_mem_filter there, same⟩
  | draw => exact .inl ⟨lease, member, .refl lease⟩

theorem perform_nextId (process : Process) (input : Realm × Operation) :
    process.nextId ≤ (process.perform input).nextId := by
  obtain ⟨realm, operation⟩ := input
  cases operation with
  | request name shared available =>
    rw [Process.perform, Process.request]
    dsimp only
    split
    · exact Nat.le_refl _
    · exact Nat.le_succ _
  | draw => exact Nat.le_succ _
  | status | release | drop => exact Nat.le_refl _

/-- What was granted came before whatever waits for the same lock. -/
structure Logged (process : Process) (granted : List Lease) : Prop where
  sound : process.Sound
  inOrder : InOrder granted
  below : ∀ earlier ∈ granted, earlier.id < process.nextId
  first : ∀ earlier ∈ granted, ∀ lease ∈ process.leases, lease.held = false →
    sameLock earlier lease → earlier.id < lease.id

theorem Sound.overtakes (sound : process.Sound) {other : Lease} (there : other ∈ process.leases)
    (member : lease ∈ process.leases) (held : lease.held) (waits : other.held = false)
    (same : sameLock lease other) : lease.id < other.id := by
  obtain ⟨before, after, divided, later⟩ :=
    sound.fair.ahead member there ((sameLock_symm other lease).trans same) held waits
  have ordered := sound.ordered
  rw [divided] at ordered
  exact (pairwise_cons.mp (pairwise_append.mp ordered).2.1).1 other later

theorem mem_newlyHeld {after : Process} : lease ∈ newlyHeld process after ↔
    lease ∈ after.leases ∧ lease.held = true ∧
      ∀ old ∈ process.leases, old.id = lease.id → old.held = false := by
  simp [newlyHeld]

theorem Logged.step (logged : process.Logged granted) (input : Realm × Operation) :
    (process.perform input).Logged (granted ++ newlyHeld process (process.perform input)) := by
  have sound := logged.sound.perform input
  have grows := perform_nextId process input
  -- a lease that waited before the operation comes after all that was granted
  have behind : ∀ earlier ∈ granted, ∀ lease ∈ (process.perform input).leases,
      (∀ old ∈ process.leases, old.id = lease.id → old.held = false) → sameLock earlier lease →
      earlier.id < lease.id := by
    intro earlier before lease member waited same
    rcases perform_lease member with ⟨old, there, becomes⟩ | new
    · rw [← becomes.id]
      apply logged.first earlier before old there (waited old there becomes.id)
      rwa [sameLock, becomes.origin, becomes.name]
    · exact Nat.lt_of_lt_of_le (logged.below earlier before) new
  constructor
  · exact sound
  · apply pairwise_append.mpr
    refine ⟨logged.inOrder, ?_, fun earlier before lease member => ?_⟩
    · apply List.Pairwise.sublist filter_sublist
      exact sound.ordered.imp (S := fun a b => sameLock a b → a.id < b.id) fun less _ => less
    · obtain ⟨there, _, waited⟩ := mem_newlyHeld.mp member
      exact behind earlier before lease there waited
  · intro earlier member
    rcases mem_append.mp member with before | new
    · exact Nat.lt_of_lt_of_le (logged.below earlier before) grows
    · exact sound.below earlier (mem_newlyHeld.mp new).1
  · intro earlier member lease there waits same
    rcases mem_append.mp member with before | new
    · refine behind earlier before lease there (fun old known id => ?_) same
      rcases perform_lease there with ⟨source, found, becomes⟩ | new
      · have distinct : process.leases.map (·.id) |>.Nodup :=
          (pairwise_map.mpr (logged.sound.ordered.imp Nat.ne_of_lt))
        obtain rfl := inj_on_of_nodup_map distinct found known (becomes.id.trans id.symm)
        cases held : source.held with
        | false => rfl
        | true =>
          rw [becomes.held held] at waits
          contradiction
      · have below := logged.sound.below old known
        omega
    · obtain ⟨member, held, _⟩ := mem_newlyHeld.mp new
      exact sound.overtakes there member held waits same

theorem Sound.request_lease (sound : process.Sound) {name : String} {shared available : Bool}
    {id : Nat} (answered : (process.request realm name shared available).2 = some id) :
    id = process.nextId ∧ id < (process.request realm name shared available).1.nextId ∧
      ∀ lease ∈ (process.request realm name shared available).1.leases, lease.id = id →
        lease.owner = realm.id := by
  rw [Process.request] at answered ⊢
  dsimp only at answered ⊢
  split at answered
  · contradiction
  · rename_i pushed
    rw [if_neg pushed]
    cases answered
    refine ⟨rfl, Nat.lt_succ_self _, fun lease member same => ?_⟩
    rw [grant_leases] at member
    have origin : ∃ old ∈ process.leases ++ [(⟨process.nextId, realm.id, realm.origin, name, shared,
        false⟩ : Lease)], old.id = lease.id ∧ old.owner = lease.owner := by
      rcases Rules.mem_sweep member with there | ⟨old, there, _, rfl⟩
      · exact ⟨lease, there, rfl, rfl⟩
      · exact ⟨old, there, rfl, rfl⟩
    obtain ⟨old, there, id, owner⟩ := origin
    rcases mem_append.mp there with known | new
    · have below := sound.below old known
      omega
    · rw [← owner, mem_singleton.mp new]

theorem status_perform {id : Nat} (held : process.status realm id = true)
    (kept : ∀ other, input = (other, .release id) ∨ input = (other, .drop) → other.id ≠ realm.id) :
    (process.perform input).status realm id = true := by
  simp only [status, any_eq_true, and_eq_true, decide_eq_true_eq] at held ⊢
  obtain ⟨lease, member, ⟨same, owner⟩, held⟩ := held
  have pass : ∀ {leases : List Lease} {next : Nat}, lease ∈ leases →
      ∃ later ∈ (Process.grant { leases, nextId := next }).leases,
        (later.id = id ∧ later.owner = realm.id) ∧ later.held = true := by
    intro leases next there
    refine ⟨lease, ?_, ⟨same, owner⟩, held⟩
    rw [grant_leases]
    apply Rules.sweep_keeps _ held
    exact there
  obtain ⟨other, operation⟩ := input
  cases operation with
  | request name shared available =>
    rw [Process.perform, Process.request]
    dsimp only
    split
    · exact ⟨lease, member, ⟨same, owner⟩, held⟩
    · exact pass (mem_append_left _ member)
  | status | draw => exact ⟨lease, member, ⟨same, owner⟩, held⟩
  | release freed =>
    apply pass
    rw [mem_filter]
    refine ⟨member, ?_⟩
    by_cases this : freed = id
    · have apart := kept other (.inl (by rw [this]))
      simp [owner, apart.symm]
    · simp [same, Ne.symm this]
  | drop =>
    apply pass
    rw [mem_filter]
    have apart := kept other (.inr rfl)
    exact ⟨member, by simp [owner, apart.symm]⟩

theorem granting_logged (run : process.Granting granted) : process.Logged granted := by
  apply Reachable.invariant (P := fun pair : Process × List Lease => pair.1.Logged pair.2) _ _ run
  · rintro ⟨_, _⟩ ⟨rfl, rfl⟩
    exact ⟨start_sound, List.Pairwise.nil, by simp, by simp⟩
  · rintro ⟨before, granted⟩ input ⟨after, more⟩ _ logged ⟨performed, observed⟩
    have performed : before.perform input = after := performed
    have observed : more = granted ++ newlyHeld before after := observed
    rw [observed, ← performed]
    exact logged.step input

end Process
end Chuzz.Locks
