import Chuzz.Broadcast.Delivery

/-! Every message is dispatched in the end. While a channel is open its page's timer runs, and
with each read of the page at least one message that waits for the channel is taken along,
which has been dispatched by the next; after as many reads as there are messages behind, and
one more, none of them is behind any longer. -/
namespace Chuzz.Broadcast
open Library.Transition List

variable {Wire : Type}

namespace System
variable {system : System Wire} {owner id : Nat}

def pending (system : System Wire) (owner id : Nat) : List Wire :=
  match system.realms owner with
  | none => []
  | some realm => realm.pending id

theorem perform_owed (system : System Wire) (step : Step Wire) (id : Nat) :
    system.owed id <+: (system.perform step).owed id := by
  cases step with
  | install url => exact prefix_rfl
  | create owner name => rw [System.perform]; split <;> exact prefix_rfl
  | post owner other wire =>
    rw [System.perform]
    split
    next => exact prefix_rfl
    next =>
      split
      next => exact prefix_rfl
      next =>
        simp only [System.post]
        split
        · exact prefix_append _ _
        · exact prefix_rfl
  | close owner other =>
    rw [System.perform]
    split
    next => exact prefix_rfl
    next =>
      split
      next =>
        have same : (system.release owner other).owed = system.owed := by
          unfold System.release
          split
          · rfl
          · split <;> rfl
        simp [System.close, setRealm, same]
      next => exact prefix_rfl
  | read owner order =>
    rw [System.perform]
    split
    next => exact prefix_rfl
    next => split <;> exact prefix_rfl
  | dispatch owner =>
    rw [System.perform]
    split
    next => exact prefix_rfl
    next =>
      rw [System.dispatch]
      split <;> exact prefix_rfl
  | drop owner => exact prefix_rfl

/-- Only a turn of a page's loop dispatches, on a channel that the page holds open. -/
theorem perform_dispatched (system : System Wire) (step : Step Wire) (id : Nat) :
    (system.perform step).dispatched id = system.dispatched id ∨
      ∃ owner realm wire rest, step = .dispatch owner ∧ system.realms owner = some realm ∧
        realm.deliveries = (id, wire) :: rest ∧ realm.channels.any (·.1 = id) = true ∧
        (system.perform step).dispatched id = system.dispatched id ++ [wire] := by
  cases step with
  | install url => exact .inl rfl
  | create owner name => rw [System.perform]; split <;> exact .inl rfl
  | post owner other wire =>
    rw [System.perform]
    split
    next => exact .inl rfl
    next => split <;> exact .inl rfl
  | close owner other =>
    left
    rw [System.perform]
    split
    next => rfl
    next =>
      split
      next =>
        have same : (system.release owner other).dispatched = system.dispatched := by
          unfold System.release
          split
          · rfl
          · split <;> rfl
        simp [System.close, setRealm, same]
      next => rfl
  | read owner order =>
    rw [System.perform]
    split
    next => exact .inl rfl
    next => split <;> exact .inl rfl
  | dispatch owner =>
    rw [System.perform]
    split
    next => exact .inl rfl
    next realm alive =>
      rw [System.dispatch]
      split
      next => exact .inl rfl
      next first wire rest next =>
        dsimp only
        split
        next mine =>
          simp only [Bool.and_eq_true, decide_eq_true_eq] at mine
          obtain ⟨rfl, open_⟩ := mine
          exact .inr ⟨owner, realm, wire, rest, rfl, alive, next, open_, rfl⟩
        next => exact .inl rfl
  | drop owner => exact .inl rfl

/-- What a step makes of a page: no channel reopens, and of its deliveries the page keeps all,
or starts on those of a new read once it has none left, or has dispatched the first. -/
def Turns (system : System Wire) (step : Step Wire) (owner : Nat) (realm after : Realm Wire) :
    Prop :=
  (∀ id name, (id, name) ∈ after.channels → id < system.nextId → (id, name) ∈ realm.channels) ∧
    ((after.deliveries = realm.deliveries ∧ after.reads = realm.reads) ∨
      (∃ order, order.Perm (system.owned owner) ∧ realm.deliveries = [] ∧
        after.deliveries = system.batch order ∧ after.reads = realm.reads + 1 ∧
        (system.perform step).dispatched = system.dispatched) ∨
      ∃ first wire rest, step = .dispatch owner ∧ realm.deliveries = (first, wire) :: rest ∧
        after.deliveries = rest ∧ after.reads = realm.reads)

theorem perform_page {realm after : Realm Wire} (step : Step Wire)
    (alive : system.realms owner = some realm) (fresh : owner < system.nextId)
    (still : (system.perform step).realms owner = some after) :
    system.Turns step owner realm after := by
  have same : system.realms owner = some after → after = realm := fun here =>
    Option.some.inj (here.symm.trans alive)
  have kept : after = realm → system.Turns step owner realm after := by
    rintro rfl
    exact ⟨fun _ _ open_ _ => open_, .inl ⟨rfl, rfl⟩⟩
  cases step with
  | install url =>
    exact kept (same ((setRealm_other (Nat.ne_of_lt fresh)).symm.trans still))
  | create other name =>
    rw [System.perform] at still
    split at still
    next => exact kept (same still)
    next page here =>
      rcases setRealm_some still with ⟨rfl, new⟩ | ⟨_, still⟩
      · obtain rfl := Option.some.inj (here.symm.trans alive)
        cases new
        refine ⟨fun id title open_ known => ?_, .inl ⟨rfl, rfl⟩⟩
        rcases mem_append.mp open_ with open_ | last
        · exact open_
        · cases mem_singleton.mp last
          exact absurd known (Nat.lt_irrefl _)
      · exact kept (same still)
  | post other id wire =>
    rw [System.perform] at still
    split at still
    next => exact kept (same still)
    next => split at still <;> exact kept (same still)
  | close other id =>
    rw [System.perform] at still
    split at still
    next => exact kept (same still)
    next page here =>
      split at still
      next =>
        rcases setRealm_some still with ⟨rfl, new⟩ | ⟨_, still⟩
        · obtain rfl := Option.some.inj (here.symm.trans alive)
          cases new
          exact ⟨fun _ _ open_ _ => (mem_filter.mp open_).1, .inl ⟨rfl, rfl⟩⟩
        · refine kept (same ?_)
          rw [← still, System.release]
          split
          · rfl
          · split <;> rfl
      next => exact kept (same still)
  | read other order =>
    rw [System.perform] at still
    split at still
    next => exact kept (same still)
    next page here =>
      split at still
      next ready =>
        rcases setRealm_some still with ⟨rfl, new⟩ | ⟨_, still⟩
        · obtain rfl := Option.some.inj (here.symm.trans alive)
          cases new
          have silent : (system.perform (.read owner order)).dispatched = system.dispatched := by
            simp only [System.perform, here]
            rw [if_pos ready]
            rfl
          exact ⟨fun _ _ open_ _ => open_, .inr (.inl ⟨order, ready.2.2,
            isEmpty_iff.mp ready.2.1, rfl, rfl, silent⟩)⟩
        · exact kept (same still)
      next => exact kept (same still)
  | dispatch other =>
    rw [System.perform] at still
    split at still
    next => exact kept (same still)
    next page here =>
      rw [System.dispatch] at still
      split at still
      next => exact kept (same still)
      next first wire rest next =>
        rcases setRealm_some still with ⟨rfl, new⟩ | ⟨_, still⟩
        · obtain rfl := Option.some.inj (here.symm.trans alive)
          cases new
          exact ⟨fun _ _ open_ _ => open_, .inr (.inr ⟨first, wire, rest, rfl, next, rfl, rfl⟩)⟩
        · exact kept (same still)
  | drop other =>
    rcases setRealm_some still with ⟨_, new⟩ | ⟨_, still⟩
    · cases new
    · exact kept (same still)

theorem perform_new {after : Realm Wire} (step : Step Wire) (gone : system.realms owner = none)
    (still : (system.perform step).realms owner = some after) : after.channels = [] := by
  have none : system.realms owner = some after → after.channels = [] := by
    intro here
    rw [gone] at here
    cases here
  have other : ∀ {new : Option (Realm Wire)} {page : Nat} {realm : Realm Wire},
      system.realms page = some realm → (system.setRealm page new).realms owner = some after →
      after.channels = [] := by
    intro new page realm here still
    rcases setRealm_some still with ⟨rfl, _⟩ | ⟨_, still⟩
    · rw [gone] at here
      cases here
    · exact none still
  cases step with
  | install url =>
    rcases setRealm_some still with ⟨_, new⟩ | ⟨_, still⟩
    · cases new
      rfl
    · exact none still
  | create page name =>
    rw [System.perform] at still
    split at still
    next => exact none still
    next here => exact other here still
  | post page id wire =>
    rw [System.perform] at still
    split at still
    next => exact none still
    next => split at still <;> exact none still
  | close page id =>
    rw [System.perform] at still
    split at still
    next => exact none still
    next realm here =>
      split at still
      next =>
        rcases setRealm_some still with ⟨rfl, _⟩ | ⟨_, still⟩
        · rw [gone] at here
          cases here
        · refine none ?_
          rw [← still, System.release]
          split
          · rfl
          · split <;> rfl
      next => exact none still
  | read page order =>
    rw [System.perform] at still
    split at still
    next => exact none still
    next here =>
      split at still
      next => exact other here still
      next => exact none still
  | dispatch page =>
    rw [System.perform] at still
    split at still
    next => exact none still
    next here =>
      rw [System.dispatch] at still
      split at still
      next => exact none still
      next => exact other here still
  | drop page =>
    rcases setRealm_some still with ⟨_, new⟩ | ⟨_, still⟩
    · cases new
    · exact none still

theorem perform_next (system : System Wire) (step : Step Wire) :
    system.nextId ≤ (system.perform step).nextId := by
  cases step with
  | install url => exact Nat.le_succ _
  | create page name => rw [System.perform]; split <;> simp [System.create]
  | post page id wire =>
    rw [System.perform]
    split
    next => exact Nat.le_refl _
    next => split <;> exact Nat.le_refl _
  | close page id =>
    rw [System.perform]
    split
    next => exact Nat.le_refl _
    next =>
      split
      next =>
        apply Nat.le_of_eq
        simp only [System.close, setRealm, System.release]
        split
        · rfl
        · split <;> rfl
      next => exact Nat.le_refl _
  | read page order =>
    rw [System.perform]
    split
    next => exact Nat.le_refl _
    next => split <;> exact Nat.le_refl _
  | dispatch page =>
    rw [System.perform]
    split
    next => exact Nat.le_refl _
    next =>
      rw [System.dispatch]
      split <;> exact Nat.le_refl _
  | drop page => exact Nat.le_refl _

/-- A channel that is open after a step and was known before it was open before it. -/
theorem Sound.open_before (sound : system.Sound) (step : Step Wire) (known : id < system.nextId)
    (open_ : (system.perform step).Open owner id) : system.Open owner id := by
  obtain ⟨after, still, name, open_⟩ := open_
  cases alive : system.realms owner with
  | none =>
    rw [perform_new step alive still] at open_
    cases open_
  | some realm =>
    exact ⟨realm, alive, name,
      (perform_page step alive (sound.known_realm alive) still).1 id name open_ known⟩

/-- What a channel has got or its page is about to dispatch on it. -/
def taken (system : System Wire) (owner id : Nat) : List Wire :=
  system.dispatched id ++ system.pending owner id

section
variable (sound : system.Sound)
include sound

/-- A step leaves what a channel has got, and its page's readings, as they are or moves a
message on; a new read finds nothing left of the old one and takes along what it can. -/
theorem Sound.advances (step : Step Wire) (open_ : system.Open owner id)
    (still : (system.perform step).Open owner id) :
    ((system.perform step).reads owner = system.reads owner ∧
      (system.dispatched id).length ≤ ((system.perform step).dispatched id).length ∧
      (system.taken owner id).length ≤ ((system.perform step).taken owner id).length) ∨
    ((system.perform step).reads owner = system.reads owner + 1 ∧
      system.taken owner id = system.dispatched id ∧
      (system.perform step).dispatched id = system.dispatched id ∧
      (system.perform step).pending owner id = (system.incoming id).take 64) := by
  obtain ⟨realm, alive, name, held⟩ := open_
  obtain ⟨after, stays, _⟩ := still
  have opened : system.Open owner id := ⟨realm, alive, name, held⟩
  obtain ⟨_, turn⟩ := perform_page step alive (sound.known_realm alive) stays
  have reads : system.reads owner = realm.reads := by rw [System.reads, alive]
  have reads' : (system.perform step).reads owner = after.reads := by rw [System.reads, stays]
  have pending : system.pending owner id = realm.pending id := by rw [System.pending, alive]
  have pending' : (system.perform step).pending owner id = after.pending id := by
    rw [System.pending, stays]
  rw [taken, taken, reads, reads', pending, pending']
  rcases turn with ⟨same, read⟩ | ⟨order, chosen, idle, batch, read, silent⟩ |
    ⟨first, wire, rest, rfl, next, same, read⟩
  · left
    have kept : (system.dispatched id).length ≤ ((system.perform step).dispatched id).length := by
      rcases perform_dispatched system step id with same | ⟨_, _, _, _, _, _, _, _, more⟩
      · exact Nat.le_of_eq (congrArg List.length same.symm)
      · rw [more, length_append]
        exact Nat.le_add_right _ _
    refine ⟨read, kept, ?_⟩
    rw [Realm.pending, Realm.pending, same, length_append, length_append]
    omega
  · right
    obtain ⟨channel, there, mine, _⟩ := sound.opens owner realm id name alive held
    refine ⟨read, ?_, congrFun silent id, ?_⟩
    · rw [Realm.pending, idle]
      exact append_nil _
    · rw [sound.pending_read chosen there mine batch, incoming, there]
  · left
    refine ⟨read, ?_⟩
    have any : realm.channels.any (·.1 = id) = true :=
      any_eq_true.mpr ⟨_, held, decide_eq_true rfl⟩
    have moved : (system.perform (.dispatch owner)).dispatched id =
        if id = first then system.dispatched id ++ [wire] else system.dispatched id := by
      simp only [System.perform, alive, System.dispatch, next]
      by_cases here : id = first
      · subst here
        simp [any]
      · simp [here]
    rw [moved, Realm.pending, Realm.pending, same, next]
    by_cases here : id = first
    · simp [here, Nat.add_comm, Nat.add_left_comm]
    · simp [here, Ne.symm here]

theorem Sound.owed_length (open_ : system.Open owner id) :
    (system.owed id).length = (system.taken owner id).length + (system.incoming id).length := by
  obtain ⟨realm, alive, name, held⟩ := open_
  obtain ⟨channel, there, mine, _⟩ := sound.opens owner realm id name alive held
  have flow := sound.flow id channel realm there (mine ▸ alive)
  rw [flow, taken, System.pending, alive, incoming, there, length_append]

theorem Sound.known_open (open_ : system.Open owner id) : id < system.nextId := by
  obtain ⟨realm, alive, name, held⟩ := open_
  obtain ⟨channel, there, _⟩ := sound.opens owner realm id name alive held
  exact sound.known_channel there

theorem Sound.run_open_before (steps : List (Step Wire)) (known : id < system.nextId)
    (open_ : (steps.foldl System.perform system).Open owner id) : system.Open owner id := by
  induction steps generalizing system with
  | nil => exact open_
  | cons first rest ih =>
    exact sound.open_before first known
      (ih (sound.perform first) (Nat.lt_of_lt_of_le known (perform_next system first)) open_)

/-- Reads push what is taken and, one behind, what is dispatched towards any goal within what
is owed. -/
theorem Sound.progress (steps : List (Step Wire)) {goal : Nat}
    (open_ : system.Open owner id) (within : goal ≤ (system.owed id).length)
    (still : (steps.foldl System.perform system).Open owner id) :
    let after := steps.foldl System.perform system
    system.reads owner ≤ after.reads owner ∧
      (system.dispatched id).length ≤ (after.dispatched id).length ∧
      (system.reads owner < after.reads owner →
        min goal ((system.taken owner id).length + (after.reads owner - system.reads owner) - 1) ≤
          (after.dispatched id).length) := by
  induction steps generalizing system with
  | nil =>
    exact ⟨Nat.le_refl _, Nat.le_refl _, fun less => absurd less (Nat.lt_irrefl _)⟩
  | cons first rest ih =>
    have opened : (system.perform first).Open owner id :=
      (sound.perform first).run_open_before rest
        (Nat.lt_of_lt_of_le (sound.known_open open_) (perform_next system first)) still
    have more := (perform_owed system first id).length_le
    obtain ⟨reads, dispatched, served⟩ :=
      ih (sound.perform first) opened (Nat.le_trans within more) still
    dsimp only at reads dispatched served ⊢
    rw [foldl_cons]
    have owed := sound.owed_length open_
    rcases sound.advances first open_ opened with ⟨same, got, moved⟩ | ⟨new, all, same, batch⟩
    · refine ⟨by omega, by omega, fun less => ?_⟩
      have := served (by omega)
      omega
    · have taken : ((system.perform first).taken owner id).length =
          (system.dispatched id).length + min 64 (system.incoming id).length := by
        rw [System.taken, same, batch, length_append, length_take]
      rw [all] at owed ⊢
      rw [same] at dispatched
      refine ⟨by omega, dispatched, fun _ => ?_⟩
      by_cases last : (system.perform first).reads owner =
          (rest.foldl System.perform (system.perform first)).reads owner
      · omega
      · have := served (by omega)
        omega

end

theorem run_owed (system : System Wire) (steps : List (Step Wire)) (id : Nat) :
    system.owed id <+: (steps.foldl System.perform system).owed id := by
  induction steps generalizing system with
  | nil => exact prefix_rfl
  | cons first rest ih => exact (perform_owed system first id).trans (ih _)

section
variable (sound : system.Sound) (steps : List (Step Wire))
include sound steps

theorem Sound.run : (steps.foldl System.perform system).Sound := by
  induction steps generalizing system with
  | nil => exact sound
  | cons first rest ih => exact ih (sound.perform first)

/-- After as many reads as there are messages behind, and one more, all are dispatched. -/
theorem Sound.served (open_ : system.Open owner id) (still : (steps.foldl System.perform system).Open owner id)
    (enough : (system.owed id).length - (system.dispatched id).length <
      (steps.foldl System.perform system).reads owner - system.reads owner) :
    system.owed id <+: (steps.foldl System.perform system).dispatched id := by
  obtain ⟨_, _, served⟩ := sound.progress steps open_ (Nat.le_refl _) still
  have more : (system.dispatched id).length ≤ (system.taken owner id).length := by
    rw [taken, length_append]
    exact Nat.le_add_right _ _
  have bounded := (sound.ordered id).length_le
  have reached := served (by omega)
  exact prefix_of_prefix_length_le (run_owed system steps id)
    ((sound.run steps).ordered id) (by omega)

theorem Sound.silent (known : id < system.nextId) (closed : ∀ owner, ¬ system.Open owner id) :
    (steps.foldl System.perform system).dispatched id = system.dispatched id := by
  induction steps generalizing system with
  | nil => rfl
  | cons first rest ih =>
    have still : ∀ owner, ¬ (system.perform first).Open owner id :=
      fun owner open_ => closed owner (sound.open_before first known open_)
    rw [foldl_cons, ih (sound.perform first)
      (Nat.lt_of_lt_of_le known (perform_next system first)) still]
    rcases perform_dispatched system first id with same | ⟨owner, realm, _, _, _, alive, _, any, _⟩
    · exact same
    · obtain ⟨⟨again, name⟩, held, same⟩ := any_eq_true.mp any
      obtain rfl : again = id := by simpa using same
      exact absurd ⟨realm, alive, name, held⟩ (closed owner)

end

end System

/-- On every channel the page dispatches, in the order they were posted in, the messages that
channels of its origin and name posted while it was open, and no other. As long as it stays
open its page's timer runs and all of them are dispatched; once it is closed none is. -/
theorem reached_broadcasts {system : System Wire} (reached : system.Reached) (id : Nat) :
    system.dispatched id <+: system.owed id ∧
    (∀ owner, system.Open owner id →
      (∃ realm, system.realms owner = some realm ∧ realm.timer = true) ∧
      ∀ steps : List (Step Wire), (steps.foldl System.perform system).Open owner id →
        (system.owed id).length - (system.dispatched id).length <
          (steps.foldl System.perform system).reads owner - system.reads owner →
        system.owed id <+: (steps.foldl System.perform system).dispatched id) ∧
    (id < system.nextId → (∀ owner, ¬ system.Open owner id) → ∀ steps : List (Step Wire),
      (steps.foldl System.perform system).dispatched id = system.dispatched id) := by
  have sound := System.reached_sound reached
  refine ⟨sound.ordered id, ?_, fun known closed steps => sound.silent steps known closed⟩
  intro owner open_
  refine ⟨?_, fun steps still enough => sound.served steps open_ still enough⟩
  obtain ⟨realm, alive, name, held⟩ := open_
  exact ⟨realm, alive, sound.timer owner realm alive (ne_nil_of_mem held)⟩

def sampleOrigin : TupleOrigin :=
  ⟨"https://a.b".toList, "https".toList, "a.b".toList, by decide⟩

/-- Two pages of one origin and one of an opaque origin open a channel of the same name. -/
def sampleSystem : System Nat :=
  [.install (some (.tuple sampleOrigin)), .install (some (.tuple sampleOrigin)), .install none,
    .create 1 ['n'], .create 2 ['n'], .create 3 ['n'], .post 1 4 7].foldl System.perform {}

def sampleReads : List (Step Nat) := [.read 2 [5], .dispatch 2, .read 2 [5]]

theorem reached_broadcasts_read :
    [7] <+: (sampleReads.foldl System.perform sampleSystem).dispatched 5 ∧
    sampleSystem.owed 4 = [] ∧ sampleSystem.owed 6 = [] := by
  have reached : sampleSystem.Reached := Reachable.run _ (.start rfl)
  obtain ⟨_, served, _⟩ := reached_broadcasts reached 5
  have opened : sampleSystem.Open 2 5 := ⟨_, rfl, ['n'], by decide⟩
  have still : (sampleReads.foldl System.perform sampleSystem).Open 2 5 :=
    ⟨_, rfl, ['n'], by decide⟩
  have dispatched := (served 2 opened).2 sampleReads still (by decide)
  have owed : sampleSystem.owed 5 = [7] := by decide
  exact ⟨owed ▸ dispatched, by decide, by decide⟩

end Chuzz.Broadcast
