import Chuzz.Library.Transition
import Chuzz.Session.Store

/-! What a capture keeps. Every store that a page can reach holds texts within the
limits of `seal`, so copies never panic and only the size of the whole decides. -/
namespace Chuzz.Session
open Library.Transition List Option

def SessionPair.Bounded (pair : SessionPair) : Prop :=
  pair.key.capacity ≤ 1024 ∧ pair.value.capacity ≤ 4096

theorem Text.capture_some {hint : Option Nat} {units : List UInt16} {limit : Nat} {text : Text}
    (captured : Text.capture hint units limit = some text) :
    text.units = units ∧ text.capacity ≤ limit / 2 := by
  simp only [Text.capture] at captured
  split at captured
  · cases captured
    exact ⟨rfl, Nat.min_le_right _ _⟩
  · contradiction

theorem Text.capture_copy (text : Text) (limit : Nat) (bounded : text.capacity ≤ limit / 2) :
    ∃ copy, Text.capture (some text.units.length) text.units limit = some copy ∧
      copy.units = text.units ∧ copy.capacity ≤ limit / 2 := by
  have enough : text.units.length ≤ min text.units.length (limit / 2) :=
    Nat.le_min.mpr ⟨Nat.le_refl _, text.fits.trans bounded⟩
  refine ⟨⟨text.units, _, enough⟩, ?_, rfl, Nat.min_le_right _ _⟩
  simp only [Text.capture, getD_some, dif_pos enough]

namespace SessionBucket

theorem bounded_pairs (bucket : SessionBucket) : ∀ pair ∈ bucket.pairs.list, pair.Bounded := by
  intro pair member
  obtain ⟨key, value⟩ := bucket.bounded pair member
  simp only [Text.allocatedBytes] at key value
  constructor <;> omega

/-- With texts within the limits, only the origin, the number and the size of the pairs
and the budget decide. -/
theorem seal_iff {platform : Platform} {budget : SleepingBudget} (origin : Origin) {pairs : Pairs}
    (count : pairs.list.length ≤ 256) (bounded : ∀ pair ∈ pairs.list, pair.Bounded)
    (room : budget.used + (pairs.allocatedBytes + platform.bucketSize) ≤ budget.cap) :
    (∃ left bucket, SessionBucket.seal platform budget origin pairs = .ok (left, bucket)) ↔
      origin.isTuple = true ∧ pairs.allocatedBytes ≤ 32 * 1024 := by
  have texts : ∀ pair ∈ pairs.list,
      pair.key.allocatedBytes ≤ 2048 ∧ pair.value.allocatedBytes ≤ 8 * 1024 := by
    intro pair member
    obtain ⟨key, value⟩ := bounded pair member
    simp only [Text.allocatedBytes]
    constructor <;> omega
  simp only [SessionBucket.seal]
  constructor
  · rintro ⟨left, bucket, sealed⟩
    split at sealed
    · rename_i checked
      split at sealed
      · contradiction
      · exact ⟨checked.1, Nat.le_of_not_gt ‹_›⟩
    · contradiction
  · rintro ⟨tuple, fits⟩
    rw [dif_pos ⟨tuple, count, texts⟩, if_neg (Nat.not_lt.mpr fits), SleepingBudget.reserve,
      if_pos room]
    exact ⟨_, _, rfl⟩

theorem seal_pairs {platform : Platform} {budget left : SleepingBudget} {origin : Origin}
    {pairs : Pairs} {bucket : SessionBucket}
    (sealed : SessionBucket.seal platform budget origin pairs = .ok (left, bucket)) :
    bucket.pairs = pairs := by
  simp only [SessionBucket.seal] at sealed
  split at sealed
  · split at sealed
    · contradiction
    · cases reserved : budget.reserve (pairs.allocatedBytes + platform.bucketSize) with
      | error message => simp [reserved, bind, Except.bind] at sealed
      | ok budget =>
        simp only [reserved, bind, Except.bind, pure, Except.pure] at sealed
        cases sealed
        rfl
  · contradiction

end SessionBucket

namespace Store

structure Sound (store : Store) : Prop where
  count : store.pairs.length ≤ 256
  bounded : ∀ pair ∈ store.pairs, pair.Bounded

theorem mapM_copyPair {list : List SessionPair} (bounded : ∀ pair ∈ list, pair.Bounded) :
    ∃ copies, list.mapM copyPair = some copies ∧
      copies.map SessionPair.content = list.map SessionPair.content ∧
      ∀ pair ∈ copies, pair.Bounded := by
  induction list with
  | nil => exact ⟨[], rfl, rfl, fun _ member => absurd member not_mem_nil⟩
  | cons pair rest ih =>
    obtain ⟨short, short'⟩ := bounded pair mem_cons_self
    obtain ⟨key, captured, same, limit⟩ := pair.key.capture_copy 2048 short
    obtain ⟨value, captured', same', limit'⟩ := pair.value.capture_copy 8192 short'
    obtain ⟨copies, copied, contents, within⟩ :=
      ih fun pair member => bounded pair (mem_cons_of_mem _ member)
    refine ⟨⟨key, value⟩ :: copies, ?_, ?_, ?_⟩
    · simp [mapM_cons, copyPair, captured, captured', copied]
    · simp only [map_cons, contents, SessionPair.content, same, same']
    · intro pair member
      rcases mem_cons.mp member with rfl | member
      · exact ⟨limit, limit'⟩
      · exact within pair member

variable {store : Store}

theorem Sound.makeMut (sound : store.Sound) (shared : Bool) :
    ∃ taken, store.makeMut shared = some taken ∧ taken.backing = none ∧
      taken.entries.contents = store.pairs.map SessionPair.content ∧ taken.Sound ∧
      taken.origin = store.origin ∧ taken.sensitive = store.sensitive ∧
      taken.noStash = store.noStash := by
  unfold Store.makeMut
  cases held : store.backing with
  | none =>
    refine ⟨store, rfl, held, ?_, sound, rfl, rfl, rfl⟩
    simp only [Store.pairs, held, Pairs.contents]
  | some bucket =>
    have same : store.pairs = bucket.pairs.list := by simp only [Store.pairs, held]
    cases shared with
    | false =>
      refine ⟨_, rfl, rfl, ?_, ⟨?_, ?_⟩, rfl, rfl, rfl⟩
      · rw [same]
        rfl
      · exact bucket.count
      · exact bucket.bounded_pairs
    | true =>
      obtain ⟨copies, copied, contents, within⟩ := mapM_copyPair bucket.bounded_pairs
      have length := congrArg List.length contents
      simp only [length_map] at length
      refine ⟨{ store with backing := none, entries := .collect copies }, ?_, rfl, ?_, ⟨?_, ?_⟩,
        rfl, rfl, rfl⟩
      · simp [copied]
      · rw [same]
        exact contents
      · exact length ▸ bucket.count
      · exact within

variable {platform : Platform}

theorem Sound.set {key value : Text} (sound : store.Sound)
    (taken : store.backing = none) (short : key.capacity ≤ 1024) (short' : value.capacity ≤ 4096) :
    (store.set platform key value).1.Sound := by
  obtain ⟨count, bounded⟩ := sound
  simp only [Store.pairs, taken] at count bounded
  simp only [Store.set]
  split
  · exact ⟨by simpa only [Store.pairs, taken] using count,
      by simpa only [Store.pairs, taken] using bounded⟩
  rename_i accepted
  split
  · rename_i index found
    constructor
    · simpa only [Store.pairs, taken, Pairs.replace, length_set] using count
    · intro pair member
      simp only [Store.pairs, taken, Pairs.replace] at member
      rcases mem_or_eq_of_mem_set member with member | rfl
      · exact bounded pair member
      · exact ⟨short, short'⟩
  · rename_i absent
    simp only [absent, isNone_none, true_and, not_or] at accepted
    constructor
    · simp only [Store.pairs, taken, Pairs.push, length_append, length_singleton]
      omega
    · intro pair member
      simp only [Store.pairs, taken, Pairs.push] at member
      rcases mem_append.mp member with member | here
      · exact bounded pair member
      · rw [mem_singleton.mp here]
        exact ⟨short, short'⟩

theorem Sound.call (sound : store.Sound) (platform : Platform) (shared : Bool) (call : Call) :
    ∃ after result, store.call platform shared call = some (after, result) ∧
      after.Sound := by
  cases call with
  | clear =>
    refine ⟨_, _, rfl, ?_, ?_⟩
    · exact Nat.zero_le _
    · exact fun _ member => absurd member not_mem_nil
  | markSensitive key =>
    simp only [Store.call]
    cases Text.capture (platform.hint key) key 2048 with
    | none => exact ⟨_, _, rfl, sound⟩
    | some key =>
      simp only
      split
      · exact ⟨_, _, rfl, sound⟩
      split
      · exact ⟨_, _, rfl, sound.count, sound.bounded⟩
      · exact ⟨_, _, rfl, sound.count, sound.bounded⟩
  | removeItem key =>
    simp only [Store.call]
    cases Text.capture (platform.hint key) key 2048 with
    | none => exact ⟨_, _, rfl, sound⟩
    | some key =>
      obtain ⟨taken, made, empty, -, ⟨count, bounded⟩, -⟩ := sound.makeMut shared
      simp only [Store.pairs, empty] at count bounded
      refine ⟨{ taken with entries := taken.entries.retain (·.key.units ≠ key.units) }, .ok (), ?_,
        ⟨?_, ?_⟩⟩
      · simp [made]
      · simp only [Store.pairs, empty]
        exact (length_filter_le _ _).trans count
      · intro pair member
        simp only [Store.pairs, empty] at member
        exact bounded pair (mem_filter.mp member).1
  | setItem key value =>
    simp only [Store.call]
    cases first : Text.capture (platform.hint key) key 2048 with
    | none => exact ⟨_, _, rfl, sound⟩
    | some key =>
      cases second : Text.capture (platform.hint value) value 8192 with
      | none => exact ⟨_, _, rfl, sound⟩
      | some value =>
        obtain ⟨taken, made, empty, -, sound', -⟩ := sound.makeMut shared
        refine ⟨(taken.set platform key value).1, (taken.set platform key value).2, ?_, ?_⟩
        · simp [made]
        · exact sound'.set empty (Text.capture_some first).2 (Text.capture_some second).2

/-- The pairs that a page stored and did not mark. -/
def kept (store : Store) : List (List UInt16 × List UInt16) :=
  (store.pairs.filter fun pair => !store.isSensitive pair).map SessionPair.content

theorem filter_content (sensitive : List Text) (list : List SessionPair) :
    (list.filter fun pair => !sensitive.any (·.units = pair.key.units)).map SessionPair.content =
      (list.map SessionPair.content).filter fun content =>
        !sensitive.any (·.units = content.1) := by
  rw [List.filter_map]
  rfl

theorem Sound.retained (sound : store.Sound) (shared : Bool) :
    ∃ pairs, store.retained shared = some pairs ∧ pairs.contents = store.kept ∧
      pairs.list.length ≤ 256 ∧ ∀ pair ∈ pairs.list, pair.Bounded := by
  obtain ⟨taken, made, empty, contents, ⟨count, bounded⟩, -, marked, -⟩ := sound.makeMut shared
  simp only [Store.pairs, empty] at count bounded
  refine ⟨taken.entries.retain fun pair => !taken.isSensitive pair, ?_, ?_, ?_, ?_⟩
  · simp [Store.retained, made]
  · simp only [Pairs.contents, Pairs.retain, kept, isSensitive] at contents ⊢
    rw [filter_content, filter_content, contents, marked]
  · exact (length_filter_le _ _).trans count
  · exact fun pair member => bounded pair (mem_filter.mp member).1

/-- What `seal` accepts of the pairs of a store: an untouched bucket as it is, anything
else from a tuple origin within 32 KiB, capacity and texts together. -/
def Fits (store : Store) (shared : Bool) : Prop :=
  store.sensitive.isEmpty = true ∧ store.backing.isSome = true ∨
    store.origin.isTuple = true ∧
      ∀ pairs ∈ store.retained shared, pairs.allocatedBytes ≤ 32 * 1024

theorem Sound.capture_iff (sound : store.Sound) {shared : Bool}
    {budget : SleepingBudget} (stashes : store.noStash = false)
    (room : ∀ pairs ∈ store.retained shared,
      budget.used + (pairs.allocatedBytes + platform.bucketSize) ≤ budget.cap) :
    (∃ left budget' bucket,
        store.capture platform shared budget = some (left, budget', some bucket) ∧
          bucket.pairs.contents = store.kept) ↔ store.Fits shared := by
  simp only [Store.capture, stashes, Bool.false_eq_true, if_false, Fits]
  cases untouched : store.sensitive.isEmpty && store.backing.isSome with
  | true =>
    obtain ⟨unmarked, held⟩ := Bool.and_eq_true_iff.mp untouched
    obtain ⟨bucket, held⟩ := isSome_iff_exists.mp held
    refine ⟨fun _ => .inl ⟨unmarked, by rw [held]; rfl⟩, fun _ => ?_⟩
    refine ⟨{ store with backing := none, noStash := false }, budget, bucket, ?_, ?_⟩
    · simp only [held, if_true]
    simp [kept, Store.pairs, held, isSensitive, isEmpty_iff.mp unmarked, Pairs.contents]
  | false =>
    obtain ⟨pairs, kept, contents, count, bounded⟩ := sound.retained shared
    have touched : ¬ (store.sensitive.isEmpty = true ∧ store.backing.isSome = true) := by
      rw [← Bool.and_eq_true_iff, untouched]
      exact Bool.false_ne_true
    have seals := SessionBucket.seal_iff store.origin count bounded (room pairs kept)
    simp only [Bool.false_eq_true, if_false, kept, touched, false_or, mem_some_iff,
      forall_eq', bind, Option.bind]
    rw [← seals]
    constructor
    · rintro ⟨left, budget', bucket, captured, -⟩
      cases sealed : SessionBucket.seal platform budget store.origin pairs with
      | error message => simp [sealed] at captured
      | ok result => exact ⟨result.1, result.2, rfl⟩
    · rintro ⟨budget', bucket, sealed⟩
      refine ⟨{ store with backing := none, entries := {}, noStash := false }, budget', bucket,
        ?_, ?_⟩
      · simp only [sealed]
        rfl
      · rw [SessionBucket.seal_pairs sealed, contents]

/-- A store as `install` makes it. -/
def Fresh (store : Store) : Prop :=
  ∃ origin backing, store = { origin, backing }

/-- One call of the page. -/
def Calls (platform : Platform) (store : Store) (label : Bool × Call) (after : Store) : Prop :=
  ∃ result, store.call platform label.1 label.2 = some (after, result)

theorem sound_of_reached (run : Reachable Fresh (Calls platform) store) : store.Sound := by
  refine run.invariant ?_ ?_
  · rintro _ ⟨origin, backing, rfl⟩
    cases backing with
    | none => exact ⟨Nat.zero_le _, fun _ member => absurd member not_mem_nil⟩
    | some bucket => exact ⟨bucket.count, bucket.bounded_pairs⟩
  · rintro before ⟨shared, call⟩ after - sound ⟨result, called⟩
    obtain ⟨_, _, called', sound'⟩ := sound.call platform shared call
    cases called.symm.trans called'
    exact sound'

/-- A 64-bit process: strings know their length, tables start at four and double. -/
def native : Platform where
  hint units := some units.length
  grow capacity := max 4 (2 * capacity)
  grows capacity := by omega
  bucketSize := 112

/-- A call that succeeds. -/
def accept (store : Store) (call : Call) : Option Store :=
  match store.call native false call with
  | some (after, .ok ()) => some after
  | _ => none

theorem accepted_run (calls : List Call) {store after : Store}
    (start : Reachable Fresh (Calls native) store)
    (accepted : calls.foldlM accept store = some after) :
    Reachable Fresh (Calls native) after := by
  induction calls generalizing store with
  | nil =>
    cases accepted
    exact start
  | cons call rest ih =>
    rw [foldlM_cons, bind_eq_bind, bind_eq_some_iff] at accepted
    obtain ⟨middle, first, accepted⟩ := accepted
    refine ih (.next (l := (false, call)) start ?_) accepted
    unfold accept at first
    split at first
    · rename_i called
      cases first
      exact ⟨_, called⟩
    · contradiction

def page : Store := { origin := .tuple "https" "example.test" 443 }

/-- The page after some calls, if all of them succeed. -/
def pageAfter (calls : List Call) : Store := (calls.foldlM accept page).getD page

theorem pageAfter_run (calls : List Call) (accepted : (calls.foldlM accept page).isSome = true) :
    calls.foldlM accept page = some (pageAfter calls) ∧
      Reachable Fresh (Calls native) (pageAfter calls) := by
  obtain ⟨after, done⟩ := isSome_iff_exists.mp accepted
  have same : pageAfter calls = after := by rw [pageAfter, done]; rfl
  refine ⟨by rw [done, same], accepted_run calls (.start ⟨page.origin, none, rfl⟩) ?_⟩
  rw [same]
  exact done

def sleepingBudget : SleepingBudget := { used := 0, cap := 256 * 1024 * 1024 }

def marked : List Call :=
  [.setItem [97] [120], .setItem [98] [121], .markSensitive [97], .setItem [97] [122]]

example : ({ origin := .tuple "https" "example.test" 443 } : Store).kept = [] := by decide +kernel

/-- Many small pairs: their texts are within the quota of `setItem`. -/
def crowd : List Call :=
  (List.range 129).map fun i => .setItem [UInt16.ofNat i] (List.replicate 90 97)

end Store
end Chuzz.Session
