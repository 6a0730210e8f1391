import Mathlib

/-! A queue whose entries are granted in one pass from its front. An entry waits until
every earlier entry that it contends with is held, and until no held entry excludes it.
One pass is enough: an entry that it leaves waiting has to wait still. -/
namespace Library.FairQueue
open List
variable {α : Type u} {β : Type v}

/-- How the entries of a queue wait for each other. Granting an entry does not change
whom it contends with. -/
structure Rules (α : Type u) where
  held : α → Bool
  grant : α → α
  contends : α → α → Bool
  excludes : α → α → Bool
  held_grant : ∀ a, held (grant a) = true
  contends_grant : ∀ a b, contends (grant a) b = contends a b ∧ contends a (grant b) = contends a b
  excludes_grant : ∀ a b, excludes (grant a) b = excludes a b ∧ excludes a (grant b) = excludes a b
  excludes_symm : ∀ a b, excludes a b = excludes b a

namespace Rules
variable (rules : Rules α)

/-- What is in the way of an entry between those before and those after it. -/
def blocked (before : List α) (a : α) (after : List α) : Bool :=
  before.any (fun other => rules.contends other a && !rules.held other ||
      rules.held other && rules.excludes other a) ||
    after.any fun other => rules.held other && rules.excludes other a

/-- The pass, with the entries that it has left behind. -/
def sweep (before : List α) : List α → List α
  | [] => before
  | a :: rest =>
    if rules.held a || rules.blocked before a rest then sweep (before ++ [a]) rest
    else sweep (before ++ [rules.grant a]) rest

def Exclusive (queue : List α) : Prop :=
  queue.Pairwise fun a b => rules.held a → rules.held b → rules.excludes a b = false

/-- Entries that contend are held in the order in which they came. -/
def Fair (queue : List α) : Prop :=
  queue.Pairwise fun a b => rules.contends a b → rules.held b → rules.held a

/-- Nothing that waits could be granted. -/
def Settled (queue : List α) : Prop :=
  ∀ before a after, queue = before ++ a :: after → rules.held a = false →
    rules.blocked before a after = true

variable {rules} {a new : α} {before after rest queue fewer : List α}

theorem Exclusive.sublist (exclusive : rules.Exclusive queue) (sub : fewer.Sublist queue) :
    rules.Exclusive fewer :=
  List.Pairwise.sublist sub exclusive

theorem Fair.sublist (fair : rules.Fair queue) (sub : fewer.Sublist queue) : rules.Fair fewer :=
  List.Pairwise.sublist sub fair

theorem Exclusive.arrive (exclusive : rules.Exclusive queue) (waits : rules.held new = false) :
    rules.Exclusive (queue ++ [new]) := by
  apply pairwise_append.mpr
  refine ⟨exclusive, pairwise_singleton _ _, fun a _ b member _ holds => ?_⟩
  rw [mem_singleton.mp member, waits] at holds
  contradiction

theorem Fair.arrive (fair : rules.Fair queue) (waits : rules.held new = false) :
    rules.Fair (queue ++ [new]) := by
  apply pairwise_append.mpr
  refine ⟨fair, pairwise_singleton _ _, fun a _ b member _ holds => ?_⟩
  rw [mem_singleton.mp member, waits] at holds
  contradiction

/-- A held entry is ahead of what waits for it. -/
theorem Fair.ahead {other : α} (fair : rules.Fair queue) (member : a ∈ queue)
    (there : other ∈ queue) (contends : rules.contends other a) (holds : rules.held a)
    (waits : rules.held other = false) :
    ∃ before after, queue = before ++ a :: after ∧ other ∈ after := by
  obtain ⟨before, after, rfl⟩ := append_of_mem member
  refine ⟨before, after, rfl, ?_⟩
  rcases mem_append.mp there with earlier | later
  · have granted := (pairwise_append.mp fair).2.2 other earlier a mem_cons_self contends holds
    rw [waits] at granted
    contradiction
  · rcases mem_cons.mp later with rfl | later
    · rw [waits] at holds
      contradiction
    · exact later

theorem not_blocked (free : rules.blocked before a after = false) :
    (∀ other ∈ before, rules.contends other a → rules.held other) ∧
      ∀ other ∈ before ++ after, rules.held other → rules.excludes other a = false := by
  simp only [blocked, Bool.or_eq_false_iff, any_eq_false, Bool.or_eq_true, Bool.and_eq_true,
    Bool.not_eq_true', not_or, not_and, Bool.not_eq_false, Bool.not_eq_true] at free
  refine ⟨fun other member => (free.1 other member).1, fun other member => ?_⟩
  rcases mem_append.mp member with member | member
  · exact (free.1 other member).2
  · exact free.2 other member

/-- An entry stays blocked when later ones come or are granted. -/
theorem blocked_mono {later : List α} (stopped : rules.blocked before a after = true)
    (grows : ∀ other ∈ after, rules.held other → other ∈ later) :
    rules.blocked before a later = true := by
  simp only [blocked, Bool.or_eq_true, any_eq_true] at stopped ⊢
  rcases stopped with earlier | ⟨other, member, excludes⟩
  · exact .inl earlier
  · rw [Bool.and_eq_true] at excludes
    exact .inr ⟨other, grows other member excludes.1, by rw [Bool.and_eq_true]; exact excludes⟩

theorem exclusive_grant (exclusive : rules.Exclusive (before ++ a :: rest))
    (free : rules.blocked before a rest = false) :
    rules.Exclusive (before ++ rules.grant a :: rest) := by
  obtain ⟨_, apart⟩ := not_blocked free
  obtain ⟨first, second, across⟩ := pairwise_append.mp exclusive
  apply pairwise_append.mpr
  refine ⟨first, pairwise_cons.mpr ⟨fun b member _ holds => ?_,
    (pairwise_cons.mp second).2⟩, fun x there b member held holds => ?_⟩
  · rw [(rules.excludes_grant a b).1, rules.excludes_symm]
    exact apart b (mem_append_right _ member) holds
  · rcases mem_cons.mp member with rfl | member
    · rw [(rules.excludes_grant x a).2]
      exact apart x (mem_append_left _ there) held
    · exact across x there b (mem_cons_of_mem _ member) held holds

theorem fair_grant (fair : rules.Fair (before ++ a :: rest))
    (free : rules.blocked before a rest = false) : rules.Fair (before ++ rules.grant a :: rest) := by
  obtain ⟨earlier, _⟩ := not_blocked free
  obtain ⟨first, second, across⟩ := pairwise_append.mp fair
  apply pairwise_append.mpr
  refine ⟨first, pairwise_cons.mpr ⟨fun b _ _ _ => rules.held_grant a,
    (pairwise_cons.mp second).2⟩, fun x there b member contends holds => ?_⟩
  rcases mem_cons.mp member with rfl | member
  · rw [(rules.contends_grant x a).2] at contends
    exact earlier x there contends
  · exact across x there b (mem_cons_of_mem _ member) contends holds

theorem sweep_exclusive (exclusive : rules.Exclusive (before ++ rest)) :
    rules.Exclusive (rules.sweep before rest) := by
  induction rest generalizing before with
  | nil => simpa [sweep] using exclusive
  | cons a rest ih =>
    rw [sweep]
    split
    · apply ih
      simpa using exclusive
    · rename_i free
      simp only [Bool.or_eq_true, not_or, Bool.not_eq_true] at free
      apply ih
      simpa using exclusive_grant exclusive free.2

theorem sweep_fair (fair : rules.Fair (before ++ rest)) : rules.Fair (rules.sweep before rest) := by
  induction rest generalizing before with
  | nil => simpa [sweep] using fair
  | cons a rest ih =>
    rw [sweep]
    split
    · apply ih
      simpa using fair
    · rename_i free
      simp only [Bool.or_eq_true, not_or, Bool.not_eq_true] at free
      apply ih
      simpa using fair_grant fair free.2

theorem split_snoc {last : α} (divided : before ++ [last] = rest ++ a :: after) :
    (before = rest ∧ a = last ∧ after = []) ∨
      ∃ shorter, after = shorter ++ [last] ∧ before = rest ++ a :: shorter := by
  rcases eq_nil_or_concat after with rfl | ⟨shorter, final, rfl⟩
  · obtain ⟨same, ends⟩ := append_inj' divided rfl
    exact .inl ⟨same, (singleton_inj.mp ends).symm, rfl⟩
  · rw [concat_eq_append, ← cons_append, ← append_assoc] at divided
    obtain ⟨same, ends⟩ := append_inj' divided rfl
    exact .inr ⟨shorter, by rw [singleton_inj.mp ends, concat_eq_append], same⟩

/-- The invariant of the pass: whatever it has left waiting is blocked. -/
theorem sweep_settles (left : ∀ earlier a later, before = earlier ++ a :: later →
      rules.held a = false → rules.blocked earlier a (later ++ rest) = true) :
    rules.Settled (rules.sweep before rest) := by
  induction rest generalizing before with
  | nil =>
    intro earlier a later divided waits
    simpa using left earlier a later divided waits
  | cons next rest ih =>
    -- what waits further back is blocked still, whether or not the next one is granted
    have back : ∀ passed : α, (rules.held next → passed = next) →
        ∀ earlier a later, before = earlier ++ a :: later → rules.held a = false →
        rules.blocked earlier a (later ++ [passed] ++ rest) = true := by
      intro passed same earlier a later divided waits
      apply blocked_mono (left earlier a later divided waits)
      intro other member holds
      rcases mem_append.mp member with member | member
      · simp [member]
      · rcases mem_cons.mp member with rfl | member
        · simp [same holds]
        · simp [member]
    rw [sweep]
    split
    · rename_i stopped
      apply ih
      intro earlier a later divided waits
      rcases split_snoc divided with ⟨rfl, rfl, rfl⟩ | ⟨shorter, rfl, rfl⟩
      · simpa [waits] using stopped
      · exact back next (fun _ => rfl) earlier a shorter rfl waits
    · rename_i free
      simp only [Bool.or_eq_true, not_or, Bool.not_eq_true] at free
      apply ih
      intro earlier a later divided waits
      rcases split_snoc divided with ⟨rfl, rfl, rfl⟩ | ⟨shorter, rfl, rfl⟩
      · rw [rules.held_grant] at waits
        contradiction
      · refine back (rules.grant next) (fun holds => ?_) earlier a shorter rfl waits
        rw [free.1] at holds
        contradiction

theorem sweep_settled (queue : List α) : rules.Settled (rules.sweep [] queue) := by
  apply sweep_settles
  intro earlier a later divided
  simp at divided

/-- The pass does nothing to entries that are held or have to wait. -/
theorem sweep_idle (idle : ∀ earlier a later, rest = earlier ++ a :: later →
      rules.held a = false → rules.blocked (before ++ earlier) a (later ++ after) = true) :
    rules.sweep before (rest ++ after) = rules.sweep (before ++ rest) after := by
  induction rest generalizing before with
  | nil => simp
  | cons a rest ih =>
    have stays : (rules.held a || rules.blocked before a (rest ++ after)) = true := by
      cases holds : rules.held a with
      | true => rfl
      | false => simpa using idle [] a rest rfl holds
    rw [cons_append, sweep, if_pos stays, ih, append_assoc]
    · rfl
    · intro earlier b later divided waits
      simpa using idle (a :: earlier) b later (by rw [divided]; rfl) waits

/-- An entry that comes to a settled queue is the only one that may be granted. -/
theorem Settled.arrive (settled : rules.Settled queue) (waits : rules.held new = false) :
    rules.sweep [] (queue ++ [new]) =
      queue ++ [if rules.blocked queue new [] then new else rules.grant new] := by
  rw [sweep_idle]
  · simp only [nil_append, Rules.sweep, waits, Bool.false_or]
    split <;> rfl
  · intro earlier a later divided held
    apply blocked_mono (settled earlier a later divided held)
    intro other member _
    exact mem_append_left _ member

/-- What granting keeps of an entry is kept of the queue. -/
theorem sweep_map {key : α → β} (keeps : ∀ a, key (rules.grant a) = key a) :
    (rules.sweep before rest).map key = (before ++ rest).map key := by
  induction rest generalizing before with
  | nil => simp [sweep]
  | cons a rest ih =>
    rw [sweep]
    split
    · simp [ih]
    · simp [ih, keeps]

theorem mem_sweep (member : a ∈ rules.sweep before rest) :
    a ∈ before ++ rest ∨ ∃ old ∈ rest, rules.held old = false ∧ a = rules.grant old := by
  induction rest generalizing before with
  | nil =>
    rw [append_nil]
    exact .inl member
  | cons next rest ih =>
    rw [sweep] at member
    split at member
    · rcases ih member with found | ⟨old, there, granted⟩
      · exact .inl (by simpa using found)
      · exact .inr ⟨old, mem_cons_of_mem _ there, granted⟩
    · rename_i free
      simp only [Bool.or_eq_true, not_or, Bool.not_eq_true] at free
      rcases ih member with found | ⟨old, there, granted⟩
      · simp only [append_assoc, cons_append, nil_append, mem_append,
          mem_cons] at found ⊢
        rcases found with found | rfl | found
        · exact .inl (.inl found)
        · exact .inr ⟨next, .inl rfl, free.1, rfl⟩
        · exact .inl (.inr (.inr found))
      · exact .inr ⟨old, mem_cons_of_mem _ there, granted⟩

/-- An entry that is held is not touched. -/
theorem sweep_keeps (member : a ∈ before ++ rest) (holds : rules.held a = true) :
    a ∈ rules.sweep before rest := by
  induction rest generalizing before with
  | nil => simpa [sweep] using member
  | cons next rest ih =>
    rw [sweep]
    split
    · apply ih
      simpa using member
    · rename_i free
      simp only [Bool.or_eq_true, not_or, Bool.not_eq_true] at free
      apply ih
      simp only [mem_append, mem_cons] at member
      rcases member with member | rfl | member
      · simp [member]
      · rw [free.1] at holds
        contradiction
      · simp [member]

end Rules
end Library.FairQueue
