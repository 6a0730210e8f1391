import Chuzz.WebAuthn.Answers

/-! How many live completions a ring can hold. A completion that finds its request in
the table is on its way once: its task is about to enqueue it, or it is one entry of its
ring. So the live entries of a ring are distinct requests of the table, and a compaction
leaves room. Only a request that is completed again after its end breaks this. -/
namespace Chuzz.WebAuthn
open Std Library.Transition List Option

def Task.waits (task : Task) : Nat := if task = .enqueueing then 1 else 0

def Job.waits (job : Job) : Nat := job.worker.waits + job.timer.waits

/-- What a ring holds, an interrupted compaction included. -/
def Ring.entries (ring : Ring) : List Nat :=
  ring.queue ++ (ring.compaction.map fun compaction => compaction.live ++ [compaction.job]).getD []

namespace Requests
variable {s t : Requests}

/-- How often a completion of `id` is on its way. -/
def tokens (s : Requests) (id : Nat) : Nat :=
  (s.job id).waits + (s.ring (s.job id).notifications).entries.count id

structure Delivered (s : Requests) : Prop where
  live : ∀ id, s.isLive id = true → id ∈ s.jobs
  placed : ∀ r, ∀ id ∈ (s.ring r).entries, id < s.nextId ∧ (s.job id).notifications = r
  tokens : ∀ id, s.tokens id ≤ 1
  spent : ∀ id ∈ s.jobs, (s.job id).result = none → (s.job id).discarded = false →
    s.tokens id = 0
  compacted : ∀ r compaction, (s.ring r).compaction = some compaction →
    compaction.live.length + ((s.ring r).queue.filter s.isLive).length ≤ requestLimit ∧
      (s.job compaction.job).worker ≠ .idle
  idle : ∀ id, (s.job id).worker = .idle → (s.job id).timer = .idle ∧ (s.job id).result = none
  settles : s.violated = false

/-- No worker or deadline task completes a request that has ended with an answer. -/
def completesOnce (s : Requests) : Step → Bool
  | .complete id party _ =>
    match (s.job id).task party with
    | .completing _ =>
      (s.job id).result.isSome || (s.job id).discarded || decide (id ∈ s.jobs)
    | _ => true
  | _ => true

theorem delivered_start : Delivered {} where
  live id live := by simp [isLive, Requests.job, Job.absent] at live
  placed r id member := by simp [Requests.ring, Ring.entries] at member
  tokens id := by simp [Requests.tokens, Requests.job, Requests.ring, Ring.entries, Job.absent,
    Job.waits, Task.waits]
  spent _ member := absurd member not_mem_nil
  compacted r compaction running := by simp [Requests.ring] at running
  idle id unstarted := by simp [Requests.job, Job.absent] at unstarted
  settles := rfl

theorem filter_length_le {p q : Nat → Bool} {list : List Nat}
    (weaker : ∀ id ∈ list, p id = true → q id = true) :
    (list.filter p).length ≤ (list.filter q).length := by
  rw [← countP_eq_length_filter, ← countP_eq_length_filter]
  exact countP_mono_left weaker

theorem Delivered.keep (delivered : s.Delivered) (next : t.nextId = s.nextId)
    (rings : ∀ r, (t.ring r).compaction = (s.ring r).compaction ∧
      ((t.ring r).queue = (s.ring r).queue ∨ (t.ring r).queue = []))
    (notifications : ∀ id, (t.job id).notifications = (s.job id).notifications)
    (live : ∀ id, t.isLive id = true → s.isLive id = true ∧ id ∈ t.jobs)
    (waits : ∀ id, (t.job id).waits ≤ (s.job id).waits)
    (open_ : ∀ id ∈ t.jobs, (t.job id).result = none → (t.job id).discarded = false →
      id ∈ s.jobs ∧ (s.job id).result = none ∧ (s.job id).discarded = false)
    (idle : ∀ id, (t.job id).worker = .idle →
      (s.job id).worker = .idle ∧ (t.job id).timer = .idle ∧ (t.job id).result = none)
    (violated : t.violated = s.violated) : t.Delivered := by
  have entries : ∀ r, (t.ring r).entries.Sublist (s.ring r).entries := by
    intro r
    obtain ⟨compaction, queue⟩ := rings r
    simp only [Ring.entries, compaction]
    rcases queue with same | empty
    · rw [same]
    · rw [empty]
      exact sublist_append_right _ _
  have fewer : ∀ id, t.tokens id ≤ s.tokens id := by
    intro id
    simp only [Requests.tokens, notifications id]
    exact Nat.add_le_add (waits id) ((entries _).count_le id)
  constructor
  · exact fun id lives => (live id lives).2
  · intro r id member
    rw [next, notifications id]
    exact delivered.placed r id ((entries r).subset member)
  · exact fun id => (fewer id).trans (delivered.tokens id)
  · intro id member unset kept
    obtain ⟨member', unset', kept'⟩ := open_ id member unset kept
    exact Nat.le_zero.mp ((fewer id).trans (delivered.spent id member' unset' kept').le)
  · intro r compaction running
    obtain ⟨same, queue⟩ := rings r
    rw [same] at running
    obtain ⟨bound, started⟩ := delivered.compacted r compaction running
    refine ⟨?_, fun unstarted => started (idle _ unstarted).1⟩
    have still : ((t.ring r).queue.filter t.isLive).length ≤
        ((s.ring r).queue.filter s.isLive).length := by
      rcases queue with same | empty
      · rw [same]
        exact filter_length_le fun id _ lives => (live id lives).1
      · simp [empty]
    omega
  · exact fun id unstarted => (idle id unstarted).2
  · exact violated.trans delivered.settles

variable {id : Nat}

/-- Changing one job, as far as `Delivered` looks at it. -/
theorem Delivered.setJob (delivered : s.Delivered) (job : Job) {jobs : List Nat}
    (rest : jobs.Sublist s.jobs) (others : ∀ other, other ≠ id → other ∈ s.jobs → other ∈ jobs)
    (t : Requests) (next : t.nextId = s.nextId) (heap : t.job = (s.setJob id job).job)
    (rings : t.rings = s.rings) (same : t.jobs = jobs) (violated : t.violated = s.violated)
    (notifications : job.notifications = (s.job id).notifications)
    (live : job.discarded = false → job.result.isSome = true → s.isLive id = true ∧ id ∈ jobs)
    (waits : job.waits ≤ (s.job id).waits)
    (open_ : id ∈ jobs → job.result = none → job.discarded = false →
      (s.job id).result = none ∧ (s.job id).discarded = false) (idle : job.worker = .idle →
      (s.job id).worker = .idle ∧ job.timer = .idle ∧ job.result = none) : t.Delivered := by
  have ring : ∀ r, t.ring r = s.ring r := fun r => by simp only [Requests.ring, rings]
  refine delivered.keep next (fun r => ⟨by rw [ring], .inl (by rw [ring])⟩) ?_ ?_ ?_ ?_ ?_ violated
  · intro other
    rw [heap, job_setJob]
    split
    · rename_i here
      rw [← here, notifications]
    · rfl
  · intro other lives
    simp only [isLive, heap, job_setJob, Bool.and_eq_true, Bool.not_eq_eq_eq_not,
      Bool.not_true] at lives
    split at lives
    · rename_i here
      rw [same, ← here]
      exact live lives.1 lives.2
    · rename_i apart
      have lives' : s.isLive other = true := by simp [isLive, lives]
      exact ⟨lives', same ▸ others other (Ne.symm apart) (delivered.live other lives')⟩
  · intro other
    rw [heap, job_setJob]
    split
    · rename_i here
      exact here ▸ waits
    · exact Nat.le_refl _
  · intro other member unset kept
    rw [same] at member
    rw [heap, job_setJob] at unset kept
    split at unset
    · rename_i here
      simp only [here, if_true] at kept
      exact here ▸ ⟨rest.subset (here ▸ member), open_ (here ▸ member) unset kept⟩
    · rename_i apart
      rw [if_neg apart] at kept
      exact ⟨rest.subset member, unset, kept⟩
  · intro other unstarted
    rw [heap, job_setJob] at unstarted ⊢
    split at unstarted
    · rename_i here
      rw [if_pos here]
      exact here ▸ idle unstarted
    · rename_i apart
      rw [if_neg apart]
      exact ⟨unstarted, delivered.idle other unstarted⟩

/-- Another task state than `enqueueing` for one or both tasks. -/
theorem Delivered.setTasks (delivered : s.Delivered) (job : Job) {jobs : List Nat}
    (rest : jobs.Sublist s.jobs) (others : ∀ other, other ≠ id → other ∈ s.jobs → other ∈ jobs)
    (t : Requests) (next : t.nextId = s.nextId) (heap : t.job = (s.setJob id job).job)
    (rings : t.rings = s.rings) (same : t.jobs = jobs) (violated : t.violated = s.violated)
    (notifications : job.notifications = (s.job id).notifications)
    (discarded : job.discarded = (s.job id).discarded) (result : job.result = (s.job id).result)
    (stays : job.discarded = false → job.result.isSome = true → id ∈ s.jobs → id ∈ jobs)
    (waits : job.waits ≤ (s.job id).waits) (idle : job.worker = .idle →
      (s.job id).worker = .idle ∧ job.timer = .idle ∧ job.result = none) : t.Delivered := by
  refine delivered.setJob job rest others t next heap rings same violated notifications ?_ waits ?_
    idle
  · intro kept set
    have lives : s.isLive id = true := by simp [isLive, ← discarded, ← result, kept, set]
    exact ⟨lives, stays kept set (delivered.live id lives)⟩
  · exact fun _ unset kept => ⟨result ▸ unset, discarded ▸ kept⟩

theorem erase_others (jobs : List Nat) (id : Nat) :
    ∀ other, other ≠ id → other ∈ jobs → other ∈ jobs.erase id :=
  fun _ apart member => (mem_erase_of_ne apart).mpr member

theorem Delivered.launch (delivered : s.Delivered) (id : Nat) (spawned : Bool) :
    (s.launch id spawned).Delivered := by
  unfold Requests.launch
  simp only
  split
  · exact delivered
  rename_i idle
  rw [ne_eq, not_not] at idle
  obtain ⟨_, unset⟩ := delivered.idle id idle
  cases spawned with
  | true =>
    refine delivered.setTasks { s.job id with worker := .running, timer := .running }
      (List.Sublist.refl _) (fun _ _ member => member) _ rfl rfl rfl rfl rfl rfl rfl rfl
      (fun _ _ member => member) (Nat.zero_le _) (by simp)
  | false =>
    refine delivered.setTasks { s.job id with worker := .finished, timer := .finished }
      erase_sublist (erase_others _ _) _ rfl rfl rfl rfl rfl rfl rfl rfl ?_ (Nat.zero_le _)
      (by simp)
    intro _ set
    simp [unset] at set

theorem Delivered.finish (delivered : s.Delivered) (id : Nat) (outcome : Outcome) :
    (s.finish id outcome).Delivered := by
  unfold Requests.finish
  simp only
  split
  · exact delivered
  have stays : ∀ other, (other ≠ id ∨ (s.job id).discarded = false) → other ∈ s.jobs →
      other ∈ if (s.job id).discarded then s.jobs.erase id else s.jobs := by
    intro other kept member
    split
    · rename_i discarded
      rw [discarded] at kept
      exact erase_others _ _ _ (kept.resolve_right Bool.noConfusion) member
    · exact member
  refine delivered.setTasks { s.job id with worker := .completing outcome } ?_
    (fun other apart => stays other (.inl apart)) _ rfl rfl rfl rfl rfl rfl rfl rfl
    (fun kept _ => stays id (.inr kept)) ?_ (by simp)
  · split
    · exact erase_sublist
    · exact List.Sublist.refl _
  · simp [Job.waits, Task.waits]

theorem Delivered.setTimer (delivered : s.Delivered) {task : Task}
    (running : (s.job id).timer = .running) (quiet : task.waits = 0) :
    (s.setJob id { s.job id with timer := task }).Delivered := by
  refine delivered.setTasks { s.job id with timer := task } (List.Sublist.refl _)
    (fun _ _ member => member) _ rfl rfl rfl rfl rfl rfl rfl rfl (fun _ _ member => member) ?_ ?_
  · simp [Job.waits, quiet]
  · intro unstarted
    have other := (delivered.idle id unstarted).1
    rw [running] at other
    contradiction

theorem setTask_waits (job : Job) (party : Party) (task : Task) :
    (job.setTask party task).waits + (job.task party).waits = job.waits + task.waits := by
  cases party <;> simp only [Job.setTask, Job.waits, Job.task] <;> omega

section
variable (delivered : s.Delivered)
include delivered

variable {party : Party}

theorem Delivered.setTask {task : Task}
    (started : (s.job id).worker ≠ .idle) (quiet : task.waits = 0) (still : task ≠ .idle) :
    (s.setJob id ((s.job id).setTask party task)).Delivered := by
  have waits := setTask_waits (s.job id) party task
  refine delivered.setTasks ((s.job id).setTask party task) (List.Sublist.refl _)
    (fun _ _ member => member) _ rfl rfl rfl rfl rfl ?_ ?_ ?_ (fun _ _ member => member)
    (by omega) ?_
  · cases party <;> rfl
  · cases party <;> rfl
  · cases party <;> rfl
  · intro unstarted
    cases party with
    | worker => exact absurd unstarted still
    | timer => exact absurd unstarted started

theorem Delivered.started (busy : (s.job id).task party ≠ .idle) : (s.job id).worker ≠ .idle := by
  cases party with
  | worker => exact busy
  | timer => exact fun unstarted => busy (delivered.idle id unstarted).1

/-- A request that ends or is dropped leaves the table, and its completion is dead. -/
theorem Delivered.leave (table : s.Table) (job : Job)
    (dead : job.discarded = true ∨ job.result = none) (t : Requests) (next : t.nextId = s.nextId)
    (heap : t.job = (s.setJob id job).job) (rings : t.rings = s.rings)
    (jobs : t.jobs = s.jobs.erase id) (violated : t.violated = s.violated)
    (notifications : job.notifications = (s.job id).notifications)
    (worker : job.worker = (s.job id).worker) (timer : job.timer = (s.job id).timer)
    (result : job.result = none ∨ job.result = (s.job id).result) : t.Delivered := by
  refine delivered.setJob job erase_sublist (erase_others _ _) t next heap rings jobs violated
    notifications ?_ ?_ ?_ ?_
  · intro kept set
    rcases dead with discarded | unset
    · rw [kept] at discarded
      contradiction
    · rw [unset] at set
      contradiction
  · simp only [Job.waits, worker, timer, Nat.le_refl]
  · exact fun member => absurd member (List.Nodup.not_mem_erase table.distinct)
  · intro unstarted
    rw [worker] at unstarted
    obtain ⟨idle, unset⟩ := delivered.idle id unstarted
    exact ⟨unstarted, timer.trans idle,
      result.elim (fun none => none) fun same => same.trans unset⟩

theorem Delivered.status (table : s.Table) (owner id : Nat) : (s.status owner id).Delivered := by
  unfold Requests.status
  simp only
  split
  · exact delivered
  split
  · exact delivered.leave table { s.job id with result := none } (.inr rfl) _ rfl rfl rfl rfl rfl rfl
      rfl rfl (.inl rfl)
  · exact delivered.keep rfl (fun _ => ⟨rfl, .inl rfl⟩) (fun _ => rfl)
      (fun id lives => ⟨lives, delivered.live id lives⟩) (fun _ => Nat.le_refl _)
      (fun _ member unset kept => ⟨member, unset, kept⟩)
      (fun id unstarted => ⟨unstarted, delivered.idle id unstarted⟩) rfl

theorem Delivered.statusEnds (table : s.Table) (late : Bool) : (s.statusEnds late).Delivered := by
  unfold Requests.statusEnds
  split
  · exact delivered
  rename_i owner id held
  split
  · exact delivered.leave table { s.job id with discarded := true } (.inl rfl) _ rfl rfl rfl rfl rfl
      rfl rfl rfl (.inr rfl)
  · exact delivered.keep rfl (fun _ => ⟨rfl, .inl rfl⟩) (fun _ => rfl)
      (fun id lives => ⟨lives, delivered.live id lives⟩) (fun _ => Nat.le_refl _)
      (fun _ member unset kept => ⟨member, unset, kept⟩)
      (fun id unstarted => ⟨unstarted, delivered.idle id unstarted⟩) rfl

theorem Delivered.discard (table : s.Table) (id : Nat) : (s.discard id).Delivered :=
  delivered.leave table { s.job id with discarded := true } (.inl rfl) _ rfl rfl rfl rfl rfl rfl rfl
    rfl (.inr rfl)

theorem Delivered.takeOne (table : s.Table) (owner id : Nat) : (takeOne owner s id).Delivered := by
  unfold Requests.takeOne
  simp only
  split
  · exact delivered.leave table { s.job id with result := none } (.inr rfl) _ rfl rfl rfl rfl rfl rfl
      rfl rfl (.inl rfl)
  · exact delivered

theorem Delivered.empty {ring : Ring}
    (compaction : ring.compaction = (s.ring id).compaction) (queue : ring.queue = []) :
    (s.setRing id ring).Delivered := by
  refine delivered.keep rfl (fun r => ?_) (fun _ => rfl)
    (fun id lives => ⟨lives, delivered.live id lives⟩) (fun _ => Nat.le_refl _)
    (fun _ member unset kept => ⟨member, unset, kept⟩)
      (fun id unstarted => ⟨unstarted, delivered.idle id unstarted⟩) rfl
  rw [ring_setRing]
  split
  · rename_i here
    exact here ▸ ⟨compaction, .inr queue⟩
  · exact ⟨rfl, .inl rfl⟩

/-- A change of one ring that adds at most one entry, whose only token it is. -/
theorem Delivered.setRing {r : Nat} {ring : Ring} (new : Option Nat)
    (counts : ∀ id, ring.entries.count id ≤
      (s.ring r).entries.count id + if new = some id then 1 else 0)
    (admitted : ∀ id, new = some id → id < s.nextId ∧ (s.job id).notifications = r ∧
      s.tokens id = 0 ∧ ¬ (id ∈ s.jobs ∧ (s.job id).result = none ∧ (s.job id).discarded = false))
    (compacted : ∀ compaction, ring.compaction = some compaction →
      compaction.live.length + (ring.queue.filter s.isLive).length ≤ requestLimit ∧
        (s.job compaction.job).worker ≠ .idle) :
    (s.setRing r ring).Delivered := by
  have tokens : ∀ id, (s.setRing r ring).tokens id ≤
      s.tokens id + if new = some id then 1 else 0 := by
    intro id
    simp only [Requests.tokens, job_setRing, ring_setRing]
    split
    · rename_i here
      have bound := counts id
      rw [← here]
      omega
    · omega
  constructor
  · exact delivered.live
  · intro r' id member
    rw [ring_setRing] at member
    split at member
    · rename_i here
      subst here
      by_cases added : new = some id
      · obtain ⟨known, names, _⟩ := admitted id added
        exact ⟨known, names⟩
      · have bound := counts id
        rw [if_neg added, Nat.add_zero] at bound
        exact delivered.placed r id
          (count_pos_iff.mp (Nat.lt_of_lt_of_le (count_pos_iff.mpr member) bound))
    · exact delivered.placed r' id member
  · intro id
    have bound := tokens id
    split at bound
    · rename_i added
      rw [(admitted id added).2.2.1] at bound
      exact bound
    · exact bound.trans (delivered.tokens id)
  · intro id member unset kept
    have bound := tokens id
    rw [if_neg fun added => (admitted id added).2.2.2 ⟨member, unset, kept⟩] at bound
    exact Nat.le_zero.mp (bound.trans (delivered.spent id member unset kept).le)
  · intro r' compaction running
    rw [ring_setRing] at running ⊢
    split at running
    · rename_i here
      rw [if_pos here]
      exact compacted compaction running
    · rename_i apart
      rw [if_neg apart]
      exact delivered.compacted r' compaction running
  · exact delivered.idle
  · exact delivered.settles

theorem Delivered.complete {upgraded : Bool}
    (once : s.completesOnce (.complete id party upgraded) = true) :
    (s.complete id party upgraded).Delivered := by
  unfold Requests.complete
  simp only
  split
  · rename_i outcome here
    have started : (s.job id).worker ≠ .idle := delivered.started (show (s.job id).task party ≠ .idle by simp [here])
    split
    · exact delivered.setTask started rfl (by simp)
    rename_i fresh
    rw [not_or, Bool.not_eq_true, Bool.not_eq_true, isSome_eq_false_iff,
      isNone_iff_eq_none] at fresh
    obtain ⟨unset, kept⟩ := fresh
    have member : id ∈ s.jobs := by simpa [completesOnce, here, unset, kept] using once
    have none := delivered.spent id member unset kept
    generalize completed : (if upgraded = true then Task.enqueueing else Task.finished) = task
    have still : task ≠ .idle := by
      rw [← completed]
      split <;> simp
    have small : task.waits ≤ 1 := by
      unfold Task.waits
      split <;> decide
    have waits := setTask_waits ((s.job id).setResult outcome) party task
    have before : ((s.job id).setResult outcome).waits = (s.job id).waits := rfl
    have same : (((s.job id).setResult outcome).setTask party task).notifications =
        (s.job id).notifications := by
      cases party <;> rfl
    have result : (((s.job id).setResult outcome).setTask party task).result =
        some outcome := by
      cases party <;> rfl
    have absent : ∀ r, id ∉ (s.ring r).entries := by
      intro r there
      have held := delivered.placed r id there
      simp only [Requests.tokens, held.2] at none
      have counted := count_pos_iff.mpr there
      omega
    have live : ∀ other, other ≠ id → (s.setJob id
        (((s.job id).setResult outcome).setTask party task)).isLive other =
        s.isLive other := by
      intro other apart
      simp only [isLive, job_setJob, if_neg (Ne.symm apart)]
    constructor
    · intro other lives
      by_cases same : other = id
      · exact same ▸ member
      · exact delivered.live other (live other same ▸ lives)
    · intro r other there
      have held := delivered.placed r other there
      refine ⟨held.1, ?_⟩
      rw [job_setJob]
      split
      · rename_i here
        exact same.trans (here ▸ held.2)
      · exact held.2
    · intro other
      simp only [Requests.tokens, job_setJob]
      split
      · rename_i here
        simp only [Requests.tokens] at none
        rw [same, ring_setJob, ← here]
        omega
      · exact delivered.tokens other
    · intro other there unset' kept'
      rw [job_setJob] at unset'
      split at unset'
      · rw [result] at unset'
        contradiction
      · rename_i apart
        rw [job_setJob, if_neg apart] at kept'
        have spent := delivered.spent other there unset' kept'
        simp only [Requests.tokens, job_setJob, if_neg apart]
        exact spent
    · intro r compaction running
      obtain ⟨bound, launched⟩ := delivered.compacted r compaction running
      have filtered : (s.ring r).queue.filter (s.setJob id
          (((s.job id).setResult outcome).setTask party task)).isLive =
          (s.ring r).queue.filter s.isLive := by
        refine filter_congr fun other there => live other ?_
        rintro rfl
        exact absent r (mem_append_left _ there)
      rw [ring_setJob, filtered]
      refine ⟨bound, ?_⟩
      rw [job_setJob]
      split
      · cases party
        · exact still
        · exact started
      · exact launched
    · intro other unstarted
      rw [job_setJob] at unstarted ⊢
      split at unstarted
      · cases party with
        | worker => exact absurd unstarted still
        | timer => exact absurd unstarted started
      · rename_i apart
        rw [if_neg apart]
        exact delivered.idle other unstarted
    · exact delivered.settles
  · exact delivered

end

theorem setTask_notifications (job : Job) (party : Party) (task : Task) :
    (job.setTask party task).notifications = job.notifications := by
  cases party <;> rfl

section
variable (delivered : s.Delivered)
include delivered

/-- The entries of a ring are distinct, so its live ones are as many requests. -/
theorem Delivered.live_length (table : s.Table) (r : Nat) :
    ((s.ring r).queue.filter s.isLive).length ≤ requestLimit := by
  have distinct : (s.ring r).queue.Nodup := by
    refine nodup_iff_count_le_one.mpr fun id => ?_
    by_cases member : id ∈ (s.ring r).entries
    · have bound := delivered.tokens id
      simp only [Requests.tokens, (delivered.placed r id member).2, Ring.entries,
        count_append] at bound
      omega
    · rw [count_eq_zero_of_not_mem fun there => member (mem_append_left _ there)]
      exact Nat.zero_le 1
  have within : (s.ring r).queue.filter s.isLive ⊆ s.jobs :=
    fun id there => delivered.live id (mem_filter.mp there).2
  exact (subperm_of_subset (distinct.filter _) within).length_le.trans table.bounded

theorem Delivered.enqueue (table : s.Table) (id : Nat) (party : Party) :
    (s.enqueue id party).Delivered := by
  unfold Requests.enqueue
  simp only
  split
  · exact delivered
  rename_i free
  rw [not_or, ne_eq, not_not, Bool.not_eq_true, isSome_eq_false_iff,
    isNone_iff_eq_none] at free
  obtain ⟨waiting, idle⟩ := free
  have started : (s.job id).worker ≠ .idle :=
    delivered.started (show (s.job id).task party ≠ .idle by simp [waiting])
  have known := task_known table waiting (by simp)
  have bound := delivered.tokens id
  have unspent := delivered.spent id
  simp only [Requests.tokens] at bound unspent
  -- once the task does not wait any more, nothing of `id` is on its way
  have moved : ∀ task : Task, task.waits = 0 → task ≠ .idle →
      (s.setJob id ((s.job id).setTask party task)).Delivered ∧
        (s.setJob id ((s.job id).setTask party task)).tokens id = 0 ∧
        ((s.setJob id ((s.job id).setTask party task)).job id).notifications =
          (s.job id).notifications ∧
        ¬ (id ∈ s.jobs ∧ ((s.setJob id ((s.job id).setTask party task)).job id).result = none ∧
          ((s.setJob id ((s.job id).setTask party task)).job id).discarded = false) := by
    intro task quiet still
    have waits := setTask_waits (s.job id) party task
    have one : ((s.job id).task party).waits = 1 := by rw [waiting]; rfl
    have same := setTask_notifications (s.job id) party task
    refine ⟨delivered.setTask started quiet still, ?_, ?_, ?_⟩
    · simp only [Requests.tokens, job_setJob, if_true, same, ring_setJob]
      omega
    · rw [job_setJob, if_pos rfl, same]
    · rw [job_setJob, if_pos rfl]
      rintro ⟨member, unset, kept⟩
      have result : (s.job id).result = none := by cases party <;> exact unset
      have discarded : (s.job id).discarded = false := by cases party <;> exact kept
      have none := unspent member result discarded
      omega
  split
  · exact delivered.setTask started rfl (by simp)
  split
  · obtain ⟨delivered', none, names, spent⟩ := moved .finished rfl (by simp)
    refine delivered'.setRing (some id) (fun other => ?_) ?_ ?_
    · simp only [Ring.entries, idle, ring_setJob, count_append, map_none,
        getD_none, count_nil, count_singleton, Option.some.injEq, beq_iff_eq]
      split <;> omega
    · rintro _ ⟨⟩
      exact ⟨known, names, none, spent⟩
    · intro compaction running
      simp [idle] at running
  · obtain ⟨delivered', none, names, spent⟩ := moved .compacting rfl (by simp)
    have table' : (s.setJob id ((s.job id).setTask party .compacting)).Table :=
      table.setJob _ known (setTask_owner ..) (setTask_working (by simp))
    refine delivered'.setRing (some id) (fun other => ?_) ?_ ?_
    · simp only [Ring.entries, idle, ring_setJob, count_append, map_none,
        map_some, getD_none, getD_some, count_nil, count_singleton,
        Option.some.injEq, beq_iff_eq]
      split <;> omega
    · rintro _ ⟨⟩
      exact ⟨known, names, none, spent⟩
    · rintro compaction ⟨⟩
      refine ⟨?_, ?_⟩
      · simpa using delivered'.live_length table' (s.job id).notifications
      · rw [job_setJob, if_pos rfl]
        cases party
        · exact Task.noConfusion
        · exact started

theorem Delivered.inspect (id : Nat) : (s.inspect id).Delivered := by
  unfold Requests.inspect
  simp only
  split
  · rename_i compaction old queue running queued
    obtain ⟨bound, started⟩ := delivered.compacted id compaction running
    rw [queued] at bound
    cases lives : s.isLive old with
    | true =>
      rw [filter_cons_of_pos lives, length_cons] at bound
      refine delivered.setRing none (fun other => ?_) (fun _ none => by simp at none) ?_
      · simp only [Ring.entries, running, queued, map_some, getD_some, if_true,
          count_append, count_cons, count_nil]
        omega
      · rintro _ ⟨⟩
        simp only [if_true, length_append, length_singleton]
        exact ⟨by omega, started⟩
    | false =>
      rw [filter_cons_of_neg (by simp [lives])] at bound
      refine delivered.setRing none (fun other => ?_) (fun _ none => by simp at none) ?_
      · simp only [Ring.entries, running, queued, map_some, getD_some,
          Bool.false_eq_true, if_false, count_append, count_cons, count_nil]
        omega
      · rintro _ ⟨⟩
        exact ⟨bound, started⟩
  · exact delivered

theorem Delivered.settle (id : Nat) : (s.settle id).Delivered := by
  unfold Requests.settle
  simp only
  split
  · rename_i compaction running queued
    obtain ⟨bound, started⟩ := delivered.compacted id compaction running
    have room : compaction.live.length < ringLimit :=
      Nat.lt_of_le_of_lt (Nat.le_of_add_right_le bound) (by decide)
    rw [if_pos room]
    have settled : (s.setRing id
        { s.ring id with queue := compaction.live ++ [compaction.job], compaction := none }).Delivered := by
      refine delivered.setRing none (fun other => ?_) (fun _ none => by simp at none)
        (fun _ none => by simp at none)
      simp [Ring.entries, running, queued]
    exact settled.setTask started rfl (by simp)
  · exact delivered

theorem Delivered.begin (owner notifications : Nat) : (s.begin owner notifications).Delivered := by
  unfold Requests.begin
  split
  · exact delivered
  have job : ∀ id, Requests.job { s.setJob s.nextId { owner, notifications } with
      nextId := s.nextId + 1, active := some s.nextId, jobs := s.nextId :: s.jobs } id =
      if s.nextId = id then { owner, notifications } else s.job id :=
    fun id => job_setJob s s.nextId _ id
  have older : ∀ r, ∀ id ∈ (s.ring r).entries, s.nextId ≠ id :=
    fun r id member => Nat.ne_of_gt (delivered.placed r id member).1
  have fresh : ∀ r, (s.ring r).entries.count s.nextId = 0 :=
    fun r => count_eq_zero_of_not_mem fun member => older r _ member rfl
  have lives : ∀ id, Requests.isLive { s.setJob s.nextId { owner, notifications } with
      nextId := s.nextId + 1, active := some s.nextId, jobs := s.nextId :: s.jobs } id = true →
      s.isLive id = true := by
    intro id live
    simp only [isLive, job] at live ⊢
    split at live
    · simp at live
    · exact live
  have tokens : ∀ id, Requests.tokens { s.setJob s.nextId { owner, notifications } with
      nextId := s.nextId + 1, active := some s.nextId, jobs := s.nextId :: s.jobs } id =
      if s.nextId = id then 0 else s.tokens id := by
    intro id
    simp only [Requests.tokens, job]
    split
    · rename_i here
      subst here
      have quiet : ({ owner, notifications } : Job).waits = 0 := rfl
      rw [quiet, Nat.zero_add]
      exact fresh notifications
    · rfl
  constructor
  · exact fun id live => mem_cons_of_mem _ (delivered.live id (lives id live))
  · intro r id member
    obtain ⟨known, names⟩ := delivered.placed r id member
    rw [job, if_neg (older r id member)]
    exact ⟨Nat.lt_succ_of_lt known, names⟩
  · intro id
    rw [tokens]
    split
    · exact Nat.zero_le 1
    · exact delivered.tokens id
  · intro id member unset kept
    rw [tokens]
    split
    · rfl
    · rename_i apart
      rw [job, if_neg apart] at unset kept
      exact delivered.spent id ((mem_cons.mp member).resolve_left (Ne.symm apart)) unset kept
  · intro r compaction running
    obtain ⟨bound, started⟩ := delivered.compacted r compaction running
    have member : compaction.job ∈ (s.ring r).entries := by
      simp only [Ring.entries, show (s.ring r).compaction = some compaction from running]
      simp
    refine ⟨(Nat.add_le_add_left (filter_length_le fun id _ live => lives id live) _).trans bound, ?_⟩
    rw [job, if_neg (older r _ member)]
    exact started
  · intro id unstarted
    rw [job] at unstarted ⊢
    split
    · exact ⟨rfl, rfl⟩
    · rename_i apart
      rw [if_neg apart] at unstarted
      exact delivered.idle id unstarted
  · exact delivered.settles

end

structure Sound (s : Requests) : Prop where
  table : s.Table
  delivered : s.Delivered

theorem Sound.foldl {f : Requests → Nat → Requests}
    (one : ∀ s : Requests, s.Sound → s.checking = none → ∀ id, id < s.nextId →
      (f s id).Sound ∧ (f s id).checking = none ∧ (f s id).nextId = s.nextId)
    (sound : s.Sound) (unlocked : s.checking = none) (ids : List Nat)
    (known : ∀ id ∈ ids, id < s.nextId) : (ids.foldl f s).Sound := by
  induction ids generalizing s with
  | nil => exact sound
  | cons id rest ih =>
    obtain ⟨sound', unlocked', same⟩ := one s sound unlocked id (known id mem_cons_self)
    exact ih sound' unlocked' fun other member => same ▸ known other (mem_cons_of_mem _ member)

theorem Sound.releaseRealm (sound : s.Sound) (owner : Nat) (unlocked : s.checking = none) :
    (s.releaseRealm owner).Sound := by
  refine Sound.foldl (fun s sound unlocked id known => ?_) sound unlocked _ fun id member =>
    sound.table.fresh id (mem_filter.mp member).1
  exact ⟨⟨sound.table.discard known unlocked, sound.delivered.discard sound.table id⟩, unlocked, rfl⟩

/-- An entry that `take` looks up may name no request any more. -/
theorem takeOne_frame (owner : Nat) (s : Requests) (id : Nat) :
    (takeOne owner s id).checking = s.checking ∧ (takeOne owner s id).nextId = s.nextId := by
  unfold takeOne
  simp only
  split <;> exact ⟨rfl, rfl⟩

theorem Sound.takeAll (sound : s.Sound) (owner : Nat) (ids : List Nat)
    (unlocked : s.checking = none) : (ids.foldl (takeOne owner) s).Sound := by
  induction ids generalizing s with
  | nil => exact sound
  | cons id rest ih =>
    refine ih ⟨sound.table.takeOne owner id unlocked, sound.delivered.takeOne sound.table owner id⟩ ?_
    exact (takeOne_frame owner s id).1.trans unlocked

theorem Sound.taken (sound : s.Sound) (taken : List (Nat × List Nat)) :
    Sound { s with taken } := by
  constructor
  · exact sound.table.keep rfl (List.Sublist.refl _) rfl (fun _ => rfl) (fun _ _ => rfl)
      (fun _ _ held => .inl ⟨held, rfl⟩) sound.table.active
  · exact sound.delivered.keep rfl (fun _ => ⟨rfl, .inl rfl⟩) (fun _ => rfl)
      (fun id lives => ⟨lives, sound.delivered.live id lives⟩) (fun _ => Nat.le_refl _)
      (fun _ member unset kept => ⟨member, unset, kept⟩)
      (fun id unstarted => ⟨unstarted, sound.delivered.idle id unstarted⟩) rfl

theorem Sound.locked (sound : s.Sound) {after : Requests}
    (next : s.checking = none → after.Sound) : (s.locked after).Sound := by
  unfold Requests.locked
  split
  · exact sound
  · rename_i free
    rw [Bool.not_eq_true, isSome_eq_false_iff, isNone_iff_eq_none] at free
    exact next free

theorem Sound.perform (sound : s.Sound) {step : Step} (once : s.completesOnce step = true) :
    (s.perform step).Sound := by
  obtain ⟨table, delivered⟩ := sound
  have sound : s.Sound := ⟨table, delivered⟩
  cases step with
  | begin owner notifications =>
    exact sound.locked fun _ => ⟨table.begin owner notifications, delivered.begin owner _⟩
  | launch id spawned =>
    cases spawned with
    | true => exact ⟨table.launch id true Bool.noConfusion, delivered.launch id true⟩
    | false =>
      exact sound.locked fun free => ⟨table.launch id false fun _ => free, delivered.launch id false⟩
  | finish id outcome =>
    exact sound.locked fun free => ⟨table.finish id outcome free, delivered.finish id outcome⟩
  | expire id =>
    simp only [Requests.perform]
    split
    · rename_i running
      have known : id < s.nextId := table.known (not_absent fun done => by simp [running] at done)
      exact ⟨table.setJob { s.job id with timer := .completing denied } known rfl fun works => works,
        delivered.setTimer running rfl⟩
    · exact sound
  | notified id =>
    simp only [Requests.perform]
    split
    · rename_i running
      have known : id < s.nextId := table.known (not_absent fun done => by simp [running] at done)
      exact ⟨table.setJob { s.job id with timer := .finished } known rfl fun works => works,
        delivered.setTimer running rfl⟩
    · exact sound
  | complete id party upgraded => exact ⟨table.complete id party upgraded, delivered.complete once⟩
  | enqueue id party => exact ⟨table.enqueue id party, delivered.enqueue table id party⟩
  | inspect id =>
    refine ⟨?_, delivered.inspect id⟩
    simp only [Requests.perform, Requests.inspect]
    split
    · exact table.setRing _ _
    · exact table
  | settle id =>
    refine ⟨table.settle (fun r compaction running => ?_) id, delivered.settle id⟩
    refine (delivered.placed r compaction.job ?_).1
    simp [Ring.entries, running]
  | status owner id =>
    exact sound.locked fun free => ⟨table.status owner id free, delivered.status table owner id⟩
  | statusEnds late => exact ⟨table.statusEnds late, delivered.statusEnds table late⟩
  | abort owner id =>
    refine sound.locked fun free => ?_
    unfold Requests.abort
    split
    · rename_i found
      exact ⟨table.discard (table.fresh id found.1) free, delivered.discard table id⟩
    · exact sound
  | releaseRealm owner => exact sound.locked fun free => sound.releaseRealm owner free
  | drain owner id =>
    simp only [Requests.perform]
    split
    · exact sound
    · have emptied : (s.setRing id { s.ring id with queue := [] }).Sound :=
        ⟨table.setRing _ _, delivered.empty rfl rfl⟩
      exact emptied.taken _
  | collect =>
    refine sound.locked fun free => ?_
    unfold Requests.collect
    split
    · exact sound
    · rename_i owner ids taken _
      exact (sound.taken taken).takeAll owner ids free
  | close id =>
    simp only [Requests.perform]
    split
    · exact sound
    · exact ⟨table.setRing _ _, delivered.empty rfl rfl⟩

/-- Each request ends with at most one answer, to its owner; there is one worker at a
time; and a compaction never finds its ring full of live completions. -/
theorem reached_delivery
    (run : Reachable (fun s => s = {})
      (restrict (fun s step t => perform s step = t) fun s step => s.completesOnce step = true) s) :
    (s.answers.map Prod.fst).Nodup ∧
      (∀ answer ∈ s.answers, (s.job answer.1).owner = answer.2) ∧
      (∀ id id', (s.job id).Working → (s.job id').Working → id = id') ∧
      s.violated = false := by
  have sound : s.Sound := by
    refine run.invariant ?_ ?_
    · rintro _ rfl
      exact ⟨table_start, delivered_start⟩
    · rintro before step _ - sound ⟨rfl, once⟩
      exact sound.perform once
  refine ⟨sound.table.once, fun answer member => (sound.table.ended answer member).2.2, ?_,
    sound.delivered.settles⟩
  intro id id' working working'
  exact Option.some.inj ((sound.table.active id working).symm.trans (sound.table.active id' working'))

def delivery : List Step :=
  [.begin 7 0, .launch 1 true, .finish 1 (.ok "credential"), .complete 1 .worker true,
    .enqueue 1 .worker, .drain 7 0, .collect, .status 7 1, .notified 1]

theorem reached_delivery_taken : ∃ s : Requests, delivery.foldl perform {} = s ∧
    s.answers = [(1, 7)] ∧ (s.job 1).owner = 7 ∧ s.violated = false := by
  have run : Reachable (fun s => s = {}) (restrict (fun s step t => perform s step = t)
      fun s step => s.completesOnce step = true) (delivery.foldl perform {}) :=
    Reachable.run_meeting delivery (.start rfl) (by decide +kernel)
  have answers : (delivery.foldl perform {}).answers = [(1, 7)] := by decide +kernel
  obtain ⟨-, owners, -, settles⟩ := reached_delivery run
  exact ⟨_, rfl, answers, owners (1, 7) (answers ▸ mem_singleton_self _), settles⟩

/-- A request that passes its deadline, is told so, and whose authenticator then comes
back leaves two live entries behind. -/
def lateWorker (id : Nat) : List Step :=
  [.begin 7 0, .launch id true, .expire id, .complete id .timer true, .enqueue id .timer,
    .status 7 id, .finish id denied, .complete id .worker true, .enqueue id .worker]

def overflow : List Step :=
  (List.range' 1 64).flatMap lateWorker ++
    [.begin 7 0, .launch 65 true, .expire 65, .complete 65 .timer true, .enqueue 65 .timer] ++
    List.replicate 128 (.inspect 0) ++ [.settle 0]

set_option maxRecDepth 20000 in
theorem compaction_overflows : ∃ s : Requests,
    Reachable (fun s => s = {}) (fun s step t => perform s step = t) s ∧ s.violated = true :=
  ⟨overflow.foldl perform {}, Reachable.run overflow (.start rfl), by decide +kernel⟩

end Requests
end Chuzz.WebAuthn
