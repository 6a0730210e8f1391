import Chuzz.WebAuthn.Requests

/-! Who is told the end of a request, and how many workers there are. Only a request of
the table is ended, ending it takes it out, and names are never used again. -/
namespace Chuzz.WebAuthn
open Std Library.Transition List

/-- Between `begin` and the section that clears `active`. -/
def Job.Working (job : Job) : Prop := job.worker = .idle ∨ job.worker = .running

namespace Requests
variable {s t : Requests}

@[simp] theorem job_setJob (s : Requests) (id : Nat) (job : Job) (other : Nat) :
    (s.setJob id job).job other = if id = other then job else s.job other := by
  simp only [Requests.job, setJob, ExtTreeMap.getElem?_insert, Std.compare_eq_iff_eq]
  split <;> rfl

@[simp] theorem ring_setRing (s : Requests) (id : Nat) (ring : Ring) (other : Nat) :
    (s.setRing id ring).ring other = if id = other then ring else s.ring other := by
  simp only [Requests.ring, setRing, ExtTreeMap.getElem?_insert, Std.compare_eq_iff_eq]
  split <;> rfl

@[simp] theorem job_setRing (s : Requests) (id : Nat) (ring : Ring) :
    (s.setRing id ring).job = s.job := rfl

@[simp] theorem ring_setJob (s : Requests) (id : Nat) (job : Job) :
    (s.setJob id job).ring = s.ring := rfl

structure Table (s : Requests) : Prop where
  fresh : ∀ id ∈ s.jobs, id < s.nextId
  absent : ∀ id, s.nextId ≤ id → s.job id = .absent
  distinct : s.jobs.Nodup
  bounded : s.jobs.length ≤ requestLimit
  ended : ∀ answer ∈ s.answers, answer.1 ∉ s.jobs ∧ answer.1 < s.nextId ∧
    (s.job answer.1).owner = answer.2
  once : (s.answers.map Prod.fst).Nodup
  checked : ∀ owner id, s.checking = some (owner, id) → id ∈ s.jobs ∧ (s.job id).owner = owner
  active : ∀ id, (s.job id).Working → s.active = some id

theorem table_start : Table {} where
  fresh _ member := absurd member not_mem_nil
  absent _ _ := rfl
  distinct := nodup_nil
  bounded := Nat.zero_le _
  ended _ member := absurd member not_mem_nil
  once := nodup_nil
  checked _ _ held := by simp at held
  active id working := by
    have absent : ({} : Requests).job id = .absent := rfl
    simp [absent, Job.Working, Job.absent] at working

theorem Table.keep (table : s.Table) (next : t.nextId = s.nextId) (jobs : t.jobs.Sublist s.jobs)
    (answers : t.answers = s.answers) (owners : ∀ id, (t.job id).owner = (s.job id).owner)
    (absent : ∀ id, s.nextId ≤ id → t.job id = s.job id)
    (checked : ∀ owner id, t.checking = some (owner, id) →
      s.checking = some (owner, id) ∧ t.jobs = s.jobs ∨ id ∈ t.jobs ∧ (s.job id).owner = owner)
    (active : ∀ id, (t.job id).Working → t.active = some id) : t.Table := by
  constructor
  · exact fun id member => next ▸ table.fresh id (jobs.subset member)
  · intro id newer
    rw [next] at newer
    rw [absent id newer, table.absent id newer]
  · exact table.distinct.sublist jobs
  · exact jobs.length_le.trans table.bounded
  · intro answer member
    rw [answers] at member
    obtain ⟨gone, known, owner⟩ := table.ended answer member
    exact ⟨fun there => gone (jobs.subset there), next ▸ known, (owners _).trans owner⟩
  · exact answers ▸ table.once
  · intro owner id held
    rw [owners]
    rcases checked owner id held with ⟨held, same⟩ | new
    · exact same ▸ table.checked owner id held
    · exact new
  · exact active

variable {id : Nat}

theorem setJob_frame (job : Job) (known : id < s.nextId) (owner : job.owner = (s.job id).owner) :
    (∀ other, ((s.setJob id job).job other).owner = (s.job other).owner) ∧
      ∀ other, s.nextId ≤ other → (s.setJob id job).job other = s.job other := by
  refine ⟨fun other => ?_, fun other newer => ?_⟩
  · rw [job_setJob]
    split
    · rename_i same
      rw [← same, owner]
    · rfl
  · rw [job_setJob, if_neg (Nat.ne_of_lt (Nat.lt_of_lt_of_le known newer))]

theorem Table.setJob (table : s.Table) (job : Job) (known : id < s.nextId)
    (owner : job.owner = (s.job id).owner) (working : job.Working → (s.job id).Working) :
    (s.setJob id job).Table := by
  obtain ⟨owners, absent⟩ := setJob_frame job known owner
  refine table.keep rfl (List.Sublist.refl _) rfl owners absent (fun _ _ held => .inl ⟨held, rfl⟩) ?_
  intro other works
  rw [job_setJob] at works
  split at works
  · rename_i same
    exact same ▸ table.active id (working works)
  · exact table.active other works

theorem Table.known (table : s.Table) (present : s.job id ≠ .absent) : id < s.nextId :=
  Nat.lt_of_not_le fun newer => present (table.absent id newer)

theorem Table.answer (table : s.Table) (member : id ∈ s.jobs) (job : Job)
    (owner : job.owner = (s.job id).owner) (working : job.Working → (s.job id).Working)
    {checking : Option (Nat × Nat)} (unlocked : checking = none) :
    Table { s.answer id (s.job id).owner job with checking } := by
  have known := table.fresh id member
  obtain ⟨owners, absent⟩ := setJob_frame job known owner
  have gone : id ∉ s.jobs.erase id := List.Nodup.not_mem_erase table.distinct
  constructor
  · exact fun other there => table.fresh other (mem_of_mem_erase there)
  · exact fun other newer => (absent other newer).trans (table.absent other newer)
  · exact table.distinct.erase id
  · exact (length_erase_le).trans table.bounded
  · intro answer there
    rcases mem_append.mp there with there | here
    · obtain ⟨left, older, told⟩ := table.ended answer there
      exact ⟨fun still => left (mem_of_mem_erase still), older, (owners _).trans told⟩
    · rw [mem_singleton.mp here]
      exact ⟨gone, known, owners id⟩
  · simp only [Requests.answer, map_append, map_cons, map_nil]
    refine nodup_append.mpr ⟨table.once, nodup_singleton _, ?_⟩
    rintro other there _ here rfl
    rw [mem_singleton] at here
    obtain ⟨answer, there, same⟩ := mem_map.mp there
    exact (table.ended answer there).1 (same.trans here ▸ member)
  · intro _ _ held
    rw [unlocked] at held
    contradiction
  · exact (table.setJob job known owner working).active

theorem Table.begin (table : s.Table) (owner notifications : Nat) :
    (s.begin owner notifications).Table := by
  unfold Requests.begin
  split
  · exact table
  rename_i free
  rw [not_or, Bool.not_eq_true, Option.isSome_eq_false_iff, Option.isNone_iff_eq_none] at free
  have new : ∀ other, other < s.nextId →
      (s.setJob s.nextId { owner, notifications }).job other = s.job other := by
    intro other older
    rw [job_setJob, if_neg (Nat.ne_of_gt older)]
  constructor
  · intro id member
    rcases mem_cons.mp member with rfl | member
    · exact Nat.lt_succ_self _
    · exact Nat.lt_succ_of_lt (table.fresh id member)
  · intro id newer
    have later : s.nextId ≠ id := Nat.ne_of_lt newer
    exact (job_setJob s s.nextId _ id).trans
      ((if_neg later).trans (table.absent id (Nat.le_of_succ_le newer)))
  · exact nodup_cons.mpr
      ⟨fun member => Nat.lt_irrefl _ (table.fresh _ member), table.distinct⟩
  · exact Nat.lt_of_not_le free.2
  · intro answer member
    obtain ⟨gone, older, told⟩ := table.ended answer member
    refine ⟨?_, Nat.lt_succ_of_lt older, ?_⟩
    · rw [mem_cons, not_or]
      exact ⟨Nat.ne_of_lt older, gone⟩
    · exact (congrArg Job.owner (new _ older)).trans told
  · exact table.once
  · intro owner' id held
    obtain ⟨member, told⟩ := table.checked owner' id held
    exact ⟨mem_cons_of_mem _ member,
      (congrArg Job.owner (new id (table.fresh id member))).trans told⟩
  · intro id working
    have works : ((s.setJob s.nextId { owner, notifications }).job id).Working := working
    rw [job_setJob] at works
    split at works
    · rename_i same
      exact congrArg some same
    · have busy := table.active id works
      rw [free.1] at busy
      contradiction

/-- The worker that leaves `id` behind is the one that `active` names. -/
theorem Table.cleared (table : s.Table) (job : Job) (known : id < s.nextId)
    (owner : job.owner = (s.job id).owner) (idle : ¬ job.Working) {jobs : List Nat}
    (fewer : jobs.Sublist s.jobs) (unlocked : s.checking = none) :
    Table { s.setJob id job with active := s.clear id, jobs } := by
  obtain ⟨owners, absent⟩ := setJob_frame job known owner
  refine table.keep rfl fewer rfl owners absent (fun _ _ held => ?_) ?_
  · have held' : s.checking = some _ := held
    rw [unlocked] at held'
    contradiction
  · intro other works
    have works' : ((s.setJob id job).job other).Working := works
    rw [job_setJob] at works'
    split at works'
    · exact absurd works' idle
    · rename_i apart
      have busy := table.active other works'
      have named : s.active ≠ some id := by
        rw [busy]
        exact fun same => apart (Option.some.inj same).symm
      exact (if_neg named).trans busy

theorem not_absent {job : Job} (task : ¬ (job.worker = .finished ∧ job.timer = .finished)) :
    job ≠ .absent := by
  rintro rfl
  exact task ⟨rfl, rfl⟩

theorem Table.launch (table : s.Table) (id : Nat) (spawned : Bool)
    (unlocked : spawned = false → s.checking = none) : (s.launch id spawned).Table := by
  unfold Requests.launch
  simp only
  split
  · exact table
  rename_i idle
  rw [ne_eq, not_not] at idle
  have known : id < s.nextId := table.known (not_absent fun done => by simp [idle] at done)
  cases spawned with
  | true =>
    exact table.setJob { s.job id with worker := .running, timer := .running } known rfl
      fun _ => .inl idle
  | false =>
    exact table.cleared { s.job id with worker := .finished, timer := .finished } known rfl
      (by simp [Job.Working]) erase_sublist (unlocked rfl)

theorem Table.finish (table : s.Table) (id : Nat) (outcome : Outcome)
    (unlocked : s.checking = none) : (s.finish id outcome).Table := by
  unfold Requests.finish
  simp only
  split
  · exact table
  rename_i running
  rw [ne_eq, not_not] at running
  have known : id < s.nextId := table.known (not_absent fun done => by simp [running] at done)
  refine table.cleared { s.job id with worker := .completing outcome } known rfl
    (by simp [Job.Working]) ?_ unlocked
  split
  · exact erase_sublist
  · exact List.Sublist.refl _

theorem setTask_owner (job : Job) (party : Party) (task : Task) :
    (job.setTask party task).owner = job.owner := by
  cases party <;> rfl

theorem setTask_working {job : Job} {party : Party} {task : Task}
    (busy : task ≠ .idle ∧ task ≠ .running) (working : (job.setTask party task).Working) :
    job.Working := by
  cases party with
  | worker => exact (working.elim busy.1 busy.2).elim
  | timer => exact working

section
variable (table : s.Table)
include table

theorem task_known {party : Party} {task : Task}
    (here : (s.job id).task party = task) (other : task ≠ .finished) : id < s.nextId := by
  refine table.known (not_absent fun done => other ?_)
  rw [← here]
  cases party
  · exact done.1
  · exact done.2

theorem Table.complete (id : Nat) (party : Party) (upgraded : Bool) :
    (s.complete id party upgraded).Table := by
  unfold Requests.complete
  simp only
  split
  · rename_i outcome here
    have known := task_known table here (by simp)
    split
    · exact table.setJob _ known (setTask_owner ..) (setTask_working (by simp))
    · refine table.setJob _ known (setTask_owner ..) fun working => ?_
      have unfinished := setTask_working (by cases upgraded <;> simp) working
      exact unfinished
  · exact table

theorem Table.setRing (id : Nat) (ring : Ring) : (s.setRing id ring).Table :=
  table.keep rfl (List.Sublist.refl _) rfl (fun _ => rfl) (fun _ _ => rfl)
    (fun _ _ held => .inl ⟨held, rfl⟩) table.active

theorem Table.enqueue (id : Nat) (party : Party) : (s.enqueue id party).Table := by
  unfold Requests.enqueue
  simp only
  split
  · exact table
  rename_i free
  rw [not_or, ne_eq, not_not] at free
  have known := task_known table free.1 (by simp)
  split
  · exact table.setJob _ known (setTask_owner ..) (setTask_working (by simp))
  split
  · exact (table.setRing _ _).setJob _ known (setTask_owner ..) (setTask_working (by simp))
  · exact (table.setRing _ _).setJob _ known (setTask_owner ..) (setTask_working (by simp))

theorem Table.settle (known : ∀ ring compaction, (s.ring ring).compaction = some compaction →
      compaction.job < s.nextId) (id : Nat) : (s.settle id).Table := by
  unfold Requests.settle
  simp only
  split
  · rename_i compaction compacting empty
    have older := known id compaction compacting
    split
    · exact (table.setRing _ _).setJob _ older (setTask_owner ..) (setTask_working (by simp))
    · have settled := (table.setRing id
        { s.ring id with queue := compaction.live, compaction := none }).setJob _ older
        (setTask_owner (s.job compaction.job) compaction.party .finished)
        (setTask_working (by simp))
      exact settled.keep rfl (List.Sublist.refl _) rfl (fun _ => rfl) (fun _ _ => rfl)
        (fun _ _ held => .inl ⟨held, rfl⟩) settled.active
  · exact table

theorem Table.status (owner id : Nat) (unlocked : s.checking = none) :
    (s.status owner id).Table := by
  unfold Requests.status
  simp only
  split
  · exact table
  rename_i found
  rw [not_or, not_not, ne_eq, not_not] at found
  obtain ⟨member, rfl⟩ := found
  split
  · have ended := table.answer member { s.job id with result := none } rfl (fun works => works)
      unlocked
    exact ended
  · refine table.keep rfl (List.Sublist.refl _) rfl (fun _ => rfl) (fun _ _ => rfl) ?_ table.active
    rintro _ _ ⟨⟩
    exact .inr ⟨member, rfl⟩

theorem Table.statusEnds (late : Bool) : (s.statusEnds late).Table := by
  unfold Requests.statusEnds
  split
  · exact table
  rename_i owner id held
  obtain ⟨member, rfl⟩ := table.checked owner id held
  split
  · exact table.answer member { s.job id with discarded := true } rfl (fun works => works) rfl
  · exact table.keep rfl (List.Sublist.refl _) rfl (fun _ => rfl) (fun _ _ => rfl)
      (fun _ _ held => by simp at held) table.active

theorem Table.discard (known : id < s.nextId) (unlocked : s.checking = none) :
    (s.discard id).Table := by
  obtain ⟨owners, absent⟩ := setJob_frame { s.job id with discarded := true } known rfl
  refine table.keep rfl erase_sublist rfl owners absent (fun _ _ held => ?_) ?_
  · have held' : s.checking = some _ := held
    rw [unlocked] at held'
    contradiction
  · exact (table.setJob { s.job id with discarded := true } known rfl fun works => works).active

theorem Table.takeOne (owner id : Nat) (unlocked : s.checking = none) :
    (takeOne owner s id).Table := by
  unfold Requests.takeOne
  simp only
  split
  · rename_i found
    obtain ⟨rfl, member, _⟩ := found
    exact table.answer member { s.job id with result := none } rfl (fun works => works) unlocked
  · exact table

end

end Requests
end Chuzz.WebAuthn
