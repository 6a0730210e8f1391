import Chuzz.Files.Reader

/-! What a step of a `FileReader` can do. -/
namespace Chuzz.Files.FileReader

/-- A task is at the position, and these are the others. -/
def Taken (reader : FileReader) (task : Task) (others : List Task) : Prop :=
  reader.frames = [] ∧ reader.tasks.Perm (task :: others)

/-- The label has done this to the reader. -/
inductive Moves (conversions : Conversions) (reader : FileReader) : Label → FileReader → Prop
  | stays {label} (other : label = .returns → reader.frames = []) :
      Moves conversions reader label reader
  | reads {request} (idle : reader.state ≠ .loading) : Moves conversions reader (.read (some request))
      { reader with
        state := .loading, result := none, error := none, generation := reader.generation + 1
        tasks := reader.tasks ++ [⟨⟨request, reader.generation + 1⟩, .timer⟩]
        accepted := reader.accepted ++ [reader.generation + 1], last := none }
  | aborts (loading : reader.state = .loading) : Moves conversions reader .abort
      ({ reader with
        generation := reader.generation + 1, result := none, last := none
        state := .done, error := none }.fire .abort reader.generation 0 none
          (.aborts reader.generation))
  | resets (idle : reader.state ≠ .loading) : Moves conversions reader .abort
      { reader with generation := reader.generation + 1, result := none, last := none }
  | skips {label task tasks} (taken : reader.Taken task tasks) (other : label ≠ .returns)
      (old : task.reading.generation ≠ reader.generation) :
      Moves conversions reader label { reader with tasks }
  | starts {index reading tasks} (taken : reader.Taken ⟨reading, .timer⟩ tasks)
      (live : reading.generation = reader.generation) : Moves conversions reader (.timer index)
      ({ reader with tasks }.fire .loadstart reading.generation 0 reading.request.blob.size
        (.begins reading))
  | fails {index answer reading tasks error} (taken : reader.Taken ⟨reading, .buffer⟩ tasks) :
      Moves conversions reader (.arrive index answer)
      { reader with
        tasks := tasks ++ [⟨reading, .caught error⟩]
        made := reader.made ++ [(reading.generation, .error error)] }
  | arrives {index answer reading tasks value} (taken : reader.Taken ⟨reading, .buffer⟩ tasks)
      (live : reading.generation = reader.generation) :
      Moves conversions reader (.arrive index answer)
      ({ reader with
        tasks, result := some value
        made := reader.made ++ [(reading.generation, Except.ok value)] }.fire .progress
          reading.generation reading.request.blob.size reading.request.blob.size (.loads reading))
  | catches {index reading error tasks} (taken : reader.Taken ⟨reading, .caught error⟩ tasks)
      (live : reading.generation = reader.generation) : Moves conversions reader (.fail index)
      ({ reader with tasks, state := .done, result := none, error := some error }.fire .error
        reading.generation 0 reading.request.blob.size (.ends reading 0))
  | drops {frame frames} (top : reader.frames = frame :: frames) (calm : ∀ read, frame ≠ .aborts read)
      (old : ∀ reading, frame = .begins reading ∨ frame = .loads reading →
        reading.generation ≠ reader.generation) :
      Moves conversions reader .returns { reader with frames }
  | begins {reading frames} (top : reader.frames = .begins reading :: frames)
      (live : reading.generation = reader.generation) : Moves conversions reader .returns
      { reader with frames, tasks := reader.tasks ++ [⟨reading, .buffer⟩] }
  | loads {reading frames} (top : reader.frames = .loads reading :: frames)
      (live : reading.generation = reader.generation) : Moves conversions reader .returns
      ({ reader with frames, state := .done }.fire .load reading.generation
        reading.request.blob.size reading.request.blob.size
          (.ends reading reading.request.blob.size))
  | ends {reading loaded frames} (top : reader.frames = .ends reading loaded :: frames)
      (live : reading.generation = reader.generation) : Moves conversions reader .returns
      ({ reader with frames }.fire .loadend reading.generation loaded reading.request.blob.size .rest)
  | strays {read frames} (top : reader.frames = .aborts read :: frames) :
      Moves conversions reader .returns ({ reader with frames }.fire .loadend read 0 none .rest)

theorem perm_eraseIdx {tasks : List Task} {index : Nat} {task : Task}
    (found : tasks[index]? = some task) : tasks.Perm (task :: tasks.eraseIdx index) := by
  obtain ⟨inside, same⟩ := List.getElem?_eq_some_iff.mp found
  subst same
  have perm := List.set_perm_cons_eraseIdx inside tasks[index]
  rwa [List.set_getElem_self] at perm

theorem take_cases {reader : FileReader} (index : Nat) (run : Task → FileReader → FileReader) :
    reader.take index run = reader ∨ ∃ task, reader.Taken task (reader.tasks.eraseIdx index) ∧
      reader.take index run = run task { reader with tasks := reader.tasks.eraseIdx index } := by
  unfold take
  split
  · rename_i task idle found
    exact .inr ⟨task, ⟨idle, perm_eraseIdx found⟩, rfl⟩
  · exact .inl rfl

variable {conversions : Conversions} {reader : FileReader}

theorem timer_moves (index : Nat) :
    Moves conversions reader (.timer index) (reader.timer index) := by
  unfold timer
  rcases take_cases index _ with same | ⟨⟨reading, stage⟩, taken, same⟩
  · rw [same]
    exact .stays nofun
  · rw [same]
    cases stage with
    | timer =>
      dsimp only
      split
      · rename_i old
        exact .skips taken nofun old
      · rename_i live
        exact .starts taken (not_not.mp live)
    | buffer => exact .stays nofun
    | caught error => exact .stays nofun

theorem arrive_moves (index : Nat) (answer : Except String Bytes) :
    Moves conversions reader (.arrive index answer) (reader.arrive conversions index answer) := by
  unfold arrive
  rcases take_cases index _ with same | ⟨⟨reading, stage⟩, taken, same⟩
  · rw [same]
    exact .stays nofun
  · rw [same]
    cases stage with
    | buffer =>
      cases answer with
      | error error => exact .fails taken
      | ok bytes =>
        dsimp only
        split
        · rename_i old
          exact .skips taken nofun old
        · rename_i live
          cases conversions.convert reading.request bytes with
          | error error => exact .fails taken
          | ok value => exact .arrives taken (not_not.mp live)
    | timer => exact .stays nofun
    | caught error => exact .stays nofun

theorem catches_moves (index : Nat) :
    Moves conversions reader (.fail index) (reader.catches index) := by
  unfold catches
  rcases take_cases index _ with same | ⟨⟨reading, stage⟩, taken, same⟩
  · rw [same]
    exact .stays nofun
  · rw [same]
    cases stage with
    | caught error =>
      dsimp only
      split
      · rename_i old
        exact .skips taken nofun old
      · rename_i live
        exact .catches taken (not_not.mp live)
    | timer => exact .stays nofun
    | buffer => exact .stays nofun

theorem returns_moves : Moves conversions reader .returns reader.returns := by
  unfold returns
  split
  · rename_i none
    exact .stays fun _ => none
  · rename_i frame frames top
    cases frame with
    | begins reading =>
      dsimp only
      split
      · rename_i old
        refine .drops top nofun ?_
        rintro other (same | same) <;> cases same
        exact old
      · rename_i live
        exact .begins top (not_not.mp live)
    | loads reading =>
      dsimp only
      split
      · rename_i old
        refine .drops top nofun ?_
        rintro other (same | same) <;> cases same
        exact old
      · rename_i live
        exact .loads top (not_not.mp live)
    | ends reading loaded =>
      dsimp only
      split
      · refine .drops top nofun ?_
        rintro other (same | same) <;> cases same
      · rename_i live
        exact .ends top (not_not.mp live)
    | aborts read => exact .strays top
    | rest =>
      refine .drops top nofun ?_
      rintro other (same | same) <;> cases same

theorem perform_moves (label : Label) :
    Moves conversions reader label (reader.perform conversions label) := by
  cases label with
  | read request =>
    cases request with
    | none => exact .stays nofun
    | some request =>
      change Moves conversions reader _ (reader.read (some request))
      unfold read
      dsimp only
      split
      · exact .stays nofun
      · rename_i idle
        exact .reads idle
  | abort =>
    change Moves conversions reader _ reader.abort
    unfold abort
    split
    · rename_i loading
      exact .aborts loading
    · rename_i idle
      exact .resets idle
  | timer index => exact timer_moves index
  | arrive index answer => exact arrive_moves index answer
  | fail index => exact catches_moves index
  | returns => exact returns_moves

end Chuzz.Files.FileReader
