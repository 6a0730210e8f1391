import Mathlib

/-! How the cookie jar is stored: as consecutive rows of at most 8 KiB. The table is not part of
the program; it is taken as a map from row ids to texts whose writes may fail. -/
namespace Chuzz.Cookies

def snapshotSlice : Nat := 8 * 1024

/-- `str::is_char_boundary`. -/
def isCharBoundary (text : String) (index : Nat) : Bool := String.Pos.Raw.isValid text ⟨index⟩

/-- `str::split_at`, which panics anywhere else than on a boundary. -/
def splitAt (text : String) (index : Nat) (boundary : isCharBoundary text index) :
    String × String :=
  let cut : text.Pos := ⟨⟨index⟩, String.Pos.Raw.isValid_eq_true_iff.mp boundary⟩
  ((text.sliceTo cut).copy, (text.sliceFrom cut).copy)

/-- Where the inner loop stops that steps back to a boundary. -/
def lastBoundary (rest : String) : Nat → Nat
  | 0 => 0
  | cut + 1 => if isCharBoundary rest (cut + 1) then cut + 1 else lastBoundary rest cut

section
variable {text : String} {index cut : Nat}

example : lastBoundary "" 0 = 0 := by rw [lastBoundary]

theorem lastBoundary_boundary (text : String) (cut : Nat) :
    isCharBoundary text (lastBoundary text cut) := by
  induction cut with
  | zero => exact String.Pos.Raw.isValid_eq_true_iff.mpr String.Pos.Raw.isValid_zero
  | succ cut ih =>
    rw [lastBoundary]
    split
    · assumption
    · exact ih

theorem lastBoundary_le (text : String) (cut : Nat) : lastBoundary text cut ≤ cut := by
  induction cut with
  | zero => exact Nat.le_refl 0
  | succ cut ih =>
    rw [lastBoundary]
    split <;> omega

theorem le_lastBoundary (boundary : isCharBoundary text index) (below : index ≤ cut) :
    index ≤ lastBoundary text cut := by
  induction cut with
  | zero => exact below
  | succ cut ih =>
    rw [lastBoundary]
    split
    · exact below
    · refine ih (Nat.le_of_lt_succ (lt_of_le_of_ne below ?_))
      rintro rfl
      contradiction

theorem exists_boundary (some : text ≠ "") :
    ∃ index, 0 < index ∧ index ≤ 4 ∧ isCharBoundary text index := by
  obtain ⟨characters, rfl⟩ := text.exists_eq_ofList
  cases characters with
  | nil => exact absurd rfl some
  | cons first rest =>
    refine ⟨first.utf8Size, first.utf8Size_pos, first.utf8Size_le_four, ?_⟩
    refine String.Pos.Raw.isValid_eq_true_iff.mpr (String.Pos.Raw.isValid_iff_exists_append.mpr
      ⟨String.singleton first, String.ofList rest, String.ofList_cons, ?_⟩)
    simp [String.Pos.Raw.ext_iff]

theorem splitAt_append (boundary : isCharBoundary text index) :
    (splitAt text index boundary).1 ++ (splitAt text index boundary).2 = text :=
  String.sliceTo_append_sliceFrom

theorem splitAt_size (boundary : isCharBoundary text index) :
    (splitAt text index boundary).1.utf8ByteSize = index := by
  simp [splitAt]

theorem splitAt_rest (boundary : isCharBoundary text index) :
    (splitAt text index boundary).2.utf8ByteSize = text.utf8ByteSize - index := by
  simp [splitAt]

theorem lastBoundary_pos (long : snapshotSlice < text.utf8ByteSize) :
    0 < lastBoundary text snapshotSlice := by
  have some : text ≠ "" := by
    rintro rfl
    simp at long
  obtain ⟨index, positive, small, boundary⟩ := exists_boundary some
  exact positive.trans_le (le_lastBoundary boundary (small.trans (by decide)))

end

/-- The outer loop cuts off at least one character, so it ends. -/
def snapshotSlices (rest : String) : List String :=
  if long : snapshotSlice < rest.utf8ByteSize then
    let halves := splitAt rest (lastBoundary rest snapshotSlice) (lastBoundary_boundary _ _)
    halves.1 :: snapshotSlices halves.2
  else [rest]
termination_by rest.utf8ByteSize
decreasing_by
  rw [splitAt_rest]
  have := lastBoundary_pos long
  omega

theorem snapshotSlices_small (snapshot : String) :
    ∀ slice ∈ snapshotSlices snapshot, slice.utf8ByteSize ≤ snapshotSlice := by
  fun_induction snapshotSlices snapshot with
  | case1 rest long halves ih =>
    intro slice member
    rcases List.mem_cons.mp member with rfl | later
    · rw [splitAt_size]
      exact lastBoundary_le rest snapshotSlice
    · exact ih slice later
  | case2 rest short => simpa using short

theorem snapshotSlices_join (snapshot : String) :
    String.join (snapshotSlices snapshot) = snapshot := by
  fun_induction snapshotSlices snapshot with
  | case1 rest long halves ih =>
    rw [String.join_cons, ih]
    exact splitAt_append _
  | case2 rest short => simp

theorem join_size (slices : List String) :
    (String.join slices).utf8ByteSize = (slices.map String.utf8ByteSize).sum := by
  induction slices with
  | nil => rfl
  | cons first rest ih => simp [ih]

theorem boundary_of_prefix {slices : List String} {text : String}
    (joined : String.join slices = text) (count : Nat) :
    isCharBoundary text ((slices.take count).map String.utf8ByteSize).sum := by
  refine String.Pos.Raw.isValid_eq_true_iff.mpr (String.Pos.Raw.isValid_iff_exists_append.mpr
    ⟨String.join (slices.take count), String.join (slices.drop count), ?_, ?_⟩)
  · rw [← String.join_append, List.take_append_drop, joined]
  · simp [String.Pos.Raw.ext_iff, join_size]

/-- The table of rows: a map with finitely many ids, when its writes report no error. What a failed
write leaves behind is not said. -/
structure WorkTable (σ : Type) where
  select : σ → Nat → Option String
  upsert : Nat → String → EStateM String σ Unit
  delete : Nat → EStateM String σ Unit
  rows : σ → Finset Nat
  stored : ∀ table id, (select table id).isSome ↔ id ∈ rows table
  upserted : ∀ {id cookies table after}, upsert id cookies table = .ok () after →
    select after = Function.update (select table) id (some cookies)
  deleted : ∀ {id table after}, delete id table = .ok () after →
    select after = Function.update (select table) id none

namespace WorkTable
variable {σ : Type} (table : WorkTable σ)

/-- What the reader appends from the row `id` on. -/
def readFrom (state : σ) (id : Nat) : String :=
  match row : table.select state id with
  | some cookies => cookies ++ readFrom state (id + 1)
  | none => ""
termination_by ((table.rows state).filter (id ≤ ·)).card
decreasing_by
  have member : id ∈ table.rows state := (table.stored state id).mp (by simp [row])
  refine Finset.card_lt_card ⟨fun other held => ?_, fun subset => ?_⟩
  · simp only [Finset.mem_filter] at held ⊢
    exact ⟨held.1, by omega⟩
  · have later := (Finset.mem_filter.mp (subset (Finset.mem_filter.mpr ⟨member, le_refl id⟩))).2
    omega

def readDurableSnapshot (state : σ) : String := table.readFrom state 0

def upsertFrom : Nat → List String → EStateM String σ Unit
  | _, [] => pure ()
  | id, slice :: rest => do
    table.upsert id slice
    upsertFrom (id + 1) rest

theorem rows_deleted {id : Nat} {state after : σ} (done : table.delete id state = .ok () after) :
    table.rows after = (table.rows state).erase id := by
  ext other
  rw [← table.stored, table.deleted done, Finset.mem_erase, ← table.stored]
  by_cases same : other = id
  · simp [same]
  · simp [same]

/-- Every row after the new end has to go, up to the first missing id. -/
def deleteStale (stale : Nat) (state : σ) : EStateM.Result String σ Unit :=
  if present : (table.select state stale).isSome then
    match done : table.delete stale state with
    | .ok () after => deleteStale (stale + 1) after
    | .error error after => .error error after
  else .ok () state
termination_by (table.rows state).card
decreasing_by
  rw [table.rows_deleted done]
  exact Finset.card_erase_lt_of_mem ((table.stored state stale).mp present)

/-- The error is the one the source returns as a text. -/
def applyDurableSnapshot (snapshot : String) : EStateM String σ Unit := do
  let slices := snapshotSlices snapshot
  table.upsertFrom 0 slices
  table.deleteStale slices.length

section
variable {table} {state after : σ}

theorem upsertFrom_select {slices : List String} {id : Nat}
    (done : table.upsertFrom id slices state = .ok () after) (other : Nat) :
    table.select after other = if other < id then table.select state other
      else (slices[other - id]?).or (table.select state other) := by
  induction slices generalizing id state with
  | nil =>
    obtain rfl : state = after := by
      injection done
    simp
  | cons slice rest ih =>
    rw [upsertFrom] at done
    cases first : table.upsert id slice state with
    | error error failed => simp [bind, EStateM.bind, first] at done
    | ok result between =>
      have rested : table.upsertFrom (id + 1) rest between = .ok () after := by
        simpa [bind, EStateM.bind, first] using done
      rw [ih rested, table.upserted first]
      rcases lt_trichotomy other id with before | rfl | later
      · simp [before, Nat.lt_succ_of_lt before, before.ne]
      · simp
      · obtain ⟨more, rfl⟩ : ∃ more, other = id + 1 + more := ⟨other - (id + 1), by omega⟩
        have here : id + 1 + more - (id + 1) = more := by omega
        have there : id + 1 + more - id = more + 1 := by omega
        rw [if_neg (by omega), if_neg (by omega), here, there, List.getElem?_cons_succ,
          Function.update_of_ne (by omega)]

theorem deleteStale_select {stale : Nat}
    (done : table.deleteStale stale state = .ok () after) :
    table.select after stale = none ∧
      ∀ other < stale, table.select after other = table.select state other := by
  fun_induction deleteStale table stale state with
  | case1 stale state held between first ih =>
    obtain ⟨_, kept⟩ := ih done
    have removed := table.deleted first
    refine ⟨by rw [kept stale (Nat.lt_succ_self stale), removed]; simp, fun other before => ?_⟩
    rw [kept other (Nat.lt_succ_of_lt before), removed, Function.update_of_ne before.ne]
  | case2 => contradiction
  | case3 stale state missing =>
    obtain rfl : state = after := by
      injection done
    exact ⟨by simpa using missing, fun _ _ => rfl⟩

theorem readFrom_join {slices : List String} {id : Nat}
    (rows : ∀ index (within : index < slices.length),
      table.select state (id + index) = some slices[index])
    (missing : table.select state (id + slices.length) = none) :
    table.readFrom state id = String.join slices := by
  induction slices generalizing id with
  | nil =>
    rw [readFrom]
    split
    · simp_all
    · rfl
  | cons slice rest ih =>
    have first := rows 0 (by simp)
    rw [readFrom]
    split
    · next cookies row =>
      obtain rfl : slice = cookies := by simpa [row] using first.symm
      have tail : table.readFrom state (id + 1) = String.join rest := by
        refine ih (fun index within => ?_) ?_
        · rw [Nat.add_assoc, Nat.add_comm 1, rows (index + 1) (Nat.succ_lt_succ within),
            List.getElem_cons_succ]
        · simpa [Nat.add_assoc, Nat.add_comm 1] using missing
      rw [String.join_cons, tail]
    · next row => simp [row] at first

theorem applyDurableSnapshot_rows {snapshot : String}
    (done : table.applyDurableSnapshot snapshot state = .ok () after) :
    (∀ index (within : index < (snapshotSlices snapshot).length),
      table.select after index = some (snapshotSlices snapshot)[index]) ∧
      table.select after (snapshotSlices snapshot).length = none := by
  cases first : table.upsertFrom 0 (snapshotSlices snapshot) state with
  | error error failed => simp [applyDurableSnapshot, bind, EStateM.bind, first] at done
  | ok result between =>
    have rested : table.deleteStale (snapshotSlices snapshot).length between = .ok () after := by
      simpa [applyDurableSnapshot, bind, EStateM.bind, first] using done
    obtain ⟨missing, kept⟩ := deleteStale_select rested
    refine ⟨fun index within => ?_, missing⟩
    rw [kept index within, upsertFrom_select first]
    simp [within]

end

/-- Slicing loses nothing, and what was stored without an error is read back, whatever rows an
earlier or half-written jar left in the table. -/
theorem snapshot_round_trip (snapshot : String) :
    (∀ slice ∈ snapshotSlices snapshot, slice.utf8ByteSize ≤ snapshotSlice) ∧
    (∀ count, isCharBoundary snapshot
      (((snapshotSlices snapshot).take count).map String.utf8ByteSize).sum) ∧
    String.join (snapshotSlices snapshot) = snapshot ∧
    ∀ state after : σ, table.applyDurableSnapshot snapshot state = .ok () after →
      table.readDurableSnapshot after = snapshot := by
  have joined := snapshotSlices_join snapshot
  refine ⟨snapshotSlices_small snapshot, boundary_of_prefix joined, joined,
    fun state after done => ?_⟩
  obtain ⟨rows, missing⟩ := applyDurableSnapshot_rows done
  rw [readDurableSnapshot, readFrom_join (by simpa using rows) (by simpa using missing), joined]

/-- A table whose writes never fail. -/
def plain : WorkTable (Finmap fun _ : Nat => String) where
  select rows id := rows.lookup id
  upsert id cookies rows := .ok () (rows.insert id cookies)
  delete id rows := .ok () (rows.erase id)
  rows := Finmap.keys
  stored rows id := by rw [Finmap.lookup_isSome, Finmap.mem_keys]
  upserted := fun {id cookies rows after} done => by
    obtain rfl : rows.insert id cookies = after := by
      injection done
    funext other
    by_cases here : other = id
    · rw [here, Function.update_self, Finmap.lookup_insert]
    · rw [Function.update_of_ne here, Finmap.lookup_insert_of_ne _ here]
  deleted := fun {id rows after} done => by
    obtain rfl : rows.erase id = after := by
      injection done
    funext other
    by_cases here : other = id
    · rw [here, Function.update_self, Finmap.lookup_erase]
    · rw [Function.update_of_ne here, Finmap.lookup_erase_ne here]

/-- The rows 1 and 3 are left over: 1 is deleted, 3 stays behind the gap. -/
theorem snapshot_round_trip_gap : ∃ after,
    plain.applyDurableSnapshot "b" (Finmap.singleton 1 "a" ∪ Finmap.singleton 3 "c") =
      .ok () after ∧ plain.readDurableSnapshot after = "b" := by
  let written : Finmap fun _ : Nat => String :=
    (Finmap.singleton 1 "a" ∪ Finmap.singleton 3 "c").insert 0 "b"
  have slices : snapshotSlices "b" = ["b"] := by
    rw [snapshotSlices]
    rfl
  have deleted : plain.deleteStale 1 written = .ok () (written.erase 1) := by
    rw [deleteStale, dif_pos (show (plain.select written 1).isSome by decide)]
    change plain.deleteStale 2 (written.erase 1) = _
    rw [deleteStale, dif_neg (show ¬ (plain.select (written.erase 1) 2).isSome by decide)]
  have done : plain.applyDurableSnapshot "b" (Finmap.singleton 1 "a" ∪ Finmap.singleton 3 "c") =
      .ok () (written.erase 1) := by
    rw [applyDurableSnapshot, slices]
    exact deleted
  exact ⟨_, done, (snapshot_round_trip plain "b").2.2.2 _ _ done⟩

end WorkTable
end Chuzz.Cookies
