import Chuzz.Webrtc.Text

/-! Which labels of buffers a pattern with stars names. -/
namespace Chuzz.Gpu.Labels
open List
open Webrtc (Text)

/-- The loop over what the star stands for, for a number of rounds at most. -/
def search (accepts : Text → Option Bool) (value : Text) : Nat → Nat → Option Bool
  | 0, _ => none
  | rounds + 1, skip => do
    let (_, rest) ← value.splitAt skip
    if ← accepts rest then some true
    else match rest.head? with
      | none => some false
      | some next => search accepts value rounds (skip + next.utf8Size)

theorem parts (pattern : Text) :
    match pattern.splitOnce '*' with
    | none => '*' ∉ pattern
    | some (start, rest) => pattern = start ++ '*' :: rest ∧ '*' ∉ start := by
  induction pattern with
  | nil => exact not_mem_nil
  | cons c rest ih =>
    rw [Text.splitOnce]
    by_cases star : c = '*'
    · rw [if_pos star]
      exact ⟨congrArg (· :: rest) star, not_mem_nil⟩
    · rw [if_neg star]
      cases split : Text.splitOnce '*' rest with
      | none => simpa [split, Ne.symm star] using ih
      | some both =>
        rw [split] at ih
        simpa [Ne.symm star] using ih

def labelMatches (pattern value : Text) : Option Bool :=
  match h : pattern.splitOnce '*' with
  | none => some (pattern = value)
  | some (start, rest) =>
    have : rest.length < pattern.length := by
      have both := parts pattern
      rw [h] at both
      rw [both.1, List.length_append, List.length_cons]
      omega
    if !start.isPrefixOf value then some false
    else (value.splitAt start.bytes).bind fun (_, value) =>
      if rest.isEmpty then some true
      else search (fun value => labelMatches rest value) value (value.length + 1) 0
termination_by pattern.length

/-- The text is the pattern with some text for each star. -/
inductive Fits : Text → Text → Prop
  | done : Fits [] []
  | literal : c ≠ '*' → Fits pattern value → Fits (c :: pattern) (c :: value)
  | star (any : Text) : Fits pattern value → Fits ('*' :: pattern) (any ++ value)

theorem fits_star {pattern value : Text} :
    Fits ('*' :: pattern) value ↔ ∃ any rest, value = any ++ rest ∧ Fits pattern rest := by
  constructor
  · intro fits
    cases fits with
    | literal plain => exact absurd rfl plain
    | star any fits => exact ⟨any, _, rfl, fits⟩
  · rintro ⟨any, rest, rfl, fits⟩
    exact .star any fits

theorem fits_start {start pattern value : Text} (plain : '*' ∉ start) :
    Fits (start ++ pattern) value ↔ ∃ rest, value = start ++ rest ∧ Fits pattern rest := by
  induction start generalizing value with
  | nil => simp
  | cons c start ih =>
    obtain ⟨apart, plain⟩ := ne_and_not_mem_of_not_mem_cons plain
    constructor
    · intro fits
      cases fits with
      | literal _ fits =>
        obtain ⟨rest, rfl, later⟩ := (ih plain).mp fits
        exact ⟨rest, rfl, later⟩
      | star => exact absurd rfl apart
    · rintro ⟨rest, rfl, fits⟩
      exact .literal (Ne.symm apart) ((ih plain).mpr ⟨rest, rfl, fits⟩)

theorem fits_plain {pattern value : Text} (plain : '*' ∉ pattern) :
    Fits pattern value ↔ pattern = value := by
  have whole := @fits_start pattern [] value plain
  rw [append_nil] at whole
  rw [whole]
  constructor
  · rintro ⟨_, rfl, ⟨⟩⟩
    exact (append_nil pattern).symm
  · rintro rfl
    exact ⟨[], (append_nil pattern).symm, .done⟩

/-- The loop tries every end of what the star stands for. -/
theorem search_some {accepts : Text → Option Bool} {Holds : Text → Prop}
    (decides : ∀ value, ∃ answer, accepts value = some answer ∧ (answer = true ↔ Holds value))
    (before rest : Text) :
    ∃ answer, search accepts (before ++ rest) (rest.length + 1) before.bytes = some answer ∧
      (answer = true ↔ ∃ any later, rest = any ++ later ∧ Holds later) := by
  induction rest generalizing before with
  | nil =>
    obtain ⟨answer, accepted, holds⟩ := decides []
    refine ⟨answer, ?_, ?_⟩
    · rw [search, Text.splitAt_append]
      cases answer <;> simp [accepted]
    · simp [holds]
  | cons c rest ih =>
    obtain ⟨answer, accepted, holds⟩ := decides (c :: rest)
    cases answer with
    | true =>
      refine ⟨true, ?_, iff_of_true rfl ⟨[], c :: rest, rfl, holds.mp rfl⟩⟩
      rw [search, Text.splitAt_append]
      simp [accepted]
    | false =>
      obtain ⟨answer, found, ends⟩ := ih (before ++ [c])
      refine ⟨answer, ?_, ends.trans ?_⟩
      · have length : Text.bytes (before ++ [c]) = before.bytes + c.utf8Size := by simp [Text.bytes]
        rw [append_assoc, length] at found
        rw [search, Text.splitAt_append]
        simpa [accepted] using found
      · constructor
        · rintro ⟨any, later, rfl, held⟩
          exact ⟨c :: any, later, rfl, held⟩
        · rintro ⟨any, later, same, held⟩
          cases any with
          | nil =>
            obtain rfl : c :: rest = later := same
            cases holds.mpr held
          | cons d any =>
            obtain ⟨rfl, rfl⟩ := List.cons.inj same
            exact ⟨any, later, rfl, held⟩

theorem labelMatches_some (pattern value : Text) : ∃ answer,
    labelMatches pattern value = some answer ∧ (answer = true ↔ Fits pattern value) := by
  -- every pattern behind a star is shorter
  have both := parts pattern
  unfold labelMatches
  split
  · next none =>
    rw [none] at both
    exact ⟨_, rfl, decide_eq_true_iff.trans (fits_plain both).symm⟩
  · next start rest split =>
    rw [split] at both
    obtain ⟨whole, plain⟩ := both
    have stars : Fits pattern value ↔
        ∃ later, value = start ++ later ∧ ∃ any last, later = any ++ last ∧ Fits rest last := by
      rw [whole, fits_start plain]
      exact exists_congr fun _ => and_congr_right fun _ => fits_star
    rw [stars]
    split
    · next differs =>
      refine ⟨false, rfl, iff_of_false nofun ?_⟩
      rintro ⟨later, rfl, _⟩
      rw [List.isPrefixOf_iff_prefix.mpr (prefix_append start later)] at differs
      cases differs
    · next begins =>
      obtain ⟨later, rfl⟩ : start <+: value := by simpa using begins
      rw [Text.splitAt_append, Option.bind_some]
      have only {P : Text → Prop} : (∃ other, start ++ later = start ++ other ∧ P other) ↔ P later := by
        simp
      rw [only]
      dsimp only
      split
      · next none =>
        obtain rfl := isEmpty_iff.mp none
        exact ⟨true, rfl, iff_of_true rfl ⟨later, [], (append_nil later).symm, .done⟩⟩
      · exact search_some (labelMatches_some rest) [] later

termination_by pattern.length

/-- Offsets stay in range, at the ends of characters, and the loops end. -/
theorem labelMatches_iff (pattern value : Text) :
    (labelMatches pattern value).isSome ∧ (labelMatches pattern value = some true ↔ Fits pattern value) := by
  obtain ⟨answer, done, fits⟩ := labelMatches_some pattern value
  rw [done, ← fits]
  exact ⟨rfl, Option.some_inj⟩

end Chuzz.Gpu.Labels
