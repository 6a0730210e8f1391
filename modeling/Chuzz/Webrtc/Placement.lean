import Chuzz.Webrtc.Slots

/-! Where MIDs come from and where the sections of a remote offer go. An offer gives fresh
MIDs to the slots that have none. A remote offer is assigned slots by MID, by kind, or by
a new number; over a table that accommodates it, each section takes a slot of its kind and
no slot loses its MID. -/
namespace Chuzz.Webrtc
open Library

structure Table (slots : List Slot) : Prop where
  ids : (slots.map (·.id)).Nodup
  range : ∀ slot ∈ slots, 0 < slot.id ∧ slot.id ≤ slotLimit
  mids : ∀ slot ∈ slots, ∀ other ∈ slots, ∀ mid,
    slot.mid = some mid → other.mid = some mid → slot.id = other.id

/-- Every slot is still there, of its kind and with the MID it had. -/
def Keeps (before after : List Slot) : Prop :=
  ∀ slot ∈ before, ∃ later ∈ after, later.id = slot.id ∧ later.kind = slot.kind ∧
    ∀ mid, slot.mid = some mid → later.mid = some mid

theorem Keeps.refl (slots : List Slot) : Keeps slots slots :=
  fun slot member => ⟨slot, member, rfl, rfl, fun _ => id⟩

theorem Keeps.trans (first : Keeps a b) (second : Keeps b c) : Keeps a c := by
  intro slot member
  obtain ⟨middle, there, sameId, sameKind, named⟩ := first slot member
  obtain ⟨later, found, laterId, laterKind, renamed⟩ := second middle there
  exact ⟨later, found, laterId.trans sameId, laterKind.trans sameKind,
    fun mid has => renamed mid (named mid has)⟩

theorem SameSlots.keeps (same : SameSlots before after) : Keeps before after := by
  intro slot member
  obtain ⟨later, found, sameId, sameKind, sameMid⟩ := same.symm.mem member
  exact ⟨later, found, sameId, sameKind, fun mid has => sameMid.trans has⟩

theorem SameSlots.table (same : SameSlots before after) (table : Table before) : Table after where
  ids := same.ids ▸ table.ids
  range slot member := by
    obtain ⟨old, there, sameId, _⟩ := same.mem member
    exact sameId ▸ table.range old there
  mids slot member other found mid named named' := by
    obtain ⟨old, there, sameId, _, sameMid⟩ := same.mem member
    obtain ⟨old', there', sameId', _, sameMid'⟩ := same.mem found
    rw [← sameId, ← sameId']
    exact table.mids old there old' there' mid (sameMid.trans named) (sameMid'.trans named')

theorem Table.unique (table : Table slots) (member : slot ∈ slots) (found : other ∈ slots)
    (same : slot.id = other.id) : slot = other :=
  List.inj_on_of_nodup_map table.ids member found same

theorem Table.add (table : Table slots) (fresh : slots.any (·.id = slot.id) = false)
    (above : 0 < slot.id) (below : slot.id ≤ slotLimit)
    (new : ∀ mid, slot.mid = some mid → ∀ other ∈ slots, other.mid ≠ some mid) :
    Table (slots ++ [slot]) := by
  simp only [List.any_eq_false, decide_eq_true_eq] at fresh
  constructor
  · rw [List.map_append, List.map_singleton, List.nodup_append]
    refine ⟨table.ids, List.nodup_singleton _, ?_⟩
    intro id member other here
    obtain ⟨old, there, rfl⟩ := List.mem_map.mp member
    rw [List.mem_singleton.mp here]
    exact fresh old there
  · intro found member
    rcases List.mem_append.mp member with member | member
    · exact table.range found member
    · rw [List.mem_singleton.mp member]
      exact ⟨above, below⟩
  · intro one member other found mid named named'
    rcases List.mem_append.mp member with member | member <;>
      rcases List.mem_append.mp found with found | found
    · exact table.mids one member other found mid named named'
    · rw [List.mem_singleton.mp found] at named'
      exact absurd named (new mid named' one member)
    · rw [List.mem_singleton.mp member] at named
      exact absurd named' (new mid named other found)
    · rw [List.mem_singleton.mp member, List.mem_singleton.mp found]

namespace Engine
variable {slots : List Slot} {rtc : Str0m}

/-- The MIDs that `add_media` gives are fresh: the table has none of them, and no two
slots get the same one. -/
def Fresh (rtc : Str0m) (slots : List Slot) : Prop :=
  ∀ slot ∈ slots, slot.mid = none →
    (∀ other ∈ slots, other.mid ≠ some (rtc.addMedia slot.id)) ∧
    ∀ other ∈ slots, other.mid = none → rtc.addMedia slot.id = rtc.addMedia other.id →
      slot.id = other.id

instance (rtc : Str0m) (slots : List Slot) : Decidable (Fresh rtc slots) :=
  inferInstanceAs (Decidable (∀ slot ∈ slots, slot.mid = none →
    (∀ other ∈ slots, other.mid ≠ some (rtc.addMedia slot.id)) ∧
    ∀ other ∈ slots, other.mid = none → rtc.addMedia slot.id = rtc.addMedia other.id →
      slot.id = other.id))

/-- A slot after `offer` has asked for it, or has not come to it. -/
theorem mem_requestMedia (member : later ∈ (requestMedia rtc slots).1) :
    ∃ slot ∈ slots, later = slot ∨
      later = { slot with mid := slot.mid.or (some (rtc.addMedia slot.id)) } := by
  induction slots with
  | nil => contradiction
  | cons slot rest ih =>
    rw [requestMedia] at member
    split at member
    · exact ⟨later, member, .inl rfl⟩
    · rcases List.mem_cons.mp member with rfl | member
      · exact ⟨slot, List.mem_cons_self, .inr rfl⟩
      · obtain ⟨old, there, changed⟩ := ih member
        exact ⟨old, List.mem_cons_of_mem _ there, changed⟩

theorem requestMedia_ids (rtc : Str0m) (slots : List Slot) :
    (requestMedia rtc slots).1.map (·.id) = slots.map (·.id) := by
  induction slots with
  | nil => rfl
  | cons slot rest ih =>
    rw [requestMedia]
    split
    · rfl
    · simp [ih]

theorem requestMedia_keeps (rtc : Str0m) (slots : List Slot) :
    Keeps slots (requestMedia rtc slots).1 := by
  induction slots with
  | nil => exact .refl []
  | cons slot rest ih =>
    rw [requestMedia]
    split
    · exact .refl _
    · intro one member
      rcases List.mem_cons.mp member with rfl | member
      · exact ⟨_, List.mem_cons_self, rfl, rfl, fun mid named => by simp [named]⟩
      · obtain ⟨later, found, kept⟩ := ih one member
        exact ⟨later, List.mem_cons_of_mem _ found, kept⟩

theorem requestMedia_table (table : Table slots) (fresh : Fresh rtc slots) :
    Table (requestMedia rtc slots).1 := by
  have origin : ∀ later ∈ (requestMedia rtc slots).1, ∃ slot ∈ slots, later.id = slot.id ∧
      (later.mid = slot.mid ∨ slot.mid = none ∧ later.mid = some (rtc.addMedia slot.id)) := by
    intro later member
    obtain ⟨slot, there, rfl | rfl⟩ := mem_requestMedia member
    · exact ⟨later, there, rfl, .inl rfl⟩
    · cases named : slot.mid with
      | none => exact ⟨slot, there, rfl, .inr ⟨named, by simp⟩⟩
      | some mid => exact ⟨slot, there, rfl, .inl (by simp [named])⟩
  constructor
  · rw [requestMedia_ids]
    exact table.ids
  · intro later member
    obtain ⟨slot, there, same, _⟩ := origin later member
    exact same ▸ table.range slot there
  · intro later member other found mid named named'
    obtain ⟨slot, there, same, old | ⟨unnamed, new⟩⟩ := origin later member <;>
      obtain ⟨slot', there', same', old' | ⟨unnamed', new'⟩⟩ := origin other found <;>
      rw [same, same']
    · exact table.mids slot there slot' there' mid (old ▸ named) (old' ▸ named')
    · refine absurd ?_ ((fresh slot' there' unnamed').1 slot there)
      rw [← old, named, ← named', new']
    · refine absurd ?_ ((fresh slot there unnamed).1 slot' there')
      rw [← old', named', ← named, new]
    · refine (fresh slot there unnamed).2 slot' there' unnamed' (Option.some.inj ?_)
      rw [← new, ← new', named, named']

/-- No slot has the MID. -/
def Free (slots : List Slot) (mid : Mid) : Prop := ∀ slot ∈ slots, slot.mid ≠ some mid

variable {used : List Nat}

theorem matching_eq_some {slot : Slot} (found : matching slots used part = some slot) :
    slot ∈ slots ∧ (slot.mid = some part.mid ∨
      slot.mid = none ∧ slot.kind = part.kind ∧ Free slots part.mid) := by
  rcases Option.or_eq_some_iff.mp found with named | ⟨none, unnamed⟩
  · exact ⟨List.mem_of_find?_eq_some named, .inl (by simpa using List.find?_some named)⟩
  · have fits := List.find?_some unnamed
    simp only [decide_eq_true_eq] at fits
    refine ⟨List.mem_of_find?_eq_some unnamed, .inr ⟨fits.1, fits.2.1, ?_⟩⟩
    intro slot member
    simpa using List.find?_eq_none.mp none slot member

theorem matching_eq_none (missing : matching slots used part = none) : Free slots part.mid := by
  unfold matching slotOfMid at missing
  rw [Option.or_eq_none_iff] at missing
  intro slot member
  simpa using List.find?_eq_none.mp missing.1 slot member

theorem matching_congr {used used' : List Nat}
    (agree : ∀ slot ∈ slots, slot.id ∈ used ↔ slot.id ∈ used') (part : Section) :
    matching slots used part = matching slots used' part := by
  unfold matching
  rw [← List.head?_filter, ← List.head?_filter]
  congr 2
  refine List.filter_congr fun slot member => ?_
  simp only [agree slot member]

/-- How many sections of a remote offer find no slot, by MID or among the slots of
their kind that have none; `used` are the slots that earlier sections took. -/
def unmatched (slots : List Slot) : List Section → List Nat → Nat
  | [], _ => 0
  | part :: rest, used =>
    match matching slots used part with
    | some slot => unmatched slots rest (slot.id :: used)
    | none => unmatched slots rest used + 1

/-- No section carries the MID of a slot of the other kind, and the numbers after the
table's length, one for each section without a slot, are no slot's id. -/
def Accommodates (slots : List Slot) (parts : List Section) : Prop :=
  (∀ part ∈ parts, ∀ slot ∈ slots, slot.mid = some part.mid → slot.kind = part.kind) ∧
  ∀ slot ∈ slots, slot.id ≤ slots.length ∨ slots.length + unmatched slots parts [] < slot.id

instance (slots : List Slot) (parts : List Section) : Decidable (Accommodates slots parts) :=
  inferInstanceAs (Decidable (_ ∧ _))

/-- Each section's slot: one of its own, or a new number. -/
structure Placed (slots : List Slot) (assigned : List (Section × Nat)) : Prop where
  ids : (assigned.map (·.2)).Nodup
  range : ∀ item ∈ assigned, 0 < item.2 ∧ item.2 ≤ slotLimit
  place : ∀ item ∈ assigned,
    (∃ slot ∈ slots, slot.id = item.2 ∧ (slot.mid = some item.1.mid ∨
      slot.mid = none ∧ slot.kind = item.1.kind ∧ Free slots item.1.mid)) ∨
    (∀ slot ∈ slots, slot.id ≠ item.2) ∧ Free slots item.1.mid

/-- The numbers given to sections without a slot. -/
def numbered (slots : List Slot) (assigned : List (Section × Nat)) : List (Section × Nat) :=
  assigned.filter fun earlier => !slots.any (·.id = earlier.2)

variable {part : Section}

theorem numbered_own {id : Nat} (member : slot ∈ slots) (same : slot.id = id) :
    numbered slots (earlier ++ [(part, id)]) = numbered slots earlier := by
  have known : slots.any (·.id = id) = true := by
    simpa using ⟨slot, member, same⟩
  simp [numbered, List.filter_append, known]

theorem numbered_new {id : Nat} (outside : ∀ slot ∈ slots, slot.id ≠ id) :
    (numbered slots (earlier ++ [(part, id)])).length = (numbered slots earlier).length + 1 := by
  have unknown : slots.any (·.id = id) = false := by
    simpa using outside
  simp [numbered, List.filter_append, unknown]

theorem Placed.snoc {assigned : List (Section × Nat)} {id : Nat}
    (placed : Placed slots assigned) (unused : id ∉ assigned.map (·.2))
    (range : 0 < id ∧ id ≤ slotLimit)
    (place : (∃ slot ∈ slots, slot.id = id ∧ (slot.mid = some part.mid ∨
      slot.mid = none ∧ slot.kind = part.kind ∧ Free slots part.mid)) ∨
      (∀ slot ∈ slots, slot.id ≠ id) ∧ Free slots part.mid) :
    Placed slots (assigned ++ [(part, id)]) := by
  constructor
  · rw [List.map_append, List.map_singleton, List.nodup_append]
    refine ⟨placed.ids, List.nodup_singleton _, ?_⟩
    intro one member other here same
    rw [same, List.mem_singleton.mp here] at member
    exact unused member
  · intro item member
    rcases List.mem_append.mp member with member | member
    · exact placed.range item member
    · rw [List.mem_singleton.mp member]
      exact range
  · intro item member
    rcases List.mem_append.mp member with member | member
    · exact placed.place item member
    · rw [List.mem_singleton.mp member]
      exact place

/-- `used` counts the slots taken so far, and `numbered` the numbers given, of which
none may be a slot's id. -/
theorem assign_placed {parts : List Section}
    {earlier assigned : List (Section × Nat)} (table : Table slots)
    (apart : ∀ slot ∈ slots, slot.id ≤ slots.length ∨
      slots.length + (numbered slots earlier).length + unmatched slots parts used < slot.id)
    (agree : ∀ slot ∈ slots, slot.id ∈ earlier.map (·.2) ↔ slot.id ∈ used)
    (placed : Placed slots earlier) (success : assign slots parts earlier = .ok assigned) :
    Placed slots assigned ∧ assigned.map (·.1) = earlier.map (·.1) ++ parts := by
  induction parts generalizing earlier used with
  | nil =>
    cases success
    exact ⟨placed, by simp⟩
  | cons part rest ih =>
    rw [assign] at success
    simp only [matching_congr agree part] at success
    rw [unmatched] at apart
    obtain ⟨refused, success⟩ := Fallible.guard_ok success
    rw [not_or, gt_iff_lt, Nat.not_lt] at refused
    cases found : matching slots used part with
    | some slot =>
      simp only [found] at success refused apart
      obtain ⟨member, place⟩ := matching_eq_some found
      have agree : ∀ other ∈ slots, other.id ∈ (earlier ++ [(part, slot.id)]).map (·.2) ↔
          other.id ∈ slot.id :: used := by
        intro other there
        simp [agree other there, or_comm]
      have own : numbered slots (earlier ++ [(part, slot.id)]) = numbered slots earlier :=
        numbered_own member rfl
      rw [← own] at apart
      obtain ⟨placed, same⟩ := ih apart agree
        (placed.snoc refused.2 (table.range slot member) (.inl ⟨slot, member, rfl, place⟩)) success
      exact ⟨placed, by simp [same]⟩
    | none =>
      simp only [found] at success refused apart
      have outside : ∀ slot ∈ slots, slot.id ≠ slots.length + (numbered slots earlier).length + 1 := by
        intro slot member
        have := apart slot member
        omega
      have agree : ∀ other ∈ slots, other.id ∈ (earlier ++
          [(part, slots.length + (numbered slots earlier).length + 1)]).map (·.2) ↔
          other.id ∈ used := by
        intro other there
        simp only [List.map_append, List.map_singleton, List.mem_append, List.mem_singleton,
          agree other there, or_iff_left_iff_imp]
        intro same
        exact absurd same (outside other there)
      have apart : ∀ slot ∈ slots, slot.id ≤ slots.length ∨
          slots.length + (numbered slots (earlier ++
            [(part, slots.length + (numbered slots earlier).length + 1)])).length +
            unmatched slots rest used < slot.id := by
        intro slot member
        have := apart slot member
        rw [numbered_new outside]
        omega
      obtain ⟨placed, same⟩ := ih apart agree
        (placed.snoc refused.2 ⟨Nat.succ_pos _, refused.1⟩ (.inr ⟨outside, matching_eq_none found⟩))
        success
      exact ⟨placed, by simp [same]⟩

/-- The table and the sections still to be placed in it: a section's slot is of its kind
and has no other MID, and no other slot has the section's. -/
structure Fitting (slots : List Slot) (assigned : List (Section × Nat)) : Prop where
  table : Table slots
  ids : (assigned.map (·.2)).Nodup
  mids : (assigned.map (·.1.mid)).Nodup
  range : ∀ item ∈ assigned, 0 < item.2 ∧ item.2 ≤ slotLimit
  belongs : ∀ item ∈ assigned, ∀ slot ∈ slots, slot.id = item.2 →
    slot.kind = item.1.kind ∧ (slot.mid = none ∨ slot.mid = some item.1.mid)
  elsewhere : ∀ item ∈ assigned, ∀ slot ∈ slots, slot.mid = some item.1.mid → slot.id = item.2

/-- The slot that has taken a section. -/
def Took (slots : List Slot) (item : Section × Nat) : Prop :=
  ∃ slot ∈ slots, slot.id = item.2 ∧ slot.kind = item.1.kind ∧ slot.mid = some item.1.mid ∧
    slot.remote = some item.1

/-- What a slot becomes when it takes a section. -/
def taken (slot : Slot) (part : Section) : Slot :=
  { slot with mid := some part.mid, remote := some part }

theorem mem_occupy {item : Section × Nat} {later : Slot} (table : Table slots) :
    later ∈ occupy slots item ↔ later ∈ slots ∧ later.id ≠ item.2 ∨
      (∃ old ∈ slots, old.id = item.2 ∧ later = taken old item.1) ∨
      (∀ old ∈ slots, old.id ≠ item.2) ∧ later = remoteSlot item.1 item.2 := by
  unfold occupy
  split
  · rename_i missing
    have outside : ∀ old ∈ slots, old.id ≠ item.2 := by
      intro old there
      simpa using FirstMatch.modifyFirst?_eq_none.mp missing old there
    rw [List.mem_append, List.mem_singleton]
    constructor
    · rintro (member | rfl)
      · exact .inl ⟨member, outside later member⟩
      · exact .inr (.inr ⟨outside, rfl⟩)
    · rintro (⟨member, _⟩ | ⟨old, there, same, _⟩ | ⟨_, rfl⟩)
      · exact .inl member
      · exact absurd same (outside old there)
      · exact .inr rfl
  · rename_i found
    rw [FirstMatch.mem_modifyFirst?_key table.ids found]
    obtain ⟨before, old, after, rfl, same, _⟩ := FirstMatch.modifyFirst?_eq_some found
    have there : old ∈ before ++ old :: after := by simp
    constructor
    · rintro (kept | changed)
      · exact .inl kept
      · exact .inr (.inl changed)
    · rintro (kept | changed | ⟨outside, _⟩)
      · exact .inl kept
      · exact .inr changed
      · exact absurd (by simpa using same) (outside old there)

theorem occupy_ids (slots : List Slot) (item : Section × Nat) :
    (occupy slots item).map (·.id) =
      if item.2 ∈ slots.map (·.id) then slots.map (·.id) else slots.map (·.id) ++ [item.2] := by
  unfold occupy
  split
  · rename_i missing
    have outside : item.2 ∉ slots.map (·.id) := by
      intro inside
      obtain ⟨old, there, same⟩ := List.mem_map.mp inside
      simpa [same] using FirstMatch.modifyFirst?_eq_none.mp missing old there
    rw [if_neg outside, List.map_append]
    rfl
  · rename_i found
    obtain ⟨before, old, after, rfl, same, _⟩ := FirstMatch.modifyFirst?_eq_some found
    have inside : item.2 ∈ (before ++ old :: after).map (·.id) :=
      List.mem_map.mpr ⟨old, by simp, by simpa using same⟩
    rw [if_pos inside]
    exact FirstMatch.modifyFirst?_map found fun _ => rfl

variable {item : Section × Nat} {rest : List (Section × Nat)}

section
variable (fitting : Fitting slots (item :: rest))
include fitting

theorem occupy_origin (member : later ∈ occupy slots item) : (later ∈ slots ∧ later.id ≠ item.2) ∨
      later.id = item.2 ∧ later.mid = some item.1.mid ∧ later.kind = item.1.kind := by
  rcases (mem_occupy fitting.table).mp member with kept | ⟨old, there, same, rfl⟩ | ⟨_, rfl⟩
  · exact .inl kept
  · exact .inr ⟨same, rfl, (fitting.belongs item List.mem_cons_self old there same).1⟩
  · exact .inr ⟨rfl, rfl, rfl⟩

theorem occupy_table : Table (occupy slots item) where
  ids := by
    rw [occupy_ids]
    split
    · exact fitting.table.ids
    · rw [List.nodup_append]
      refine ⟨fitting.table.ids, List.nodup_singleton _, ?_⟩
      rintro id member other here rfl
      rw [List.mem_singleton.mp here] at member
      contradiction
  range later member := by
    rcases occupy_origin fitting member with ⟨there, _⟩ | ⟨same, _⟩
    · exact fitting.table.range later there
    · exact same ▸ fitting.range item List.mem_cons_self
  mids later member other found mid named named' := by
    rcases occupy_origin fitting member with ⟨there, apart⟩ | ⟨same, own, _⟩ <;>
      rcases occupy_origin fitting found with ⟨there', apart'⟩ | ⟨same', own', _⟩
    · exact fitting.table.mids later there other there' mid named named'
    · rw [own', ← named] at named'
      exact absurd (fitting.elsewhere item List.mem_cons_self later there named'.symm) apart
    · rw [own, ← named'] at named
      exact absurd (fitting.elsewhere item List.mem_cons_self other there' named.symm) apart'
    · rw [same, same']

theorem occupy_fitting : Fitting (occupy slots item) rest := by
  obtain ⟨newId, ids⟩ := List.nodup_cons.mp fitting.ids
  obtain ⟨newMid, mids⟩ := List.nodup_cons.mp fitting.mids
  have later {other} : other ∈ rest → other ∈ item :: rest := List.mem_cons_of_mem _
  refine ⟨occupy_table fitting, ids, mids, fun other there => fitting.range other (later there),
    ?_, ?_⟩
  · intro other there slot member same
    rcases occupy_origin fitting member with ⟨known, _⟩ | ⟨own, _⟩
    · exact fitting.belongs other (later there) slot known same
    · exact absurd (List.mem_map.mpr ⟨other, there, same.symm.trans own⟩) newId
  · intro other there slot member named
    rcases occupy_origin fitting member with ⟨known, _⟩ | ⟨_, own, _⟩
    · exact fitting.elsewhere other (later there) slot known named
    · refine absurd (List.mem_map.mpr ⟨other, there, Option.some.inj ?_⟩) newMid
      rw [← named, own]

theorem occupy_keeps : Keeps slots (occupy slots item) := by
  intro slot member
  by_cases same : slot.id = item.2
  · obtain ⟨kind, named⟩ := fitting.belongs item List.mem_cons_self slot member same
    refine ⟨taken slot item.1, (mem_occupy fitting.table).mpr (.inr (.inl ⟨slot, member, same, rfl⟩)),
      rfl, rfl, ?_⟩
    intro mid has
    rcases named with named | named
    · rw [named] at has
      contradiction
    · exact named.symm.trans has
  · exact ⟨slot, (mem_occupy fitting.table).mpr (.inl ⟨member, same⟩), rfl, rfl, fun _ => id⟩

theorem occupy_took : Took (occupy slots item) item := by
  by_cases known : ∃ old ∈ slots, old.id = item.2
  · obtain ⟨old, there, same⟩ := known
    exact ⟨taken old item.1, (mem_occupy fitting.table).mpr (.inr (.inl ⟨old, there, same, rfl⟩)),
      same, (fitting.belongs item List.mem_cons_self old there same).1, rfl, rfl⟩
  · simp only [not_exists, not_and] at known
    exact ⟨remoteSlot item.1 item.2, (mem_occupy fitting.table).mpr (.inr (.inr ⟨known, rfl⟩)),
      rfl, rfl, rfl, rfl⟩

theorem occupy_stays {other : Section × Nat}
    (apart : other.2 ≠ item.2) (took : Took slots other) : Took (occupy slots item) other := by
  obtain ⟨slot, member, same, taken⟩ := took
  exact ⟨slot, (mem_occupy fitting.table).mpr (.inl ⟨member, same ▸ apart⟩), same, taken⟩

end

theorem occupyAll (fitting : Fitting slots given) :
    Table (given.foldl occupy slots) ∧ Keeps slots (given.foldl occupy slots) ∧
      (∀ item ∈ given, Took (given.foldl occupy slots) item) ∧
      ∀ other, other.2 ∉ given.map (·.2) → Took slots other →
        Took (given.foldl occupy slots) other := by
  induction given generalizing slots with
  | nil => exact ⟨fitting.table, .refl _, by simp, fun _ _ took => took⟩
  | cons item rest ih =>
    obtain ⟨table, keeps, took, stays⟩ := ih (occupy_fitting fitting)
    refine ⟨table, (occupy_keeps fitting).trans keeps, ?_, ?_⟩
    · intro other member
      rcases List.mem_cons.mp member with rfl | member
      · exact stays other (List.nodup_cons.mp fitting.ids).1 (occupy_took fitting)
      · exact took other member
    · intro other outside took
      rw [List.map_cons, List.mem_cons, not_or] at outside
      exact stays other outside.2 (occupy_stays fitting outside.1 took)

theorem Placed.fitting {parts : List Section} (table : Table slots)
    (placed : Placed slots given) (sections : given.map (·.1) = parts)
    (distinct : (parts.map (·.mid)).Nodup)
    (kinds : ∀ part ∈ parts, ∀ slot ∈ slots, slot.mid = some part.mid → slot.kind = part.kind) :
    Fitting slots given where
  table := table
  ids := placed.ids
  mids := by
    rw [← sections, List.map_map] at distinct
    exact distinct
  range := placed.range
  belongs item there slot member same := by
    have inside : item.1 ∈ parts := sections ▸ List.mem_map_of_mem there
    rcases placed.place item there with ⟨own, known, equal, named⟩ | ⟨outside, _⟩
    · obtain rfl := table.unique known member (equal.trans same.symm)
      rcases named with named | ⟨unnamed, kind, _⟩
      · exact ⟨kinds _ inside own member named, .inr named⟩
      · exact ⟨kind, .inl unnamed⟩
    · exact absurd same (outside slot member)
  elsewhere item there slot member named := by
    rcases placed.place item there with ⟨own, known, equal, has | ⟨_, _, free⟩⟩ | ⟨_, free⟩
    · exact (table.mids slot member own known _ named has).trans equal
    · exact absurd named (free slot member)
    · exact absurd named (free slot member)

end Engine
end Chuzz.Webrtc
