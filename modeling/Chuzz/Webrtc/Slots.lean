import Chuzz.Webrtc.Engine

/-! What each command does to the slot table. A slot's identity is its id, its kind and
its MID: most commands keep the identities, one adds a slot without a MID, an offer gives
MIDs to slots that have none, and a remote offer takes the slots it was assigned. -/
namespace Chuzz.Webrtc
open Library

def Slot.identity (slot : Slot) : Nat × Kind × Option Mid := (slot.id, slot.kind, slot.mid)

/-- The same slots, whatever else has changed of them. -/
def SameSlots (before after : List Slot) : Prop :=
  after.map Slot.identity = before.map Slot.identity

theorem SameSlots.refl (slots : List Slot) : SameSlots slots slots := rfl

theorem SameSlots.trans (first : SameSlots a b) (second : SameSlots b c) : SameSlots a c :=
  Eq.trans second first

theorem SameSlots.ids (same : SameSlots before after) : after.map (·.id) = before.map (·.id) := by
  simpa [Function.comp_def, Slot.identity] using congrArg (List.map (·.1)) same

theorem SameSlots.mem (same : SameSlots before after) (member : slot ∈ after) :
    ∃ old ∈ before, old.id = slot.id ∧ old.kind = slot.kind ∧ old.mid = slot.mid := by
  have found : slot.identity ∈ before.map Slot.identity := same ▸ List.mem_map_of_mem member
  obtain ⟨old, there, equal⟩ := List.mem_map.mp found
  simp only [Slot.identity, Prod.mk.injEq] at equal
  exact ⟨old, there, equal⟩

theorem SameSlots.symm (same : SameSlots before after) : SameSlots after before := Eq.symm same

theorem modifyMid_same (found : modifyMid slots mid change = some changed)
    (keeps : ∀ slot, (change slot).identity = slot.identity) : SameSlots slots changed :=
  FirstMatch.modifyFirst?_map found keeps

theorem modifyId_same {id : Nat} (found : modifyId slots id change = some changed)
    (keeps : ∀ slot, (change slot).identity = slot.identity) : SameSlots slots changed :=
  FirstMatch.modifyFirst?_map found keeps

namespace Engine

theorem commitSections_same (remotes parts : List Section) (slots : List Slot) :
    SameSlots slots (commitSections remotes parts slots).1 := by
  induction parts generalizing slots with
  | nil => exact .refl slots
  | cons part rest ih =>
    rw [commitSections]
    split
    · exact .refl slots
    · split
      · exact .refl slots
      · rename_i found
        exact (modifyMid_same found (fun _ => rfl)).trans (ih _)

theorem commitCodecs_same (engine : Engine) : SameSlots engine.slots engine.commitCodecs.1.slots := by
  rw [commitCodecs]
  split
  · exact .refl _
  · exact commitSections_same _ _ _

theorem settle_same (slots : List Slot) : SameSlots slots (settle slots) := by
  unfold SameSlots settle
  rw [List.map_map]
  refine List.map_congr_left fun slot _ => ?_
  simp only [Function.comp]
  split <;> rfl

theorem settleRemote_same (parts : List Section) (slots : List Slot) :
    SameSlots slots (settleRemote parts slots).1 := by
  induction parts generalizing slots with
  | nil => exact .refl slots
  | cons part rest ih =>
    rw [settleRemote]
    split
    · exact .refl slots
    · rename_i found
      exact (modifyMid_same found (fun _ => rfl)).trans (ih _)

theorem changeSlot_same (engine : Engine) (id : Option Nat) (check : Slot → Except String Unit)
    {change : Slot → Slot} (keeps : ∀ slot, (change slot).identity = slot.identity) :
    SameSlots engine.slots (engine.changeSlot id check change).1.slots := by
  rw [changeSlot]
  split
  · exact .refl _
  · rename_i changed
    obtain ⟨_, _, changed⟩ := Fallible.bind_ok changed
    split at changed
    · obtain ⟨_, _, changed⟩ := Fallible.bind_ok changed
      cases changed
      cases found : modifyId engine.slots _ change with
      | none => exact .refl _
      | some slots => exact modifyId_same found keeps
    · contradiction

theorem setLocal_same (engine : Engine) (value : Description) :
    SameSlots engine.slots (engine.setLocal value).1.slots := by
  unfold setLocal
  split_ifs
  · exact .refl _
  · exact .refl _
  · exact .refl _
  · exact (settle_same _).trans (commitCodecs_same _)
  · exact .refl _

theorem setRemoteAnswer_same (engine : Engine) (rtc : Str0m) (value : Description) :
    SameSlots engine.slots (engine.setRemoteAnswer rtc value).1.slots := by
  unfold setRemoteAnswer
  split
  · exact .refl _
  · split
    · exact .refl _
    · dsimp only
      split
      · exact .refl _
      · have settled := settleRemote_same ‹_› engine.slots
        split
        · exact settled
        · exact settled.trans (commitCodecs_same _)

end Engine

/-- What one command does to the slot table of an engine. -/
inductive SlotChange (engine : Engine) (rtc : Str0m) (command : Command) : List Slot → Prop where
  | same : SameSlots engine.slots after → SlotChange engine rtc command after
  | added : 0 < slot.id → slot.id ≤ slotLimit → slot.mid = none →
      engine.slots.any (·.id = slot.id) = false →
      SlotChange engine rtc command (engine.slots ++ [slot])
  | requested : command = .createOffer →
      SlotChange engine rtc command (Engine.requestMedia rtc engine.slots).1
  | occupied : command = .setRemote (some value) → value.type = text "offer" →
      engine.signaling = .stable → sections value = .ok parts →
      Engine.assign engine.slots parts [] = .ok given →
      SlotChange engine rtc command (given.foldl Engine.occupy engine.slots)

namespace Engine

theorem preflight_ok {engine : Engine} {parts : List Section}
    (passed : engine.preflight rtc value = .ok parts) : sections value = .ok parts := by
  obtain ⟨read, sectioned, passed⟩ := Fallible.bind_ok passed
  obtain ⟨_, _, passed⟩ := Fallible.bind_ok passed
  obtain ⟨_, _, passed⟩ := Fallible.bind_ok passed
  split at passed
  · obtain ⟨_, _, passed⟩ := Fallible.bind_ok passed
    obtain ⟨_, passed⟩ := Fallible.guard_ok passed
    obtain ⟨_, passed⟩ := Fallible.guard_ok passed
    obtain ⟨_, passed⟩ := Fallible.guard_ok passed
    cases passed
    exact sectioned
  · cases passed
    exact sectioned

theorem offer_slots (engine : Engine) (rtc : Str0m) :
    SlotChange engine rtc .createOffer (engine.offer rtc).1.slots := by
  unfold offer
  split
  · exact .same (.refl _)
  · split
    · exact .same (.refl _)
    · dsimp only
      split
      · exact .requested rfl
      · split <;> exact .requested rfl

theorem slotId_ok {value : Option Nat} {id : Nat} (checked : slotId value = .ok id) :
    0 < id ∧ id ≤ slotLimit := by
  unfold slotId at checked
  split at checked
  · rename_i found
    cases checked
    simpa using (Option.filter_eq_some_iff.mp found).2
  · contradiction

theorem add_slots {engine : Engine} {id : Option Nat} {kind : Option Kind}
    {slot : Nat → Kind → Slot} {command : Command}
    (named : ∀ id kind, (slot id kind).id = id ∧ (slot id kind).mid = none) :
    SlotChange engine rtc command (engine.add id kind slot).1.slots := by
  unfold add
  dsimp only
  split
  · exact .same (.refl _)
  · rename_i added
    obtain ⟨number, numbered, added⟩ := Fallible.bind_ok added
    obtain ⟨free, added⟩ := Fallible.guard_ok added
    cases kind with
    | none => contradiction
    | some kind =>
      cases added
      obtain ⟨above, below⟩ := slotId_ok numbered
      obtain ⟨same, unnamed⟩ := named number kind
      rw [not_or, Bool.not_eq_true, ← same] at free
      rw [← same] at above below
      exact .added above below unnamed free.1

theorem setRemote_slots (engine : Engine) (rtc : Str0m) (value : Description) :
    SlotChange engine rtc (.setRemote (some value)) (engine.setRemote rtc value).1.slots := by
  unfold setRemote
  split
  · rename_i offered
    unfold setRemoteOffer
    dsimp only
    split
    · exact .same (.refl _)
    · rename_i checked
      obtain ⟨parts, passed, checked⟩ := Fallible.bind_ok checked
      obtain ⟨assigned, assignment, checked⟩ := Fallible.bind_ok checked
      obtain ⟨_, _, checked⟩ := Fallible.bind_ok checked
      obtain ⟨_, _, checked⟩ := Fallible.bind_ok checked
      cases checked
      exact .occupied rfl offered.1 offered.2 (preflight_ok passed) assignment
  · split
    · exact .same (setRemoteAnswer_same _ _ _)
    · exact .same (.refl _)

theorem changePreferences_same (engine : Engine) (id : Option Nat)
    (codecs : Option (List (Option Text))) :
    SameSlots engine.slots (engine.changePreferences id codecs).1.slots := by
  unfold changePreferences
  dsimp only
  split
  · exact .refl _
  · exact changeSlot_same _ _ _ (fun _ => rfl)

theorem answer_slots (engine : Engine) (rtc : Str0m) :
    (engine.answer rtc).1.slots = engine.slots := by
  unfold answer
  dsimp only
  split <;> rfl

theorem command_slots (engine : Engine) (rtc : Str0m) (command : Command) :
    SlotChange engine rtc command (engine.command rtc command).1.slots := by
  cases command with
  | add id kind direction media => exact add_slots fun _ _ => ⟨rfl, rfl⟩
  | bind id media => exact .same (changeSlot_same _ _ _ fun _ => rfl)
  | direction id direction =>
    cases direction with
    | none => exact .same (.refl _)
    | some direction => exact .same (changeSlot_same _ _ _ fun _ => rfl)
  | replace id media => exact .same (changeSlot_same _ _ _ fun _ => rfl)
  | active id active =>
    cases active with
    | none => exact .same (.refl _)
    | some active => exact .same (changeSlot_same _ _ _ fun _ => rfl)
  | parameters id active settings => exact .same (changeSlot_same _ _ _ fun _ => rfl)
  | preferences id codecs => exact .same (changePreferences_same _ _ _)
  | createOffer => exact offer_slots engine rtc
  | createAnswer =>
    refine .same ?_
    simp only [Engine.command, describing, answer_slots]
    exact .refl _
  | setLocal value =>
    cases value with
    | none => exact .same (.refl _)
    | some value => exact .same (setLocal_same _ _)
  | setRemote value =>
    cases value with
    | none => exact .same (.refl _)
    | some value => exact setRemote_slots _ _ _
  | restart => exact .same (.refl _)
  | candidate value => exact .same (.refl _)

end Engine
end Chuzz.Webrtc
