import Chuzz.Library.Transition
import Chuzz.Webrtc.Placement

/-! Signaling, slots and MIDs over any sequence of commands. A remote offer can break a
slot's identity in two ways: one of its sections may carry the MID of a slot of the other
kind, and the number computed for a section without a slot may be the id the page chose
for one. Without the two, identities are kept and the sections of a remote offer take
distinct slots of their kind. -/
namespace Chuzz.Webrtc
open Library List

/-- Signaling says which descriptions are pending. -/
structure Engine.Signaled (engine : Engine) : Prop where
  stable : engine.signaling = .stable ↔
    engine.pendingLocal = none ∧ engine.pendingRemote = none
  haveLocalOffer : engine.signaling = .haveLocalOffer ↔
    engine.pendingLocal.isSome ∧ engine.pendingRemote = none
  haveRemoteOffer : engine.signaling = .haveRemoteOffer ↔
    engine.pendingLocal = none ∧ engine.pendingRemote.isSome

namespace Engine
variable {slots : List Slot} {rtc : Str0m}

/-- The fields that signaling is about. -/
def exchange (engine : Engine) : Signaling × Option Description × Option Description :=
  (engine.signaling, engine.pendingLocal, engine.pendingRemote)

theorem Signaled.of_exchange {before after : Engine} (signaled : before.Signaled)
    (same : after.exchange = before.exchange) : after.Signaled := by
  simp only [exchange, Prod.mk.injEq] at same
  obtain ⟨signaling, pendingLocal, pendingRemote⟩ := same
  constructor
  · rw [signaling, pendingLocal, pendingRemote]
    exact signaled.stable
  · rw [signaling, pendingLocal, pendingRemote]
    exact signaled.haveLocalOffer
  · rw [signaling, pendingLocal, pendingRemote]
    exact signaled.haveRemoteOffer

variable {engine : Engine}

theorem signaled_stable (signaling : engine.signaling = .stable)
    (noLocal : engine.pendingLocal = none) (noRemote : engine.pendingRemote = none) :
    engine.Signaled := by
  constructor <;> simp [signaling, noLocal, noRemote]

theorem commitCodecs_exchange (engine : Engine) :
    engine.commitCodecs.1.exchange = engine.exchange := by
  unfold commitCodecs
  split <;> rfl

theorem changeSlot_exchange (engine : Engine) (id : Option Nat) (check : Slot → Except String Unit)
    (change : Slot → Slot) : (engine.changeSlot id check change).1.exchange = engine.exchange := by
  unfold changeSlot
  dsimp only
  split <;> rfl

theorem add_exchange (engine : Engine) (id : Option Nat) (kind : Option Kind)
    (slot : Nat → Kind → Slot) : (engine.add id kind slot).1.exchange = engine.exchange := by
  unfold add
  dsimp only
  split <;> rfl

theorem offer_exchange (engine : Engine) (rtc : Str0m) :
    (engine.offer rtc).1.exchange = engine.exchange := by
  unfold offer
  split
  · rfl
  · split
    · rfl
    · dsimp only
      split
      · rfl
      · split <;> rfl

theorem answer_exchange (engine : Engine) (rtc : Str0m) :
    (engine.answer rtc).1.exchange = engine.exchange := by
  unfold answer
  dsimp only
  split <;> rfl

theorem changePreferences_exchange (engine : Engine) (id : Option Nat)
    (codecs : Option (List (Option Text))) :
    (engine.changePreferences id codecs).1.exchange = engine.exchange := by
  unfold changePreferences
  dsimp only
  split
  · rfl
  · exact changeSlot_exchange _ _ _ _

theorem setLocal_signaled (signaled : engine.Signaled) (value : Description) :
    (engine.setLocal value).1.Signaled := by
  unfold setLocal
  split_ifs with offered _ answered
  · exact signaled
  · have noRemote : engine.pendingRemote = none := by
      cases signaling : engine.signaling with
      | stable => exact (signaled.stable.mp signaling).2
      | haveLocalOffer => exact (signaled.haveLocalOffer.mp signaling).2
      | haveRemoteOffer => exact absurd signaling offered.2
    constructor <;> simp [noRemote]
  · exact signaled
  · exact (signaled_stable rfl rfl rfl).of_exchange (commitCodecs_exchange _)
  · exact signaled

theorem setRemote_signaled (signaled : engine.Signaled) (rtc : Str0m) (value : Description) :
    (engine.setRemote rtc value).1.Signaled := by
  unfold setRemote
  split_ifs with offered answered
  · unfold setRemoteOffer
    dsimp only
    split
    · exact signaled
    · have noLocal := (signaled.stable.mp offered.2).1
      constructor <;> simp [noLocal]
  · have noRemote := (signaled.haveLocalOffer.mp answered.2).2
    unfold setRemoteAnswer
    split
    · exact signaled
    · split
      · exact signaled
      · dsimp only
        split
        · exact signaled.of_exchange rfl
        · split
          · exact signaled.of_exchange rfl
          · exact (signaled_stable rfl rfl rfl).of_exchange (commitCodecs_exchange _)
  · exact signaled

theorem command_signaled (signaled : engine.Signaled) (rtc : Str0m) (command : Command) :
    (engine.command rtc command).1.Signaled := by
  cases command with
  | add => exact signaled.of_exchange (add_exchange _ _ _ _)
  | bind => exact signaled.of_exchange (changeSlot_exchange _ _ _ _)
  | direction id direction =>
    cases direction with
    | none => exact signaled
    | some direction => exact signaled.of_exchange (changeSlot_exchange _ _ _ _)
  | replace => exact signaled.of_exchange (changeSlot_exchange _ _ _ _)
  | active id active =>
    cases active with
    | none => exact signaled
    | some active => exact signaled.of_exchange (changeSlot_exchange _ _ _ _)
  | parameters => exact signaled.of_exchange (changeSlot_exchange _ _ _ _)
  | preferences => exact signaled.of_exchange (changePreferences_exchange _ _ _)
  | createOffer => exact signaled.of_exchange (offer_exchange _ _)
  | createAnswer => exact signaled.of_exchange (answer_exchange _ _)
  | setLocal value =>
    cases value with
    | none => exact signaled
    | some value => exact setLocal_signaled signaled value
  | setRemote value =>
    cases value with
    | none => exact signaled
    | some value => exact setRemote_signaled signaled rtc value
  | restart => exact signaled.of_exchange rfl
  | candidate => exact signaled

/-- What str0m is assumed to do. -/
def Assumed (engine : Engine) (input : Str0m × Command) : Prop :=
  match input.2 with
  | .createOffer => Fresh input.1 engine.slots
  | _ => True

/-- A remote offer is one that the table accommodates. -/
def Suited (engine : Engine) (input : Str0m × Command) : Prop :=
  match input.2 with
  | .setRemote (some value) => value.type = text "offer" → engine.signaling = .stable →
    ((sections value).toOption.all fun parts => Accommodates engine.slots parts) = true
  | _ => True

instance (engine : Engine) (input : Str0m × Command) : Decidable (engine.Assumed input) := by
  unfold Assumed
  split <;> infer_instance

instance (engine : Engine) (input : Str0m × Command) : Decidable (engine.Suited input) := by
  unfold Suited
  split <;> infer_instance

def Admits (engine : Engine) (input : Str0m × Command) : Prop :=
  engine.Assumed input ∧ engine.Suited input

instance (engine : Engine) (input : Str0m × Command) : Decidable (engine.Admits input) :=
  inferInstanceAs (Decidable (_ ∧ _))

def perform (engine : Engine) (input : Str0m × Command) : Engine :=
  (engine.command input.1 input.2).1

theorem occupied_fitting (table : Table engine.slots) {value : Description}
    (admits : engine.Admits (rtc, .setRemote (some value))) (offered : value.type = text "offer")
    (stable : engine.signaling = .stable) (read : sections value = .ok parts)
    (assignment : assign engine.slots parts [] = .ok given) :
    Fitting engine.slots given ∧ given.map (·.1) = parts := by
  have accommodates : Accommodates engine.slots parts := by
    have passed := admits.2 offered stable
    rw [read] at passed
    simpa [Except.toOption] using passed
  have apart : ∀ slot ∈ engine.slots, slot.id ≤ engine.slots.length ∨
      engine.slots.length + (numbered engine.slots []).length + unmatched engine.slots parts [] <
        slot.id := accommodates.2
  have nothing : Placed engine.slots [] := ⟨nodup_nil, by simp, by simp⟩
  obtain ⟨placed, same⟩ := assign_placed table apart (by simp) nothing
    assignment
  exact ⟨placed.fitting table same (sections_ok read).2 accommodates.1, same⟩

theorem command_table {command : Command} (table : Table engine.slots)
    (admits : engine.Admits (rtc, command)) : Table (engine.command rtc command).1.slots ∧
      Keeps engine.slots (engine.command rtc command).1.slots := by
  have change := command_slots engine rtc command
  generalize (engine.command rtc command).1.slots = after at change ⊢
  cases change with
  | same same => exact ⟨same.table table, same.keeps⟩
  | added above below unnamed fresh =>
    refine ⟨table.add fresh above below ?_, ?_⟩
    · intro mid named
      rw [unnamed] at named
      contradiction
    · intro slot member
      exact ⟨slot, mem_append_left _ member, rfl, rfl, fun _ => id⟩
  | requested isOffer =>
    subst isOffer
    exact ⟨requestMedia_table table admits.1, requestMedia_keeps _ _⟩
  | occupied isRemote offered stable read assignment =>
    subst isRemote
    obtain ⟨fitting, _⟩ := occupied_fitting table admits offered stable read assignment
    exact ⟨(occupyAll fitting).1, (occupyAll fitting).2.1⟩

/-- The sections of a remote offer that was accepted are in distinct slots of their kind. -/
def Mapped (slots : List Slot) (parts : List Section) : Prop :=
  ∃ ids : List Nat, ids.Nodup ∧ ids.length = parts.length ∧
    ∀ item ∈ parts.zip ids, Took slots item

theorem setRemote_mapped {value : Description} (table : Table engine.slots)
    (admits : engine.Admits (rtc, .setRemote (some value))) (offered : value.type = text "offer")
    (accepted : (engine.setRemote rtc value).2 = .ok ()) (read : sections value = .ok parts) :
    Mapped (engine.setRemote rtc value).1.slots parts := by
  unfold setRemote at accepted ⊢
  split_ifs at accepted ⊢ with stable answered
  · unfold setRemoteOffer at accepted ⊢
    dsimp only at accepted ⊢
    split at accepted
    · contradiction
    · rename_i assigned answer checked
      obtain ⟨found, passed, checked⟩ := Fallible.bind_ok checked
      obtain ⟨_, assignment, checked⟩ := Fallible.bind_ok checked
      obtain ⟨_, _, checked⟩ := Fallible.bind_ok checked
      obtain ⟨_, _, checked⟩ := Fallible.bind_ok checked
      cases checked
      obtain rfl : found = parts := Except.ok.inj ((preflight_ok passed).symm.trans read)
      obtain ⟨fitting, same⟩ := occupied_fitting table admits offered stable.2 read assignment
      refine ⟨assigned.map (·.2), fitting.ids, ?_, ?_⟩
      · rw [← same, length_map, length_map]
      · intro item member
        rw [← same, zip_map', mem_map] at member
        obtain ⟨item, there, rfl⟩ := member
        exact (occupyAll fitting).2.2.1 item there
  · rw [answered.1] at offered
    contradiction

/-- Inputs that the engine is given in turn, each admitted where it comes. -/
def Runs (engine : Engine) (inputs : List (Str0m × Command)) : Prop :=
  Transition.Meets perform Admits engine inputs

theorem run_keeps {inputs : List (Str0m × Command)} (table : Table engine.slots)
    (runs : engine.Runs inputs) : Keeps engine.slots (inputs.foldl perform engine).slots := by
  induction inputs generalizing engine with
  | nil => exact .refl _
  | cons input rest ih =>
    obtain ⟨after, keeps⟩ := command_table table runs.1
    exact keeps.trans (ih after runs.2)

/-- The engines that any commands reach. -/
def Reached : Engine → Prop :=
  Transition.Reachable (· = {}) fun before input after => perform before input = after

/-- The engines that admitted commands reach. -/
def ReachedSuitably : Engine → Prop :=
  Transition.Reachable (· = {})
    (Transition.restrict (fun before input after => perform before input = after) Admits)

theorem reached_table (run : ReachedSuitably engine) : engine.Signaled ∧ Table engine.slots := by
  refine Transition.Reachable.invariant
    (P := fun engine => engine.Signaled ∧ Table engine.slots) ?_ ?_ run
  · rintro _ rfl
    exact ⟨signaled_stable rfl rfl rfl, nodup_nil, by simp, by simp⟩
  · rintro before input after _ ⟨signaled, table⟩ ⟨rfl, admits⟩
    exact ⟨command_signaled signaled _ _, (command_table table admits).1⟩

/-- In every state that admitted commands reach, signaling says which descriptions are
pending; ids are distinct and in range; MIDs are distinct, and no later admitted command
changes one; and an accepted remote offer puts its sections in distinct slots of their
kind. -/
theorem reached_identities {engine : Engine} (run : ReachedSuitably engine) :
    engine.Signaled ∧ Table engine.slots ∧
    (∀ inputs, engine.Runs inputs → ∀ slot ∈ engine.slots, ∀ mid, slot.mid = some mid →
      ∃ later ∈ (inputs.foldl perform engine).slots, later.id = slot.id ∧ later.mid = some mid) ∧
    ∀ rtc value parts, engine.Admits (rtc, .setRemote (some value)) →
      value.type = text "offer" → sections value = .ok parts →
      (engine.command rtc (.setRemote (some value))).2 = .ok none →
      Mapped (engine.command rtc (.setRemote (some value))).1.slots parts := by
  obtain ⟨signaled, table⟩ := reached_table run
  refine ⟨signaled, table, ?_, ?_⟩
  · intro inputs runs slot member mid named
    obtain ⟨later, found, same, _, kept⟩ := run_keeps table runs slot member
    exact ⟨later, found, same, kept mid named⟩
  · intro rtc value parts admits offered read replied
    refine setRemote_mapped table admits offered ?_ read
    cases accepted : (engine.setRemote rtc value).2 with
    | ok => rfl
    | error error => simp [command, silent, accepted, Except.map] at replied

/-- A description of one section with the given media line, MID and formats. -/
def sample (media mid formats : String) : Text :=
  text "a=group:BUNDLE " ++ text mid ++ text "\na=ice-ufrag:abcd\n" ++
    text "a=ice-pwd:abcdefghijklmnopqrstuv\na=setup:active\na=fingerprint:sha-256 " ++
    List.intercalate [':'] (List.replicate 32 (text "0a")) ++ text "\nm=" ++ text media ++
    text " 9 UDP/TLS/RTP/SAVPF 96\na=mid:" ++ text mid ++ text "\na=rtpmap:96 " ++ text formats

def sampleAudio (mid : String) : Description :=
  ⟨text "offer", sample "audio" mid "opus/48000/2"⟩

def sampleVideo (mid : String) : Description :=
  ⟨text "offer",
    sample "video" mid "H264/90000\na=fmtp:96 packetization-mode=1;profile-level-id=42e01f"⟩

/-- str0m that gives one MID, offers it and answers any remote offer. -/
def sampleRtc (mid : String) : Str0m :=
  { addMedia := fun _ => text mid
    apply := some ((sampleAudio mid).sdp, 0)
    acceptOffer := fun _ => .ok [] }

/-- An audio slot is added under the id, offered, and a remote offer comes in. -/
def sampleInputs (id : Nat) (remote : Description) : List (Str0m × Command) :=
  [(sampleRtc "m1", .add (some id) (some .audio) none {}), (sampleRtc "m1", .createOffer),
    (sampleRtc "m1", .setRemote (some remote))]

/-- The signaling and the slots' identities after some of the inputs. -/
def sampleState (id : Nat) (remote : Description) (steps : Nat) :
    Signaling × List (Nat × Kind × Option Mid) :=
  let engine := ((sampleInputs id remote).take steps).foldl perform {}
  (engine.signaling, engine.slots.map Slot.identity)

set_option maxRecDepth 20000 in
theorem reached_identities_offered :
    Table ((sampleInputs 1 (sampleAudio "m1")).foldl perform {}).slots :=
  (reached_identities (Transition.Reachable.run_meeting (sampleInputs 1 (sampleAudio "m1"))
    (.start rfl) (by decide))).2.1

theorem Mapped.kinds {parts : List Section} (mapped : Mapped slots parts) :
    ∀ part ∈ parts, ∃ slot ∈ slots, slot.kind = part.kind := by
  obtain ⟨ids, _, same, took⟩ := mapped
  intro part member
  have paired : (parts.zip ids).map (·.1) = parts := map_fst_zip (by omega)
  obtain ⟨item, there, rfl⟩ := mem_map.mp (paired.symm ▸ member)
  obtain ⟨slot, found, _, kind, _⟩ := took item there
  exact ⟨slot, found, kind⟩

theorem not_mapped {parts : List Section} (audio : slots.map Slot.identity = [(1, .audio, mid)])
    (video : parts.any (·.kind = .video) = true) : ¬ Mapped slots parts := by
  intro mapped
  obtain ⟨part, member, kind⟩ := any_eq_true.mp video
  obtain ⟨slot, found, same⟩ := mapped.kinds part member
  have identity : slot.identity ∈ slots.map Slot.identity := mem_map_of_mem found
  rw [audio, mem_singleton] at identity
  have heard : slot.kind = .audio := congrArg (·.2.1) identity
  rw [heard, of_decide_eq_true kind] at same
  contradiction

set_option maxRecDepth 20000 in
/-- A video section with the MID of an audio slot takes that slot; and a section whose
number, one after a table of one, is the id of the only slot changes that slot's MID. -/
theorem remote_offer_crosses :
    (Transition.Meets perform Assumed {} (sampleInputs 1 (sampleVideo "m1")) ∧
      sampleState 1 (sampleVideo "m1") 3 = (.haveRemoteOffer, [(1, .audio, some (text "m1"))]) ∧
      ∃ parts, sections (sampleVideo "m1") = .ok parts ∧
        ¬ Mapped ((sampleInputs 1 (sampleVideo "m1")).foldl perform {}).slots parts) ∧
    Transition.Meets perform Assumed {} (sampleInputs 2 (sampleAudio "m2")) ∧
      sampleState 2 (sampleAudio "m2") 2 = (.stable, [(2, .audio, some (text "m1"))]) ∧
      sampleState 2 (sampleAudio "m2") 3 = (.haveRemoteOffer, [(2, .audio, some (text "m2"))]) := by
  have crossed : sampleState 1 (sampleVideo "m1") 3 =
      (.haveRemoteOffer, [(1, .audio, some (text "m1"))]) := by
    decide
  have video : (sections (sampleVideo "m1")).toOption.any (·.any (·.kind = .video)) = true := by
    decide
  refine ⟨⟨by decide, crossed, ?_⟩, by decide, by decide, by decide⟩
  cases read : sections (sampleVideo "m1") with
  | error error => rw [read] at video; cases video
  | ok parts =>
    rw [read] at video
    exact ⟨parts, rfl, not_mapped (congrArg Prod.snd crossed) video⟩

end Engine
end Chuzz.Webrtc
