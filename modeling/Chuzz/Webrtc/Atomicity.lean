import Chuzz.Webrtc.Signaling

/-! Which failures of the description commands leave the description state alone. An offer
has given MIDs and dropped the pending str0m offer before it can fail, a remote answer
has taken the pending offer before str0m accepts it, and a local answer is committed
before its codecs are. -/
namespace Chuzz.Webrtc
local instance lawfulDirection : LawfulBEq (List Char) := inferInstance
open Library

/-- What a description command may change of a slot. -/
structure Slot.Negotiation where
  mid : Option Mid
  direction : Text
  current : Option Text
  remote : Option Section
  codecs : List AudioCodec
deriving DecidableEq

def Slot.negotiation (slot : Slot) : Slot.Negotiation :=
  { mid := slot.mid, direction := slot.direction, current := slot.current,
    remote := slot.remote, codecs := slot.codecs }

/-- The description state of an engine. -/
structure Engine.Described where
  signaling : Signaling
  pendingLocal : Option Description
  pendingRemote : Option Description
  currentLocal : Option Description
  currentRemote : Option Description
  generatedOffer : Option Description
  generatedAnswer : Option Description
  pending : Option Pending
  slots : List Slot.Negotiation
deriving DecidableEq

namespace Engine

def described (engine : Engine) : Described :=
  { signaling := engine.signaling, pendingLocal := engine.pendingLocal,
    pendingRemote := engine.pendingRemote, currentLocal := engine.currentLocal,
    currentRemote := engine.currentRemote, generatedOffer := engine.generatedOffer,
    generatedAnswer := engine.generatedAnswer, pending := engine.pending,
    slots := engine.slots.map Slot.negotiation }

/-- Failing changes nothing of the description state. -/
def Unchanged (engine : Engine) (outcome : Outcome α) : Prop :=
  ∀ error, outcome.2 = .error error → outcome.1.described = engine.described

variable {engine : Engine}

theorem Unchanged.of_ok {outcome : Outcome α} (success : outcome.2 = .ok value) :
    engine.Unchanged outcome := by
  intro error failed
  rw [success] at failed
  contradiction

theorem unchanged_iff {outcome : Outcome α} (failed : outcome.2 = .error error) :
    engine.Unchanged outcome ↔ outcome.1.described = engine.described :=
  ⟨fun unchanged => unchanged error failed, fun same _ _ => same⟩

theorem unchanged_silent {outcome : Outcome Unit} :
    engine.Unchanged (silent outcome) ↔ engine.Unchanged outcome := by
  obtain ⟨after, result⟩ := outcome
  cases result with
  | ok value => exact ⟨fun _ => .of_ok rfl, fun _ => .of_ok rfl⟩
  | error error => rw [unchanged_iff rfl, unchanged_iff rfl]; rfl

theorem unchanged_describing {outcome : Outcome Description} :
    engine.Unchanged (describing outcome) ↔ engine.Unchanged outcome := by
  obtain ⟨after, result⟩ := outcome
  cases result with
  | ok value => exact ⟨fun _ => .of_ok rfl, fun _ => .of_ok rfl⟩
  | error error => rw [unchanged_iff rfl, unchanged_iff rfl]; rfl

section CreateOffer
variable {engine : Engine} {rtc : Str0m} {slots : List Slot}

/-- The slots that `offer` has asked for when it stops. -/
def asked (slots : List Slot) : List Slot := slots.takeWhile (·.direction ∈ directions)

theorem requestMedia_result (rtc : Str0m) (slots : List Slot) :
    (requestMedia rtc slots).2 = .ok () ↔ ∀ slot ∈ slots, slot.direction ∈ directions := by
  induction slots with
  | nil => simp [requestMedia]
  | cons slot rest ih =>
    by_cases valid : slot.direction ∈ directions
    · simp [requestMedia, direction, valid, ih]
    · simp [requestMedia, direction, valid, throw, throwThe, MonadExceptOf.throw]

theorem requestMedia_named (rtc : Str0m) (slots : List Slot)
    (valid : ∀ slot ∈ slots, slot.direction ∈ directions) :
    ∀ slot ∈ (requestMedia rtc slots).1, slot.mid.isSome ∧ slot.direction ∈ directions := by
  induction slots with
  | nil => simp [requestMedia]
  | cons slot rest ih =>
    obtain ⟨here, later⟩ := List.forall_mem_cons.mp valid
    simp only [requestMedia, direction, if_pos here]
    intro one member
    rcases List.mem_cons.mp member with rfl | member
    · exact ⟨by simp, here⟩
    · exact ih later one member

/-- The request changes nothing exactly if the slots it asked for had their MIDs. -/
theorem requestMedia_unchanged (rtc : Str0m) (slots : List Slot) :
    (requestMedia rtc slots).1.map Slot.negotiation = slots.map Slot.negotiation ↔
      ∀ slot ∈ asked slots, slot.mid.isSome := by
  induction slots with
  | nil => simp [requestMedia, asked]
  | cons slot rest ih =>
    by_cases valid : slot.direction ∈ directions
    · simp only [requestMedia, direction, valid, if_true, List.map_cons, List.cons.injEq, ih, asked,
        List.takeWhile_cons, decide_true, List.forall_mem_cons, and_congr_left_iff]
      intro _
      cases named : slot.mid <;> simp [Slot.negotiation, named]
    · simp [requestMedia, direction, valid, asked, throw, throwThe, MonadExceptOf.throw]

/-- An offer that str0m makes and the policy accepts, once every slot has its MID. -/
def Drafts (engine : Engine) (rtc : Str0m) : Prop :=
  (∀ slot ∈ engine.slots, slot.direction ∈ directions) ∧
  ∃ made pending description, rtc.apply = some (made, pending) ∧
    localSdp { engine with slots := (requestMedia rtc engine.slots).1, pending := none }
      { type := text "offer", sdp := made } = .ok description

theorem localSdp_ok {description result : Description}
    (success : engine.localSdp description = .ok result) :
    result.type = description.type ∧ ∃ parts, sections result = .ok parts := by
  obtain ⟨parts, _, success⟩ := Fallible.bind_ok success
  obtain ⟨preferences, _, success⟩ := Fallible.bind_ok success
  exact localPolicy_ok success

theorem toggle_ok (named : ∀ slot ∈ engine.slots, slot.mid.isSome ∧ slot.direction ∈ directions) :
    engine.toggle rtc = .ok () := by
  unfold toggle
  split
  · rename_i slot rest _ slots
    obtain ⟨has, valid⟩ := named slot (by rw [slots]; exact List.mem_cons_self)
    have flipped : (if slot.direction = text "inactive" then text "sendrecv"
        else text "inactive") ∈ directions := by
      split <;> decide
    rw [Option.isNone_eq_false_iff.mpr has]
    simp only [direction, if_pos valid, if_pos flipped]
    rfl
  · rfl

theorem draft_ok (valid : ∀ slot ∈ engine.slots, slot.direction ∈ directions) :
    (∃ result, draft { engine with slots := (requestMedia rtc engine.slots).1, pending := none }
      rtc = .ok result) ↔ engine.Drafts rtc := by
  have named := requestMedia_named rtc engine.slots valid
  unfold draft
  rw [toggle_ok named]
  constructor
  · rintro ⟨result, drafted⟩
    obtain ⟨_, _, drafted⟩ := Fallible.bind_ok drafted
    split at drafted
    · rename_i made pending applied
      obtain ⟨description, accepted, _⟩ := Fallible.bind_ok drafted
      exact ⟨valid, made, pending, description, applied, accepted⟩
    · contradiction
  · rintro ⟨_, made, pending, description, applied, accepted⟩
    obtain ⟨_, parts, read⟩ := localSdp_ok accepted
    refine ⟨(description, pending), ?_⟩
    simp only [applied, accepted, read, bind, Except.bind]
    rfl

/-- An offer is refused at once, changes nothing before it fails, or succeeds. -/
def AtomicOffer (engine : Engine) (rtc : Str0m) : Prop :=
  engine.signaling = .haveRemoteOffer ∨ engine.slots = [] ∨
    engine.pending = none ∧ (∀ slot ∈ asked engine.slots, slot.mid.isSome) ∨ engine.Drafts rtc

theorem described_requested (engine : Engine) (rtc : Str0m) :
    described { engine with slots := (requestMedia rtc engine.slots).1, pending := none } =
      engine.described ↔
    engine.pending = none ∧ ∀ slot ∈ asked engine.slots, slot.mid.isSome := by
  rw [← requestMedia_unchanged rtc engine.slots]
  simp only [described, Described.mk.injEq, true_and]
  constructor
  · rintro ⟨pending, slots⟩
    exact ⟨pending.symm, slots⟩
  · rintro ⟨pending, slots⟩
    exact ⟨pending.symm, slots⟩

theorem offer_atomic (engine : Engine) (rtc : Str0m) :
    engine.Unchanged (engine.offer rtc) ↔ engine.AtomicOffer rtc := by
  unfold offer AtomicOffer
  by_cases refused : engine.signaling = .haveRemoteOffer
  · simp only [refused, true_or, iff_true]
    exact fun _ _ => rfl
  by_cases empty : engine.slots = []
  · simp only [if_neg refused, empty, true_or, or_true, iff_true]
    exact fun _ _ => rfl
  simp only [refused, empty, if_false, false_or]
  by_cases valid : ∀ slot ∈ engine.slots, slot.direction ∈ directions
  · have requested := (requestMedia_result rtc engine.slots).mpr valid
    rw [requested]
    cases drafted : draft { engine with
      slots := (requestMedia rtc engine.slots).1, pending := none } rtc with
    | error error =>
      have failed : ¬ engine.Drafts rtc := by
        rw [← draft_ok valid, drafted]
        simp
      refine (unchanged_iff rfl).trans ((described_requested engine rtc).trans ?_)
      simp [failed]
    | ok result =>
      have success := (draft_ok valid).mp ⟨result, drafted⟩
      exact ⟨fun _ => .inr success, fun _ => .of_ok rfl⟩
  · have failed : ¬ engine.Drafts rtc := fun drafts => valid drafts.1
    cases requested : (requestMedia rtc engine.slots).2 with
    | ok => exact absurd ((requestMedia_result rtc engine.slots).mp requested) valid
    | error error =>
      refine (unchanged_iff rfl).trans ((described_requested engine rtc).trans ?_)
      simp [failed]

end CreateOffer

section Commit
variable {slots : List Slot}

/-- Some slot has the MID. -/
def Holds (slots : List Slot) (mid : Mid) : Prop := ∃ slot ∈ slots, slot.mid = some mid

theorem holds_same (same : SameSlots before after) (mid : Mid) :
    Holds after mid ↔ Holds before mid := by
  constructor
  · rintro ⟨slot, member, named⟩
    obtain ⟨old, there, _, _, sameMid⟩ := same.mem member
    exact ⟨old, there, sameMid.trans named⟩
  · rintro ⟨slot, member, named⟩
    obtain ⟨later, there, _, _, sameMid⟩ := same.symm.mem member
    exact ⟨later, there, sameMid.trans named⟩

theorem modifyMid_none {mid : Text} (missing : modifyMid slots mid change = none) :
    ¬ Holds slots mid := by
  rintro ⟨slot, member, named⟩
  simpa [named] using FirstMatch.modifyFirst?_eq_none.mp missing slot member

theorem modifyMid_some {mid : Text} (found : modifyMid slots mid change = some changed) :
    Holds slots mid := by
  obtain ⟨before, slot, after, rfl, selected, _⟩ := FirstMatch.modifyFirst?_eq_some found
  exact ⟨slot, by simp, by simpa using selected⟩

/-- Codecs are committed when every section has a remote one and a slot. -/
theorem commitSections_ok (remotes parts : List Section) (slots : List Slot) :
    (commitSections remotes parts slots).2 = .ok () ↔
      ∀ part ∈ parts, (∃ remote ∈ remotes, remote.mid = part.mid) ∧ Holds slots part.mid := by
  induction parts generalizing slots with
  | nil => simp [commitSections]
  | cons part rest ih =>
    rw [commitSections, List.forall_mem_cons]
    split
    · rename_i missing
      simp only [List.find?_eq_none, decide_eq_true_eq] at missing
      simp only [throw, throwThe, MonadExceptOf.throw, reduceCtorEq, false_iff]
      rintro ⟨⟨⟨remote, member, same⟩, _⟩, _⟩
      exact missing remote member same
    · rename_i remote found
      have paired : ∃ remote ∈ remotes, remote.mid = part.mid :=
        ⟨remote, List.mem_of_find?_eq_some found, by simpa using List.find?_some found⟩
      split
      · rename_i missing
        simp only [throw, throwThe, MonadExceptOf.throw, reduceCtorEq, false_iff]
        exact fun all => modifyMid_none missing all.1.2
      · rename_i changed located
        have same : SameSlots slots changed := modifyMid_same located fun _ => rfl
        simp only [ih, holds_same same]
        exact ⟨fun later => ⟨⟨paired, modifyMid_some located⟩, later⟩, And.right⟩

theorem settleRemote_ok (parts : List Section) (slots : List Slot) :
    (settleRemote parts slots).2 = .ok () ↔ ∀ part ∈ parts, Holds slots part.mid := by
  induction parts generalizing slots with
  | nil => simp [settleRemote]
  | cons part rest ih =>
    rw [settleRemote, List.forall_mem_cons]
    split
    · rename_i missing
      simp only [throw, throwThe, MonadExceptOf.throw, reduceCtorEq, false_iff]
      exact fun all => modifyMid_none missing all.1
    · rename_i changed located
      have same : SameSlots slots changed := modifyMid_same located fun _ => rfl
      simp only [ih, holds_same same]
      exact ⟨fun later => ⟨modifyMid_some located, later⟩, And.right⟩

theorem commitCodecs_ok {engine : Engine} {answers remotes : List Section}
    (read : engine.committed = .ok (answers, remotes)) :
    engine.commitCodecs.2 = .ok () ↔ ∀ part ∈ answers,
      (∃ remote ∈ remotes, remote.mid = part.mid) ∧ Holds engine.slots part.mid := by
  rw [← commitSections_ok, commitCodecs, read]

theorem commitCodecs_error {engine : Engine} (failed : engine.committed = .error error) :
    engine.commitCodecs.2 = .error error := by
  rw [commitCodecs, failed]

end Commit

/-- The sections of a local answer have remote ones and slots. -/
def Agrees (engine : Engine) (value : Description) : Prop :=
  ∃ answers remote remotes, sections value = .ok answers ∧ engine.pendingRemote = some remote ∧
    sections remote = .ok remotes ∧ ∀ part ∈ answers,
      (∃ other ∈ remotes, other.mid = part.mid) ∧ Holds engine.slots part.mid

/-- A generated answer that is set is one whose codecs can be committed. -/
def AtomicLocal (engine : Engine) (value : Description) : Prop :=
  value.type = text "answer" → engine.signaling = .haveRemoteOffer →
    engine.generatedAnswer = some value → engine.Agrees value

/-- The engine as a local answer leaves it, before its codecs are committed. -/
def answered (engine : Engine) (value : Description) : Engine :=
  { engine with
    currentLocal := some value, currentRemote := engine.pendingRemote, pendingRemote := none,
    pendingLocal := none, signaling := .stable, slots := settle engine.slots }

variable {value : Description} {engine : Engine}

theorem answered_committed (isAnswer : value.type = text "answer")
    {answers remotes : List Section} : (engine.answered value).committed = .ok (answers, remotes) ↔
      ∃ remote, sections value = .ok answers ∧ engine.pendingRemote = some remote ∧
        sections remote = .ok remotes := by
  unfold committed answered
  cases pending : engine.pendingRemote with
  | none => simp [throw, throwThe, MonadExceptOf.throw]
  | some remote =>
    cases first : sections value <;> cases second : sections remote <;>
      simp [isAnswer, first, second, bind, Except.bind, pure, Except.pure]

theorem answered_ok (isAnswer : value.type = text "answer") :
    (engine.answered value).commitCodecs.2 = .ok () ↔ engine.Agrees value := by
  have same : SameSlots engine.slots (engine.answered value).slots := settle_same _
  cases read : (engine.answered value).committed with
  | error error =>
    rw [commitCodecs_error read]
    simp only [reduceCtorEq, false_iff]
    rintro ⟨answers, remote, remotes, first, pending, second, _⟩
    rw [(answered_committed isAnswer).mpr ⟨remote, first, pending, second⟩] at read
    contradiction
  | ok result =>
    obtain ⟨answers, remotes⟩ := result
    obtain ⟨remote, first, pending, second⟩ := (answered_committed isAnswer).mp read
    rw [commitCodecs_ok read]
    simp only [holds_same same]
    constructor
    · exact fun all => ⟨answers, remote, remotes, first, pending, second, all⟩
    · rintro ⟨answers', remote', remotes', first', pending', second', all⟩
      rw [first] at first'
      rw [pending] at pending'
      cases first'
      cases pending'
      rw [second] at second'
      cases second'
      exact all

theorem setLocal_atomic
    (offered : ∀ value, engine.generatedOffer = some value → ∃ parts, sections value = .ok parts) :
    engine.Unchanged (engine.setLocal value) ↔ engine.AtomicLocal value := by
  unfold setLocal AtomicLocal
  split_ifs with isOffer refused isAnswer refused
  · refine ⟨fun _ isAnswer => ?_, fun _ _ _ => rfl⟩
    rw [isOffer.1] at isAnswer
    contradiction
  · rw [not_or, not_not] at refused
    obtain ⟨parts, read⟩ := offered value refused.1
    refine ⟨fun _ isAnswer => ?_, fun _ => .of_ok (show _ = Except.ok () from ?_)⟩
    · rw [isOffer.1] at isAnswer
      contradiction
    · simp only [localCandidates, read]
      rfl
  · refine ⟨fun _ _ _ generated => absurd generated refused, fun _ _ _ => rfl⟩
  · rw [not_not] at refused
    refine Iff.trans ?_ (show engine.Agrees value ↔ _ from
      ⟨fun agrees _ _ _ => agrees, fun atomic => atomic isAnswer.1 isAnswer.2 refused⟩)
    rw [← answered_ok isAnswer.1]
    cases committed : (engine.answered value).commitCodecs.2 with
    | ok =>
      obtain ⟨answers, _, _, read, _⟩ := (answered_ok isAnswer.1).mp committed
      refine ⟨fun _ => rfl, fun _ => .of_ok (show _ = Except.ok () from ?_)⟩
      change ((engine.answered value).commitCodecs.2 >>= fun _ => localCandidates value) = .ok ()
      simp only [committed, localCandidates, read]
      rfl
    | error error =>
      simp only [reduceCtorEq, iff_false]
      intro unchanged
      have same := congrArg Described.signaling (unchanged error (by
        change ((engine.answered value).commitCodecs.2 >>= fun _ => localCandidates value) = _
        rw [committed]
        rfl))
      have exchanged := congrArg Prod.fst (commitCodecs_exchange (engine.answered value))
      have stable : Signaling.stable = engine.signaling := exchanged.symm.trans same
      rw [isAnswer.2] at stable
      contradiction
  · exact ⟨fun _ isAnswer' signaling => absurd ⟨isAnswer', signaling⟩ isAnswer, fun _ _ _ => rfl⟩

/-- A remote answer that passes the checks while an offer is pending is one that str0m
accepts and that has a slot for every section. -/
def AtomicRemote (engine : Engine) (rtc : Str0m) (value : Description) : Prop :=
  value.type = text "answer" → engine.signaling = .haveLocalOffer → ∀ parts pending,
    engine.checkAnswer rtc value = .ok parts → engine.pending = some pending →
    rtc.acceptAnswer pending value.sdp = .ok () ∧ ∀ part ∈ parts, Holds engine.slots part.mid

theorem checkAnswer_ok {parts : List Section} (checked : engine.checkAnswer rtc value = .ok parts) :
    sections value = .ok parts ∧ ∃ mine, engine.pendingLocal = some mine := by
  obtain ⟨read, passed, checked⟩ := Fallible.bind_ok checked
  split at checked
  · rename_i mine pendingLocal
    obtain ⟨offered, _, checked⟩ := Fallible.bind_ok checked
    obtain ⟨_, checked⟩ := Fallible.guard_ok checked
    obtain ⟨_, _, checked⟩ := Fallible.bind_ok checked
    cases checked
    exact ⟨preflight_ok passed, mine, pendingLocal⟩
  · contradiction

/-- The engine as an accepted remote answer leaves it, before its codecs are committed. -/
def settled (engine : Engine) (value : Description) (slots : List Slot) : Engine :=
  { engine with
    pending := none, slots, currentLocal := engine.pendingLocal, pendingLocal := none,
    currentRemote := some value, pendingRemote := none, generatedOffer := none,
    restart := false, signaling := .stable }

/-- Committing an answer to our own offer finds each of its sections in itself. -/
theorem settled_ok {value mine : Description} {parts : List Section}
    {slots : List Slot} (pendingLocal : engine.pendingLocal = some mine)
    (isOffer : mine.type = text "offer") (read : sections value = .ok parts)
    (held : ∀ part ∈ parts, Holds slots part.mid) :
    (engine.settled value slots).commitCodecs.2 = .ok () := by
  have different : mine.type ≠ text "answer" := by
    rw [isOffer]
    decide
  have both : (engine.settled value slots).committed = .ok (parts, parts) := by
    unfold committed settled
    simp only [pendingLocal, if_neg different, read]
    rfl
  rw [commitCodecs_ok both]
  exact fun part member => ⟨⟨part, member, rfl⟩, held part member⟩

section
variable {engine : Engine} {rtc : Str0m}
  (offers : ∀ mine, engine.pendingLocal = some mine → mine.type = text "offer")
include offers

theorem setRemoteAnswer_atomic :
    engine.Unchanged (engine.setRemoteAnswer rtc value) ↔ ∀ parts pending,
      engine.checkAnswer rtc value = .ok parts → engine.pending = some pending →
      rtc.acceptAnswer pending value.sdp = .ok () ∧
        ∀ part ∈ parts, Holds engine.slots part.mid := by
  unfold setRemoteAnswer
  cases checked : engine.checkAnswer rtc value with
  | error error => simp [Unchanged]
  | ok parts =>
    obtain ⟨read, mine, pendingLocal⟩ := checkAnswer_ok checked
    cases taken : engine.pending with
    | none => simp [Unchanged]
    | some pending =>
      -- from here on the pending offer is gone, so every failure shows
      have lost {after : Engine} (gone : after.pending = none) :
          after.described ≠ engine.described := by
        intro same
        have := congrArg Described.pending same
        simp [described, gone, taken] at this
      refine Iff.trans ?_ (show rtc.acceptAnswer pending value.sdp = .ok () ∧
          (∀ part ∈ parts, Holds engine.slots part.mid) ↔ _ from
        ⟨fun both _ _ same same' => by cases same; cases same'; exact both,
          fun all => all parts pending rfl rfl⟩)
      dsimp only
      cases accepted : rtc.acceptAnswer pending value.sdp with
      | error error =>
        simp only [reduceCtorEq, false_and, iff_false]
        exact fun unchanged => lost rfl (unchanged error rfl)
      | ok =>
        simp only [true_and]
        rw [← settleRemote_ok parts engine.slots]
        cases result : (settleRemote parts engine.slots).2 with
        | error error =>
          simp only [reduceCtorEq, iff_false]
          exact fun unchanged => lost rfl (unchanged error rfl)
        | ok =>
          simp only [iff_true]
          refine .of_ok (settled_ok pendingLocal (offers mine pendingLocal) read ?_)
          intro part member
          rw [holds_same (settleRemote_same parts engine.slots)]
          exact (settleRemote_ok parts engine.slots).mp result part member

theorem setRemote_atomic :
    engine.Unchanged (engine.setRemote rtc value) ↔ engine.AtomicRemote rtc value := by
  unfold setRemote AtomicRemote
  split_ifs with isOffer isAnswer
  · refine ⟨fun _ isAnswer => ?_, fun _ => ?_⟩
    · rw [isOffer.1] at isAnswer
      contradiction
    · unfold setRemoteOffer
      dsimp only
      split
      · exact fun _ _ => rfl
      · exact .of_ok rfl
  · rw [setRemoteAnswer_atomic offers]
    exact ⟨fun atomic _ _ => atomic, fun atomic => atomic isAnswer.1 isAnswer.2⟩
  · exact ⟨fun _ isAnswer' signaling => absurd ⟨isAnswer', signaling⟩ isAnswer, fun _ _ _ => rfl⟩

end

/-- What holds of the descriptions of every reached engine. -/
structure Drafted (engine : Engine) : Prop where
  readable : ∀ value, engine.generatedOffer = some value → ∃ parts, sections value = .ok parts
  offers : ∀ mine, engine.pendingLocal = some mine → mine.type = text "offer"

theorem Drafted.of_same {before after : Engine} (drafted : before.Drafted)
    (generated : after.generatedOffer = before.generatedOffer)
    (pending : after.pendingLocal = before.pendingLocal) : after.Drafted where
  readable value made := drafted.readable value (generated.symm.trans made)
  offers mine has := drafted.offers mine (pending.symm.trans has)

section
variable {engine : Engine} (drafted : engine.Drafted)
include drafted

theorem changeSlot_drafted (id : Option Nat)
    (check : Slot → Except String Unit) (change : Slot → Slot) :
    (engine.changeSlot id check change).1.Drafted := by
  unfold changeSlot
  dsimp only
  split <;> exact drafted.of_same rfl rfl

theorem commitCodecs_drafted : engine.commitCodecs.1.Drafted := by
  unfold commitCodecs
  split <;> exact drafted.of_same rfl rfl

theorem offer_drafted (rtc : Str0m) : (engine.offer rtc).1.Drafted := by
  unfold offer
  split_ifs
  · exact drafted
  · exact drafted
  · dsimp only
    split
    · exact drafted.of_same rfl rfl
    · split
      · exact drafted.of_same rfl rfl
      · rename_i made
        refine ⟨?_, drafted.offers⟩
        rintro value ⟨⟩
        obtain ⟨_, _, made⟩ := Fallible.bind_ok made
        split at made
        · obtain ⟨_, _, made⟩ := Fallible.bind_ok made
          obtain ⟨parts, read, made⟩ := Fallible.bind_ok made
          cases made
          exact ⟨parts, read⟩
        · contradiction

theorem setLocal_drafted (value : Description) : (engine.setLocal value).1.Drafted := by
  unfold setLocal
  split_ifs with isOffer
  · exact drafted
  · refine ⟨drafted.readable, ?_⟩
    rintro mine ⟨⟩
    exact isOffer.1
  · exact drafted
  · exact commitCodecs_drafted ⟨drafted.readable, by simp⟩
  · exact drafted

theorem setRemote_drafted (rtc : Str0m)
    (value : Description) : (engine.setRemote rtc value).1.Drafted := by
  unfold setRemote
  split_ifs
  · unfold setRemoteOffer
    dsimp only
    split <;> exact drafted.of_same rfl rfl
  · unfold setRemoteAnswer
    split
    · exact drafted
    · split
      · exact drafted
      · dsimp only
        split
        · exact drafted.of_same rfl rfl
        · split
          · exact drafted.of_same rfl rfl
          · exact commitCodecs_drafted ⟨by simp, by simp⟩
  · exact drafted

theorem command_drafted (rtc : Str0m)
    (command : Command) : (engine.command rtc command).1.Drafted := by
  cases command with
  | add id kind direction media =>
    simp only [Engine.command, silent, add]
    split <;> exact drafted.of_same rfl rfl
  | bind => exact changeSlot_drafted drafted _ _ _
  | direction id direction =>
    cases direction with
    | none => exact drafted
    | some direction => exact changeSlot_drafted drafted _ _ _
  | replace => exact changeSlot_drafted drafted _ _ _
  | active id active =>
    cases active with
    | none => exact drafted
    | some active => exact changeSlot_drafted drafted _ _ _
  | parameters => exact changeSlot_drafted drafted _ _ _
  | preferences id codecs =>
    simp only [Engine.command, silent, changePreferences]
    split
    · exact drafted
    · exact changeSlot_drafted drafted _ _ _
  | createOffer => exact offer_drafted drafted rtc
  | createAnswer =>
    simp only [Engine.command, describing, answer]
    split <;> exact drafted.of_same rfl rfl
  | setLocal value =>
    cases value with
    | none => exact drafted
    | some value => exact setLocal_drafted drafted value
  | setRemote value =>
    cases value with
    | none => exact drafted
    | some value => exact setRemote_drafted drafted rtc value
  | restart => exact drafted.of_same rfl rfl
  | candidate => exact drafted

end

theorem reached_drafted {engine : Engine} (run : Reached engine) : engine.Drafted := by
  refine Transition.Reachable.invariant (P := Drafted) ?_ ?_ run
  · rintro _ rfl
    exact ⟨by simp, by simp⟩
  · rintro before input _ _ drafted rfl
    exact command_drafted drafted _ _

/-- When a description command that fails leaves the description state alone. -/
def Atomic (engine : Engine) (rtc : Str0m) : Command → Prop
  | .createOffer => engine.AtomicOffer rtc
  | .setLocal (some value) => engine.AtomicLocal value
  | .setRemote (some value) => engine.AtomicRemote rtc value
  | _ => True

def describes : Command → Bool
  | .createOffer | .setLocal _ | .setRemote _ => true
  | _ => false

theorem reached_atomic {engine : Engine} (run : Reached engine) (rtc : Str0m) {command : Command} (description : describes command = true) :
    (∀ error, (engine.command rtc command).2 = .error error →
      (engine.command rtc command).1.described = engine.described) ↔
    engine.Atomic rtc command := by
  have drafted := reached_drafted run
  change engine.Unchanged (engine.command rtc command) ↔ _
  cases command with
  | createOffer => exact unchanged_describing.trans (offer_atomic engine rtc)
  | setLocal value =>
    cases value with
    | none => exact ⟨fun _ => trivial, fun _ _ _ => rfl⟩
    | some value => exact unchanged_silent.trans (setLocal_atomic drafted.readable)
  | setRemote value =>
    cases value with
    | none => exact ⟨fun _ => trivial, fun _ _ _ => rfl⟩
    | some value => exact unchanged_silent.trans (setRemote_atomic drafted.offers)
  | _ => simp [describes] at description

theorem reached_atomic_added :
    (∀ error, (command (perform {} (sampleRtc "m1", .add (some 1) (some .audio) none {}))
        (sampleRtc "m1") .createOffer).2 = .error error →
      (command (perform {} (sampleRtc "m1", .add (some 1) (some .audio) none {}))
        (sampleRtc "m1") .createOffer).1.described =
      described (perform {} (sampleRtc "m1", .add (some 1) (some .audio) none {}))) ↔
    Atomic (perform {} (sampleRtc "m1", .add (some 1) (some .audio) none {}))
      (sampleRtc "m1") .createOffer :=
  reached_atomic (.next (.start rfl) rfl) (sampleRtc "m1") rfl

/-- An offered audio slot, and the offer set as the local description. -/
def sampleOffering : Engine :=
  let engine := [(sampleRtc "m1", .add (some 1) (some .audio) none {}),
    (sampleRtc "m1", .createOffer)].foldl perform {}
  perform engine (sampleRtc "m1", .setLocal engine.generatedOffer)

/-- str0m that accepts no answer. -/
def refusingRtc : Str0m :=
  { sampleRtc "m1" with acceptAnswer := fun _ _ => throw "OperationError: refused" }

def sampleAnswer : Description := { sampleAudio "m1" with type := text "answer" }

def sampleDirections : List (Str0m × Command) :=
  [(sampleRtc "m1", .add (some 1) (some .audio) none {}),
    (sampleRtc "m1", .add (some 2) (some .audio) (some (text "sideways")) {})]

theorem sampleOffering_reached : Reached sampleOffering :=
  .next (.next (.next (.start rfl) rfl) rfl) rfl

set_option maxRecDepth 20000 in
/-- An answer that str0m refuses loses the pending offer; an offer that stops at an unknown
direction has given the slot before it a MID. -/
theorem failures_change_descriptions :
    (Reached sampleOffering ∧ sampleOffering.pending = some 0 ∧
      (sampleOffering.command refusingRtc (.setRemote (some sampleAnswer))).2 =
        .error "OperationError: refused" ∧
      (sampleOffering.command refusingRtc (.setRemote (some sampleAnswer))).1.pending = none) ∧
    Reached (sampleDirections.foldl perform {}) ∧
    (command (sampleDirections.foldl perform {}) (sampleRtc "m1") .createOffer).2 =
      .error "TypeError: invalid transceiver direction" ∧
    (command (sampleDirections.foldl perform {}) (sampleRtc "m1") .createOffer).1.described ≠
      described (sampleDirections.foldl perform {}) := by
  refine ⟨⟨sampleOffering_reached, ?_⟩, Transition.Reachable.run sampleDirections (.start rfl),
    rfl, ?_⟩
  · decide
  · decide

end Engine
end Chuzz.Webrtc
