import Chuzz.Gpu.ByteTable

/-! Accounting of the byte table. What is charged is exactly what is staged or
active, in every order of the ten kinds of critical sections, so the `u64`
subtractions, which would wrap, never do. -/
namespace Chuzz.Gpu
open Std Library.TreeMapValues Library.Transition

section
variable {V : Type} {m : ExtTreeMap Nat V} {k : Nat}

theorem length_insert (v : V) :
    (values (m.insert k v)).length = (values (m.erase k)).length + 1 := by
  rw [(values_insert m k v).length_eq, List.length_cons]

theorem length_erase {v : V}
    (found : m[k]? = some v) : (values m).length = (values (m.erase k)).length + 1 := by
  rw [(values_erase found).length_eq, List.length_cons]

theorem mem_of_found {v : V} (found : m[k]? = some v) : k ∈ m := by
  rw [ExtTreeMap.mem_iff_isSome_getElem?, found]
  rfl

end

section
variable {A : Type} {items : List A} {i : Nat}

theorem mem_eraseIdx_of_ne {gone a : A}
    (here : items[i]? = some gone) (member : a ∈ items) (other : a ≠ gone) :
    a ∈ items.eraseIdx i := by
  obtain ⟨j, found⟩ := List.getElem?_of_mem member
  rw [List.mem_eraseIdx_iff_getElem?]
  refine ⟨j, fun same => other ?_, found⟩
  rw [same, here] at found
  exact (Option.some.inj found).symm

theorem mem_set_self {old : A} (here : items[i]? = some old) (new : A) : new ∈ items.set i new :=
  List.mem_set (List.getElem?_eq_some_iff.mp here).1 new

theorem mem_set_of_ne {old a : A} (here : items[i]? = some old) (member : a ∈ items) :
    a = old ∨ ∀ new, a ∈ items.set i new := by
  obtain ⟨j, found⟩ := List.getElem?_of_mem member
  by_cases same : i = j
  · rw [← same, here] at found
    exact .inl (Option.some.inj found).symm
  · refine .inr fun new => List.mem_of_getElem? (i := j) ?_
    rw [List.getElem?_set_ne same, found]

end

namespace Entries

structure Sound (table : Entries) : Prop where
  accounted : table.allocated = total Entry.size table.values + total id table.active
  bytes : table.allocated ≤ tableBytesLimit
  few : table.count ≤ resourceLimit
  known : ∀ k : Nat, k ∈ table.values ∨ k ∈ table.active → k ≤ table.nextId
  apart : ∀ k ∈ table.values, k ∉ table.active

/-- No handle is new, and no entry is new or another one. -/
structure Within (after before : Entries) : Prop where
  next : after.nextId = before.nextId
  lookup : ∀ (k : Nat) entry, after.values[k]? = some entry → before.values[k]? = some entry

theorem Within.refl (self : Entries) : self.Within self := ⟨rfl, fun _ _ found => found⟩

theorem Within.trans {first second third : Entries} (later : third.Within second)
    (earlier : second.Within first) : third.Within first :=
  ⟨later.next.trans earlier.next, fun k entry found => earlier.lookup k entry (later.lookup k entry found)⟩

variable {self : Entries} {k : Nat}

theorem Sound.value_le (sound : self.Sound) {entry : Entry} (found : self.values[k]? = some entry) :
    entry.size ≤ self.allocated := by
  have parts := total_erase Entry.size found
  have accounted := sound.accounted
  omega

theorem Sound.active_le (sound : self.Sound) {size : Nat} (found : self.active[k]? = some size) :
    size ≤ self.allocated := by
  have parts := total_erase id found
  have accounted := sound.accounted
  simp only [id] at parts accounted
  omega

theorem refund_allocated {size : Nat} (bytes : self.allocated ≤ tableBytesLimit)
    (within : size ≤ self.allocated) : (self.refund size).allocated = self.allocated - size := by
  simp only [refund, tableBytesLimit] at bytes ⊢
  omega

variable {after : Entries}

theorem reserve_ok {size handle : Nat} (reserved : self.reserve size = .ok (after, handle)) :
    after = { self with nextId := self.nextId + 1, allocated := self.allocated + size } ∧
      handle = self.nextId + 1 ∧ self.allocated + size ≤ tableBytesLimit ∧
      self.count < resourceLimit := by
  simp only [Entries.reserve] at reserved
  split at reserved
  · contradiction
  · split at reserved
    · contradiction
    · rename_i permitted
      cases reserved
      simp only [not_or, Nat.not_lt, ge_iff_le, Nat.not_le] at permitted
      exact ⟨rfl, rfl, permitted.2.1, permitted.2.2.1⟩

theorem Sound.erased (sound : self.Sound) {entry : Entry} (found : self.values[k]? = some entry) :
    ({ self with values := self.values.erase k }.refund entry.size).Sound := by
  have parts := total_erase Entry.size found
  have left : ({ self with values := self.values.erase k }.refund entry.size).allocated =
      self.allocated - entry.size := refund_allocated sound.bytes (sound.value_le found)
  have shorter := length_erase found
  have few := sound.few
  have accounted := sound.accounted
  have bytes := sound.bytes
  refine ⟨?_, ?_, ?_, fun k' present => ?_, fun k' present => ?_⟩
  · rw [left]
    simp only [refund]
    omega
  · rw [left]
    omega
  · simp only [count, refund] at few ⊢
    omega
  · exact sound.known k' (present.imp_left fun present => (ExtTreeMap.mem_erase.mp present).2)
  · exact sound.apart k' (ExtTreeMap.mem_erase.mp present).2

theorem Sound.settled (sound : self.Sound) {size : Nat} (found : self.active[k]? = some size) :
    ({ self with active := self.active.erase k }.refund size).Sound := by
  have parts := total_erase id found
  have left : ({ self with active := self.active.erase k }.refund size).allocated =
      self.allocated - size := refund_allocated sound.bytes (sound.active_le found)
  have shorter := length_erase found
  have few := sound.few
  have accounted := sound.accounted
  have bytes := sound.bytes
  refine ⟨?_, ?_, ?_, fun k' present => ?_, fun k' present active => ?_⟩
  · rw [left]
    simp only [refund, id] at parts ⊢
    omega
  · rw [left]
    omega
  · simp only [count, refund] at few ⊢
    omega
  · exact sound.known k' (present.imp_right fun present => (ExtTreeMap.mem_erase.mp present).2)
  · exact sound.apart k' present (ExtTreeMap.mem_erase.mp active).2

theorem within_erase (next : after.nextId = self.nextId)
    (values : after.values = self.values.erase k) : after.Within self := by
  refine ⟨next, fun k' entry found => ?_⟩
  rw [values, ExtTreeMap.getElem?_erase] at found
  split at found
  · contradiction
  · exact found

theorem remove_sound (sound : self.Sound) (k : Nat) :
    (self.remove k).Sound ∧ (self.remove k).Within self ∧ (self.remove k).values[k]? = none := by
  simp only [remove]
  split
  · exact ⟨sound, .refl _, ‹_›⟩
  · rename_i found
    refine ⟨sound.erased found, within_erase rfl rfl, ?_⟩
    simp [refund]

theorem discard_sound (sound : self.Sound) (k : Nat) :
    (self.discard k).Sound ∧ (self.discard k).Within self ∧ (self.discard k).values[k]? = none := by
  obtain ⟨sound', within, gone⟩ := remove_sound sound k
  simp only [discard]
  split
  · exact ⟨sound', within, gone⟩
  · rename_i found
    exact ⟨sound'.settled found, ⟨within.next, within.lookup⟩, gone⟩

theorem releaseStaged_sound (sound : self.Sound) (k : Nat) :
    (self.releaseStaged k).Sound ∧ (self.releaseStaged k).Within self := by
  simp only [releaseStaged]
  split
  · exact ⟨(remove_sound sound k).1, (remove_sound sound k).2.1⟩
  · exact ⟨sound, .refl _⟩

theorem insert_sound (sound : self.Sound) {block : Block} {input : Bool}
    {handle : Nat} (inserted : self.insert block input = .ok (after, handle)) :
    after.Sound ∧ handle = self.nextId + 1 ∧ after.nextId = self.nextId + 1 ∧
      after.values = self.values.insert handle { block, input, claimed := false } := by
  simp only [Entries.insert] at inserted
  split at inserted
  · contradiction
  · rename_i reserved
    obtain ⟨rfl, rfl, bytes, few⟩ := reserve_ok reserved
    cases inserted
    have absent : self.values[self.nextId + 1]? = none :=
      ExtTreeMap.getElem?_eq_none fun present => Nat.not_succ_le_self _ (sound.known _ (.inl present))
    have accounted := sound.accounted
    refine ⟨⟨?_, bytes, ?_, fun k present => ?_, fun k present active => ?_⟩, rfl, rfl, rfl⟩
    · simp only [total_insert, erase_of_absent absent, Entry.size]
      omega
    · simp only [count, length_insert, erase_of_absent absent] at few ⊢
      omega
    · rcases present with present | present
      · rcases ExtTreeMap.mem_insert.mp present with same | earlier
        · exact Nat.le_of_eq (Std.compare_eq_iff_eq.mp same).symm
        · exact Nat.le_succ_of_le (sound.known k (.inl earlier))
      · exact Nat.le_succ_of_le (sound.known k (.inr present))
    · rcases ExtTreeMap.mem_insert.mp present with same | earlier
      · have known := sound.known k (.inr active)
        have same := Std.compare_eq_iff_eq.mp same
        omega
      · exact sound.apart k earlier active

theorem mark_sound (sound : self.Sound) (k : Nat) :
    (self.mark k).Sound ∧ (self.mark k).nextId = self.nextId ∧
      ∀ (k' : Nat) entry, (self.mark k).values[k']? = some entry →
        k' ∈ self.values ∧ (k' = k ∨ self.values[k']? = some entry) := by
  simp only [mark]
  split
  · exact ⟨sound, rfl, fun k' entry found => ⟨mem_of_found found, .inr found⟩⟩
  · rename_i entry found
    have present := mem_of_found found
    have parts := total_erase Entry.size found
    have shorter := length_erase found
    have few := sound.few
    have accounted := sound.accounted
    refine ⟨⟨?_, sound.bytes, ?_, fun k' present' => ?_, fun k' present' => ?_⟩, rfl,
      fun k' entry' found' => ?_⟩
    · simp only [total_insert, Entry.size] at parts accounted ⊢
      omega
    · simp only [count, length_insert] at few ⊢
      omega
    · rcases present' with present' | present'
      · rcases ExtTreeMap.mem_insert.mp present' with same | earlier
        · exact Std.compare_eq_iff_eq.mp same ▸ sound.known k (.inl present)
        · exact sound.known k' (.inl earlier)
      · exact sound.known k' (.inr present')
    · rcases ExtTreeMap.mem_insert.mp present' with same | earlier
      · exact Std.compare_eq_iff_eq.mp same ▸ sound.apart k present
      · exact sound.apart k' earlier
    · simp only [ExtTreeMap.getElem?_insert] at found'
      split at found'
      · rename_i same
        have same := Std.compare_eq_iff_eq.mp same
        exact ⟨same ▸ present, .inl same.symm⟩
      · exact ⟨mem_of_found found', .inr found'⟩

theorem marks_sound (ids : List Nat) (sound : self.Sound) :
    (ids.foldl mark self).Sound ∧ (ids.foldl mark self).nextId = self.nextId ∧
      ∀ (k : Nat) entry, (ids.foldl mark self).values[k]? = some entry →
        k ∈ self.values ∧ (k ∈ ids ∨ self.values[k]? = some entry) := by
  induction ids generalizing self with
  | nil => exact ⟨sound, rfl, fun k entry found => ⟨mem_of_found found, .inr found⟩⟩
  | cons id rest ih =>
    obtain ⟨sound', next, lookup⟩ := mark_sound sound id
    obtain ⟨sound'', next', lookup'⟩ := ih sound'
    refine ⟨sound'', next'.trans next, fun k entry found => ?_⟩
    obtain ⟨present, member | earlier⟩ := lookup' k entry found
    · obtain ⟨entry', found'⟩ := Option.isSome_iff_exists.mp
        (ExtTreeMap.mem_iff_isSome_getElem?.mp present)
      exact ⟨(lookup k entry' found').1, .inl (List.mem_cons_of_mem _ member)⟩
    · obtain ⟨present, same | earlier⟩ := lookup k entry earlier
      · exact ⟨present, .inl (List.mem_cons.mpr (.inl same))⟩
      · exact ⟨present, .inr earlier⟩

theorem release_sound (ids : List Nat) (sound : self.Sound) :
    (ids.foldl (fun self id => if self.has id claimable then self.remove id else self) self).Sound ∧
      (ids.foldl (fun self id => if self.has id claimable then self.remove id else self)
        self).Within self := by
  induction ids generalizing self with
  | nil => exact ⟨sound, .refl _⟩
  | cons id rest ih =>
    have one : (if self.has id claimable then self.remove id else self).Sound ∧
        (if self.has id claimable then self.remove id else self).Within self := by
      split
      · exact ⟨(remove_sound sound id).1, (remove_sound sound id).2.1⟩
      · exact ⟨sound, .refl _⟩
    obtain ⟨sound', within⟩ := ih one.1
    exact ⟨sound', within.trans one.2⟩

theorem takeInput_sound (sound : self.Sound) (k : Nat) :
    (self.takeInput k).1.Sound ∧ (self.takeInput k).1.Within self ∧
      ∀ bytes, (self.takeInput k).2 = .ok bytes →
        (∃ entry, self.values[k]? = some entry ∧ entry.claimed = true) ∧
          (self.takeInput k).1.values[k]? = none := by
  simp only [takeInput]
  split
  · exact ⟨sound, .refl _, fun _ failed => nomatch failed⟩
  · rename_i entry found
    split
    · rename_i ready
      split
      · exact ⟨sound.erased found, within_erase rfl rfl, fun _ failed => nomatch failed⟩
      · refine ⟨⟨?_, sound.bytes, ?_, fun k' present => ?_, fun k' present active => ?_⟩,
          within_erase rfl rfl, fun bytes _ => ⟨⟨entry, found, (Bool.and_eq_true_iff.mp ready).2⟩, ?_⟩⟩
        · have parts := total_erase Entry.size found
          have absent : self.active[k]? = none :=
            ExtTreeMap.getElem?_eq_none (sound.apart k (mem_of_found found))
          have accounted := sound.accounted
          simp only [total_insert, erase_of_absent absent, id] at accounted ⊢
          omega
        · have absent : self.active[k]? = none :=
            ExtTreeMap.getElem?_eq_none (sound.apart k (mem_of_found found))
          have shorter := length_erase found
          have few := sound.few
          simp only [count, length_insert, erase_of_absent absent] at few ⊢
          omega
        · rcases present with present | present
          · exact sound.known k' (.inl (ExtTreeMap.mem_erase.mp present).2)
          · rcases ExtTreeMap.mem_insert.mp present with same | earlier
            · exact Std.compare_eq_iff_eq.mp same ▸ sound.known k (.inl (mem_of_found found))
            · exact sound.known k' (.inr earlier)
        · obtain ⟨other, present⟩ := ExtTreeMap.mem_erase.mp present
          rcases ExtTreeMap.mem_insert.mp active with same | earlier
          · exact other same
          · exact sound.apart k' present earlier
        · simp
    · exact ⟨sound, .refl _, fun _ failed => nomatch failed⟩

theorem takeOutput_sound (sound : self.Sound) (k : Nat) :
    (self.takeOutput k).1.Sound ∧ (self.takeOutput k).1.Within self := by
  simp only [takeOutput]
  split
  · exact ⟨sound, .refl _⟩
  · split
    · exact ⟨sound, .refl _⟩
    · exact ⟨(remove_sound sound k).1, (remove_sound sound k).2.1⟩

theorem empty_sound (nextId : Nat) (closed : Bool) : Sound { nextId, closed } := by
  have empty : ∀ k : Nat, k ∉ ({ nextId, closed } : Entries).values := fun _ =>
    ExtTreeMap.not_mem_empty
  have idle : ∀ k : Nat, k ∉ ({ nextId, closed } : Entries).active := fun _ =>
    ExtTreeMap.not_mem_empty
  exact ⟨rfl, Nat.zero_le _, Nat.zero_le _,
    fun k present => (present.elim (empty k) (idle k)).elim, fun k present => absurd present (empty k)⟩

theorem close_within (self : Entries) : self.close.Within self :=
  ⟨rfl, fun _ _ found => absurd (mem_of_found found) ExtTreeMap.not_mem_empty⟩

end Entries

namespace Document

structure Sound (document : Document) : Prop where
  table : document.entries.Sound
  leased : ∀ (k : Nat) entry, document.entries.values[k]? = some entry → entry.claimed = true →
    ∃ lease ∈ document.leases, k ∈ lease
  issued : ∀ k ∈ document.issued, k ≤ document.entries.nextId
  fresh : document.issued.Nodup
  handed : ∀ k ∈ document.handed, k ≤ document.entries.nextId ∧ k ∉ document.entries.values
  once : document.handed.Nodup

variable {self : Document}

theorem Sound.shrink (sound : self.Sound) {entries : Entries} (table : entries.Sound)
    (within : entries.Within self.entries) : Sound { self with entries } where
  table := table
  leased k entry found := sound.leased k entry (within.lookup k entry found)
  issued k member := within.next ▸ sound.issued k member
  fresh := sound.fresh
  handed k member := by
    refine ⟨within.next ▸ (sound.handed k member).1, fun present => ?_⟩
    obtain ⟨entry, found⟩ := Option.isSome_iff_exists.mp
      (ExtTreeMap.mem_iff_isSome_getElem?.mp present)
    exact (sound.handed k member).2 (mem_of_found (within.lookup k entry found))
  once := sound.once

theorem Sound.issue (sound : self.Sound) {block : Block} {input : Bool} :
    (self.issue (self.entries.insert block input)).Sound := by
  cases inserted : self.entries.insert block input with
  | error error => exact sound
  | ok result =>
    obtain ⟨entries, handle⟩ := result
    obtain ⟨table, rfl, next, same⟩ := Entries.insert_sound sound.table inserted
    refine ⟨table, fun k entry found claimed => ?_, fun k member => ?_, ?_, fun k member => ?_,
      sound.once⟩
    · simp only [Document.issue, same, ExtTreeMap.getElem?_insert] at found
      split at found
      · cases found
        contradiction
      · exact sound.leased k entry found claimed
    · simp only [Document.issue, next] at member ⊢
      rcases List.mem_cons.mp member with rfl | earlier
      · exact Nat.le_refl _
      · exact Nat.le_succ_of_le (sound.issued k earlier)
    · refine List.nodup_cons.mpr ⟨fun member => ?_, sound.fresh⟩
      exact Nat.not_succ_le_self _ (sound.issued _ member)
    · obtain ⟨known, absent⟩ := sound.handed k member
      simp only [Document.issue, next, same]
      refine ⟨Nat.le_succ_of_le known, fun present => ?_⟩
      rcases ExtTreeMap.mem_insert.mp present with same | earlier
      · have same := Std.compare_eq_iff_eq.mp same
        omega
      · exact absent earlier

theorem Sound.claim (sound : self.Sound) (command : Command) :
    (self.perform (.claim command)).Sound := by
  simp only [perform, Entries.claim]
  split
  · rename_i entries ids claimed
    split at claimed
    · obtain ⟨rfl, same⟩ := Prod.mk.inj claimed
      cases same
      obtain ⟨table, next, lookup⟩ := Entries.marks_sound command.byteIds sound.table
      refine ⟨table, fun k entry found claimed => ?_, fun k member => next ▸ sound.issued k member,
        sound.fresh, fun k member => ?_, sound.once⟩
      · rcases (lookup k entry found).2 with member | earlier
        · exact ⟨_, List.mem_cons_self, member⟩
        · obtain ⟨lease, member, held⟩ := sound.leased k entry earlier claimed
          exact ⟨lease, List.mem_cons_of_mem _ member, held⟩
      · refine ⟨next ▸ (sound.handed k member).1, fun present => ?_⟩
        obtain ⟨entry, found⟩ := Option.isSome_iff_exists.mp
          (ExtTreeMap.mem_iff_isSome_getElem?.mp present)
        exact (sound.handed k member).2 (lookup k entry found).1
    · cases claimed
  · rename_i entries error claimed
    split at claimed
    · cases claimed
    · obtain ⟨rfl, _⟩ := Prod.mk.inj claimed
      obtain ⟨table, within⟩ := Entries.release_sound command.byteIds sound.table
      exact sound.shrink table within

theorem Sound.takeInput (sound : self.Sound) (k : Nat) :
    (self.perform (.takeInput k)).Sound := by
  obtain ⟨table, within, taken⟩ := Entries.takeInput_sound sound.table k
  have shrunk := sound.shrink table within
  simp only [perform]
  split
  · rename_i entries bytes result
    rw [result] at shrunk taken
    obtain ⟨⟨entry, found, _⟩, gone⟩ := taken bytes rfl
    refine ⟨shrunk.table, shrunk.leased, shrunk.issued, shrunk.fresh, fun k' member => ?_, ?_⟩
    · rcases List.mem_cons.mp member with rfl | earlier
      · have known := sound.table.known k' (.inl (mem_of_found found))
        have next := within.next
        rw [result] at next
        refine ⟨known.trans (Nat.le_of_eq next.symm), fun present => ?_⟩
        rw [ExtTreeMap.mem_iff_isSome_getElem?, gone] at present
        contradiction
      · exact shrunk.handed k' earlier
    · exact List.nodup_cons.mpr
        ⟨fun member => (sound.handed k member).2 (mem_of_found found), sound.once⟩
  · rename_i entries error result
    rw [result] at shrunk
    exact shrunk

theorem Sound.discardNext (sound : self.Sound) (lease : Nat) : (self.discardNext lease).Sound := by
  simp only [Document.discardNext]
  split
  · exact sound
  · rename_i empty
    refine ⟨sound.table, fun k entry found claimed => ?_, sound.issued, sound.fresh, sound.handed,
      sound.once⟩
    obtain ⟨held, member, inside⟩ := sound.leased k entry found claimed
    have other : held ≠ [] := List.ne_nil_of_mem inside
    exact ⟨held, mem_eraseIdx_of_ne empty member other, inside⟩
  · rename_i id rest current
    obtain ⟨table, within, gone⟩ := Entries.discard_sound sound.table id
    have shrunk := sound.shrink table within
    refine ⟨table, fun k entry found claimed => ?_, shrunk.issued, sound.fresh, shrunk.handed,
      sound.once⟩
    obtain ⟨held, member, inside⟩ := shrunk.leased k entry found claimed
    have other : k ≠ id := by
      rintro rfl
      rw [gone] at found
      contradiction
    rcases mem_set_of_ne current member with same | kept
    · rw [same] at inside
      exact ⟨rest, mem_set_self current rest, (List.mem_cons.mp inside).resolve_left other⟩
    · exact ⟨held, kept rest, inside⟩

theorem reached_sound (reached : Reached self) : self.Sound := by
  refine Reachable.invariant (P := Sound) ?_ ?_ reached
  · rintro _ rfl
    exact ⟨Entries.empty_sound 0 false, by simp, by simp, List.nodup_nil, by simp, List.nodup_nil⟩
  · rintro before op _ _ sound rfl
    cases op with
    | upload bytes => exact sound.issue
    | insert block input => exact sound.issue
    | claim command => exact sound.claim command
    | takeInput id => exact sound.takeInput id
    | takeOutput id =>
      obtain ⟨table, within⟩ := Entries.takeOutput_sound sound.table id
      exact sound.shrink table within
    | releaseStaged id =>
      obtain ⟨table, within⟩ := Entries.releaseStaged_sound sound.table id
      exact sound.shrink table within
    | releaseReply id =>
      obtain ⟨table, within, _⟩ := Entries.discard_sound sound.table id
      exact sound.shrink table within
    | discardNext lease => exact sound.discardNext lease
    | close => exact sound.shrink (Entries.empty_sound _ true) (Entries.close_within _)

/-- In every reached state the charge is exact and within its limits, no handle was
issued twice, none was taken twice, and one can be taken only while a lease that
claimed it has not discarded it. -/
theorem reached_accounted {document : Document} (reached : Reached document) :
    (document.entries.allocated =
        total Entry.size document.entries.values + total id document.entries.active ∧
      (∀ (k : Nat) entry, document.entries.values[k]? = some entry →
        entry.size ≤ document.entries.allocated) ∧
      ∀ (k size : Nat), document.entries.active[k]? = some size →
        size ≤ document.entries.allocated) ∧
    document.entries.allocated ≤ tableBytesLimit ∧ document.entries.count ≤ resourceLimit ∧
    document.issued.Nodup ∧ document.handed.Nodup ∧
    ∀ (k : Nat) bytes, (document.entries.takeInput k).2 = .ok bytes →
      k ∉ document.handed ∧ ∃ lease ∈ document.leases, k ∈ lease := by
  have sound := reached_sound reached
  refine ⟨⟨sound.table.accounted, fun _ _ => sound.table.value_le,
    fun _ _ => sound.table.active_le⟩, sound.table.bytes, sound.table.few, sound.fresh, sound.once,
    fun k bytes taken => ?_⟩
  obtain ⟨⟨entry, found, claimed⟩, _⟩ := (Entries.takeInput_sound sound.table k).2.2 bytes taken
  exact ⟨fun member => (sound.handed k member).2 (mem_of_found found),
    sound.leased k entry found claimed⟩

/-- Three bytes are uploaded, claimed and taken. -/
def takenUpload : Document :=
  [Op.upload [1, 2, 3], .claim { op := "writeBuffer", data := some 1 }, .takeInput 1].foldl perform {}

theorem reached_accounted_taken :
    takenUpload.handed = [1] ∧ takenUpload.entries.allocated = 3 ∧
    ((takenUpload.entries.allocated =
        total Entry.size takenUpload.entries.values + total id takenUpload.entries.active ∧
      (∀ (k : Nat) entry, takenUpload.entries.values[k]? = some entry →
        entry.size ≤ takenUpload.entries.allocated) ∧
      ∀ (k size : Nat), takenUpload.entries.active[k]? = some size →
        size ≤ takenUpload.entries.allocated) ∧
    takenUpload.entries.allocated ≤ tableBytesLimit ∧ takenUpload.entries.count ≤ resourceLimit ∧
    takenUpload.issued.Nodup ∧ takenUpload.handed.Nodup ∧
    ∀ (k : Nat) bytes, (takenUpload.entries.takeInput k).2 = .ok bytes →
      k ∉ takenUpload.handed ∧ ∃ lease ∈ takenUpload.leases, k ∈ lease) := by
  exact ⟨by decide, by decide, reached_accounted (Reachable.run _ (.start rfl))⟩

end Document
end Chuzz.Gpu
