import Chuzz.Broadcast.Channels

/-! No message of a broadcast channel is lost, doubled, reordered or misdirected. What a channel
is owed is what its page has dispatched on it, what the page still holds for it and what waits
for it in the process, in this order; each read of the page moves the waiting part along. -/
namespace Chuzz.Broadcast
open Library.Transition List Option Bool

variable {Wire : Type}

namespace System
variable {system : System Wire} {owner id : Nat}

structure Sound (system : System Wire) : Prop where
  fresh : ∀ id, system.nextId ≤ id → system.channels id = none ∧ system.realms id = none ∧
    system.owed id = [] ∧ system.dispatched id = []
  held : ∀ id channel, system.channels id = some channel →
    ∃ realm, system.realms channel.owner = some realm ∧ (id, channel.name) ∈ realm.channels ∧
      channel.origin = realm.origin
  opens : ∀ owner realm id name, system.realms owner = some realm → (id, name) ∈ realm.channels →
    ∃ channel, system.channels id = some channel ∧ channel.owner = owner ∧ channel.name = name
  filed : ∀ owner realm, system.realms owner = some realm →
    realm.origin = realmOrigin owner realm.url
  timer : ∀ owner realm, system.realms owner = some realm → realm.channels ≠ [] →
    realm.timer = true
  known : ∀ owner realm, system.realms owner = some realm →
    ∀ delivery ∈ realm.deliveries, delivery.1 < system.nextId
  flow : ∀ id channel realm, system.channels id = some channel →
    system.realms channel.owner = some realm →
    system.owed id = system.dispatched id ++ realm.pending id ++ channel.incoming
  ordered : ∀ id, system.dispatched id <+: system.owed id

variable {realm : Realm Wire} {channel : Channel Wire} {order : List Nat}

theorem Sound.known_realm (sound : system.Sound) (there : system.realms owner = some realm) :
    owner < system.nextId := by
  by_contra fresh
  have := (sound.fresh owner (by omega)).2.1
  simp [this] at there

theorem Sound.known_channel (sound : system.Sound) (there : system.channels id = some channel) :
    id < system.nextId := by
  by_contra fresh
  have := (sound.fresh id (by omega)).1
  simp [this] at there

variable {new : Option (Realm Wire)} {other : Nat}

theorem setRealm_some (there : (system.setRealm owner new).realms other = some realm) :
    other = owner ∧ new = some realm ∨ other ≠ owner ∧ system.realms other = some realm := by
  by_cases same : other = owner
  · exact .inl ⟨same, by simpa [setRealm, same] using there⟩
  · exact .inr ⟨same, by simpa [setRealm, same] using there⟩

theorem setRealm_same : (system.setRealm owner (some realm)).realms owner = some realm := if_pos rfl

theorem setRealm_other (apart : other ≠ owner) :
    (system.setRealm owner new).realms other = system.realms other := if_neg apart

theorem setRealm_each {new : Realm Wire} {holds : Nat → Realm Wire → Prop} (mine : holds owner new)
    (rest : ∀ other realm, system.realms other = some realm → holds other realm) :
    ∀ other realm, (system.setRealm owner (some new)).realms other = some realm →
      holds other realm := by
  intro other realm here
  rcases setRealm_some here with ⟨rfl, same⟩ | ⟨_, here⟩
  · exact Option.some.inj same ▸ mine
  · exact rest other realm here

theorem setRealm_held {realm new page : Realm Wire} {entry : Nat × Text} {origin : Text}
    (alive : system.realms owner = some realm) (channels : new.channels = realm.channels)
    (filed : new.origin = realm.origin) (here : system.realms other = some page)
    (held : entry ∈ page.channels ∧ origin = page.origin) :
    ∃ after, (system.setRealm owner (some new)).realms other = some after ∧
      entry ∈ after.channels ∧ origin = after.origin := by
  by_cases same : other = owner
  · subst same
    obtain rfl := Option.some.inj (alive.symm.trans here)
    exact ⟨_, setRealm_same, channels ▸ held.1, filed ▸ held.2⟩
  · exact ⟨page, (setRealm_other same).trans here, held⟩

theorem Sound.opening (sound : system.Sound) : ∀ owner realm, system.realms owner = some realm →
    ∀ id name, (id, name) ∈ realm.channels →
      ∃ channel, system.channels id = some channel ∧ channel.owner = owner ∧ channel.name = name :=
  fun owner realm alive id name => sound.opens owner realm id name alive

theorem Sound.apart (sound : system.Sound) (alive : system.realms owner = some realm)
    (beyond : system.nextId ≤ id) : id ≠ owner :=
  Nat.ne_of_gt (Nat.lt_of_lt_of_le (sound.known_realm alive) beyond)

theorem Sound.install (sound : system.Sound) (url : Option UrlOrigin) :
    (system.install url).Sound := by
  have new := sound.fresh system.nextId (Nat.le_refl _)
  constructor
  · intro id beyond
    simp only [System.install] at beyond
    have old := sound.fresh id (by omega)
    exact ⟨old.1, (setRealm_other (by omega)).trans old.2.1, old.2.2⟩
  · intro id channel there
    obtain ⟨realm, alive, rest⟩ := sound.held id channel there
    exact ⟨realm, (setRealm_other (Nat.ne_of_lt (sound.known_realm alive))).trans alive, rest⟩
  · intro owner realm id name alive
    exact setRealm_each (fun _ _ open_ => nomatch open_) sound.opening owner realm alive id name
  · exact setRealm_each rfl sound.filed
  · exact setRealm_each (fun some => absurd rfl some) sound.timer
  · exact setRealm_each (fun _ member => nomatch member) fun owner realm alive delivery member =>
      Nat.lt_succ_of_lt (sound.known owner realm alive delivery member)
  · intro id channel realm there alive
    rcases setRealm_some alive with ⟨same, _⟩ | ⟨_, alive⟩
    · obtain ⟨realm, alive, _⟩ := sound.held id channel there
      rw [same, new.2.1] at alive
      cases alive
    · exact sound.flow id channel realm there alive
  · exact sound.ordered

/-- A channel's number is new, so nothing is owed to it, held for it or dispatched on it. -/
theorem Sound.create (sound : system.Sound) (alive : system.realms owner = some realm)
    (name : Text) : (system.create owner realm name).Sound := by
  have new := sound.fresh system.nextId (Nat.le_refl _)
  have old : ∀ {id : Nat} {channel : Channel Wire}, (system.create owner realm name).channels id =
      some channel → id = system.nextId ∧ channel = { owner, origin := realm.origin, name } ∨
        id ≠ system.nextId ∧ system.channels id = some channel := by
    intro id channel there
    by_cases same : id = system.nextId
    · exact .inl ⟨same, by simpa [System.create, setChannel, setRealm, same, eq_comm] using there⟩
    · exact .inr ⟨same, by simpa [System.create, setChannel, setRealm, same] using there⟩
  have kept : ∀ {id : Nat}, id ≠ system.nextId →
      (system.create owner realm name).channels id = system.channels id := by
    intro id apart
    simp [System.create, setChannel, setRealm, apart]
  constructor
  · intro id beyond
    simp only [System.create] at beyond
    have fresh := sound.fresh id (by omega)
    have apart := sound.apart alive (Nat.le_of_succ_le beyond)
    exact ⟨(kept (by omega)).trans fresh.1, (setRealm_other apart).trans fresh.2.1, fresh.2.2⟩
  · intro id channel there
    rcases old there with ⟨rfl, rfl⟩ | ⟨_, there⟩
    · exact ⟨_, setRealm_same, by simp, rfl⟩
    obtain ⟨page, here, open_, same⟩ := sound.held id channel there
    by_cases mine : channel.owner = owner
    · rw [mine, alive] at here
      cases here
      rw [mine]
      exact ⟨_, setRealm_same, mem_append_left _ open_, same⟩
    · exact ⟨page, (setRealm_other mine).trans here, open_, same⟩
  · intro other page id title here open_
    rcases setRealm_some here with ⟨rfl, same⟩ | ⟨_, here⟩
    · cases same
      rcases mem_append.mp open_ with open_ | last
      · obtain ⟨channel, there, rest⟩ := sound.opens other realm id title alive open_
        exact ⟨channel, (kept (Nat.ne_of_lt (sound.known_channel there))).trans there, rest⟩
      · cases mem_singleton.mp last
        exact ⟨_, if_pos rfl, rfl, rfl⟩
    · obtain ⟨channel, there, rest⟩ := sound.opens other page id title here open_
      exact ⟨channel, (kept (Nat.ne_of_lt (sound.known_channel there))).trans there, rest⟩
  · exact setRealm_each (sound.filed owner realm alive) sound.filed
  · exact setRealm_each (fun _ => rfl) sound.timer
  · have known := fun other page here delivery member =>
      Nat.lt_succ_of_lt (sound.known other page here delivery member)
    exact setRealm_each (known owner realm alive) known
  · intro id channel page there here
    rcases old there with ⟨rfl, rfl⟩ | ⟨_, there⟩
    · rcases setRealm_some here with ⟨_, same⟩ | ⟨apart, _⟩
      · cases same
        have none : realm.pending system.nextId = [] := by
          simp only [Realm.pending, map_eq_nil_iff, filter_eq_nil_iff]
          intro delivery member
          have := sound.known owner realm alive delivery member
          simp
          omega
        show system.owed system.nextId = system.dispatched system.nextId ++ realm.pending _ ++ []
        rw [new.2.2.1, new.2.2.2, none]
        rfl
      · exact absurd rfl apart
    · rcases setRealm_some here with ⟨mine, same⟩ | ⟨_, here⟩
      · cases same
        exact sound.flow id channel realm there (mine ▸ alive)
      · exact sound.flow id channel page there here
  · exact sound.ordered

theorem hears_iff {name : Text} :
    system.hears owner realm name id = true ↔ ∃ other page, other < system.nextId ∧
      system.realms other = some page ∧ sameOrigin owner other realm.url page.url = true ∧
      (id, name) ∈ page.channels := by
  rw [hears, List.any_eq_true]
  constructor
  · rintro ⟨other, inside, heard⟩
    cases there : system.realms other with
    | none => simp [there] at heard
    | some page =>
      simp only [there, Bool.and_eq_true, List.contains_iff_mem] at heard
      exact ⟨other, page, List.mem_range.mp inside, there, heard⟩
  · rintro ⟨other, page, inside, there, same, open_⟩
    exact ⟨other, List.mem_range.mpr inside, by simpa [there] using ⟨same, open_⟩⟩

section
variable (sound : system.Sound)
include sound

/-- The table files a channel as the pages know it: by origin and name. -/
theorem Sound.hears (alive : system.realms owner = some realm)
    (there : system.channels id = some channel) (name : Text) :
    system.hears owner realm name id = true ↔
      channel.origin = realm.origin ∧ channel.name = name := by
  obtain ⟨page, here, open_, origin⟩ := sound.held id channel there
  have filed : channel.origin = realm.origin ↔
      sameOrigin owner channel.owner realm.url page.url = true := by
    rw [origin, sound.filed _ page here, sound.filed owner realm alive, ← realmOrigin_eq_iff]
    exact eq_comm
  rw [hears_iff, filed]
  constructor
  · rintro ⟨other, found, _, standing, same, opened⟩
    obtain ⟨again, there', mine, named⟩ := sound.opens other found id name standing opened
    obtain rfl := Option.some.inj (there.symm.trans there')
    rw [mine] at here ⊢
    obtain rfl := Option.some.inj (here.symm.trans standing)
    exact ⟨same, named⟩
  · rintro ⟨same, rfl⟩
    exact ⟨channel.owner, page, sound.known_realm here, here, same, open_⟩

theorem Sound.deaf (gone : system.channels id = none) (name : Text) :
    system.hears owner realm name id = false := by
  by_contra heard
  obtain ⟨other, page, _, here, _, open_⟩ := hears_iff.mp (by simpa using heard)
  obtain ⟨channel, there, _⟩ := sound.opens other page id name here open_
  rw [gone] at there
  cases there

theorem Sound.route {name : Text} {other : Nat}
    (alive : system.realms owner = some realm) (open_ : (id, name) ∈ realm.channels) (wire : Wire)
    (there : system.channels other = some channel) :
    system.route owner realm id wire other = some { channel with
      incoming := channel.incoming ++
        if other ≠ id && system.hears owner realm name other then [wire] else [] } := by
  obtain ⟨sender, sends, mine, rfl⟩ := sound.opens owner realm id name alive open_
  have heard := sound.hears alive there sender.name
  rw [System.route, sends]
  simp only [mine, if_true, there, map_some]
  by_cases routed : other ≠ id ∧ channel.origin = realm.origin ∧ channel.name = sender.name
  · rw [if_pos routed, if_pos (by simpa using ⟨routed.1, heard.mpr routed.2⟩)]
  · rw [if_neg routed, if_neg, append_nil]
    intro holds
    simp only [and_eq_true, decide_eq_true_eq] at holds
    exact routed ⟨holds.1, heard.mp holds.2⟩

theorem Sound.post {name : Text} (alive : system.realms owner = some realm)
    (open_ : (id, name) ∈ realm.channels) (wire : Wire) :
    (system.post owner realm id name wire).Sound := by
  have some_ : ∀ {other : Nat} {channel : Channel Wire},
      (system.post owner realm id name wire).channels other = some channel →
      ∃ old, system.channels other = some old ∧ channel = { old with
        incoming := old.incoming ++
          if other ≠ id && system.hears owner realm name other then [wire] else [] } := by
    intro other channel there
    cases here : system.channels other with
    | none =>
      obtain ⟨sender, sends, mine, _⟩ := sound.opens owner realm id name alive open_
      simp [System.post, System.route, sends, mine, here] at there
    | some old =>
      have routed := sound.route alive open_ wire here
      exact ⟨old, rfl, Option.some.inj (there.symm.trans routed)⟩
  have owes : ∀ other, (system.post owner realm id name wire).owed other = system.owed other ++
      if other ≠ id && system.hears owner realm name other then [wire] else [] := by
    intro other
    simp only [System.post]
    split <;> simp
  constructor
  · intro other beyond
    have fresh := sound.fresh other beyond
    refine ⟨?_, fresh.2.1, ?_, fresh.2.2.2⟩
    · by_contra there
      obtain ⟨channel, there⟩ := ne_none_iff_exists'.mp there
      obtain ⟨old, here, _⟩ := some_ there
      rw [fresh.1] at here
      cases here
    · rw [owes, sound.deaf fresh.1, Bool.and_false, if_neg Bool.false_ne_true, fresh.2.2.1]
      rfl
  · intro other channel there
    obtain ⟨old, here, rfl⟩ := some_ there
    exact sound.held other old here
  · intro other page id' title here open_'
    obtain ⟨channel, there, rest⟩ := sound.opens other page id' title here open_'
    exact ⟨_, sound.route alive open_ wire there, rest⟩
  · exact sound.filed
  · exact sound.timer
  · exact sound.known
  · intro other channel page there here
    obtain ⟨old, kept, rfl⟩ := some_ there
    rw [owes, sound.flow other old page kept here, append_assoc]
    rfl
  · intro other
    rw [owes]
    exact (sound.ordered other).trans (prefix_append _ _)

theorem Sound.close (alive : system.realms owner = some realm)
    (open_ : ∃ name, (id, name) ∈ realm.channels) : (system.close owner realm id).Sound := by
  obtain ⟨name, open_⟩ := open_
  obtain ⟨closing, there, mine, _⟩ := sound.opens owner realm id name alive open_
  have released : system.release owner id = system.setChannel id none := by
    simp [System.release, there, mine]
  have old : ∀ {other : Nat} {channel : Channel Wire},
      (system.close owner realm id).channels other = some channel →
      other ≠ id ∧ system.channels other = some channel := by
    intro other channel stays
    by_cases same : other = id
    · simp [System.close, released, setRealm, setChannel, same] at stays
    · exact ⟨same, by simpa [System.close, released, setRealm, setChannel, same] using stays⟩
  have kept : ∀ {other : Nat}, other ≠ id →
      (system.close owner realm id).channels other = system.channels other := by
    intro other apart
    simp [System.close, released, setRealm, setChannel, apart]
  have next : (system.close owner realm id).nextId = system.nextId ∧
      (system.close owner realm id).owed = system.owed ∧
      (system.close owner realm id).dispatched = system.dispatched := by
    simp [System.close, released, setRealm, setChannel]
  have pages : (system.close owner realm id).realms =
      (system.setRealm owner (some { realm with
        channels := realm.channels.filter (·.1 ≠ id)
        timer := if realm.channels.filter (·.1 ≠ id) = [] then false else realm.timer })).realms := by
    simp [System.close, released, setRealm, setChannel]
  constructor
  · intro other beyond
    rw [next.1] at beyond
    have fresh := sound.fresh other beyond
    refine ⟨?_, ?_, by rw [next.2.1]; exact fresh.2.2.1, by rw [next.2.2]; exact fresh.2.2.2⟩
    · by_contra stays
      obtain ⟨channel, stays⟩ := ne_none_iff_exists'.mp stays
      rw [(old stays).2] at fresh
      cases fresh.1
    · rw [pages]
      exact (setRealm_other (sound.apart alive beyond)).trans fresh.2.1
  · intro other channel stays
    obtain ⟨apart, stays⟩ := old stays
    obtain ⟨holder, here, held, origin⟩ := sound.held other channel stays
    by_cases same : channel.owner = owner
    · rw [same, alive] at here
      cases here
      rw [same, pages]
      exact ⟨_, setRealm_same, mem_filter.mpr ⟨held, by simpa using apart⟩, origin⟩
    · rw [pages]
      exact ⟨holder, (setRealm_other same).trans here, held, origin⟩
  · intro other after id' title here held
    rw [pages] at here
    rcases setRealm_some here with ⟨rfl, same⟩ | ⟨apart, here⟩
    · cases same
      obtain ⟨held, apart⟩ := mem_filter.mp held
      obtain ⟨channel, there, rest⟩ := sound.opens other realm id' title alive held
      exact ⟨channel, (kept (by simpa using apart)).trans there, rest⟩
    · obtain ⟨channel, found, own, rest⟩ := sound.opens other after id' title here held
      refine ⟨channel, (kept ?_).trans found, own, rest⟩
      rintro rfl
      have same := Option.some.inj (there.symm.trans found)
      rw [← same, mine] at own
      exact apart own.symm
  · rw [pages]
    exact setRealm_each (sound.filed owner realm alive) sound.filed
  · rw [pages]
    refine setRealm_each (fun some => ?_) sound.timer
    rw [if_neg some]
    refine sound.timer owner realm alive fun none => some ?_
    rw [none]
    rfl
  · rw [pages, next.1]
    exact setRealm_each (sound.known owner realm alive) sound.known
  · intro other channel after stays here
    rw [next.2.1, next.2.2]
    rw [pages] at here
    obtain ⟨_, stays⟩ := old stays
    rcases setRealm_some here with ⟨mine, same⟩ | ⟨_, here⟩
    · cases same
      exact sound.flow other channel realm stays (mine ▸ alive)
    · exact sound.flow other channel after stays here
  · intro other
    rw [next.2.1, next.2.2]
    exact sound.ordered other

theorem Sound.drop (owner : Nat) : (system.drop owner).Sound := by
  have old : ∀ {id : Nat} {channel : Channel Wire}, (system.drop owner).channels id = some channel →
      channel.owner ≠ owner ∧ system.channels id = some channel := by
    intro id channel stays
    obtain ⟨there, apart⟩ := filter_eq_some_iff.mp stays
    exact ⟨by simpa using apart, there⟩
  have page : ∀ {other : Nat} {realm : Realm Wire},
      (system.drop owner).realms other = some realm →
      other ≠ owner ∧ system.realms other = some realm := by
    intro other realm here
    rcases setRealm_some here with ⟨_, here⟩ | here
    · cases here
    · exact here
  constructor
  · intro id beyond
    have fresh := sound.fresh id beyond
    refine ⟨?_, ?_, fresh.2.2⟩
    · show (system.channels id).filter _ = none
      rw [fresh.1]
      rfl
    · by_cases same : id = owner
      · exact if_pos same
      · exact (setRealm_other same).trans fresh.2.1
  · intro id channel stays
    obtain ⟨apart, stays⟩ := old stays
    obtain ⟨holder, here, rest⟩ := sound.held id channel stays
    exact ⟨holder, (setRealm_other apart).trans here, rest⟩
  · intro other realm id name here open_
    obtain ⟨apart, here⟩ := page here
    obtain ⟨channel, there, mine, rest⟩ := sound.opens other realm id name here open_
    refine ⟨channel, ?_, mine, rest⟩
    exact filter_eq_some_iff.mpr ⟨there, by simpa [mine] using apart⟩
  · exact fun other realm here => sound.filed other realm (page here).2
  · exact fun other realm here => sound.timer other realm (page here).2
  · exact fun other realm here => sound.known other realm (page here).2
  · exact fun id channel realm stays here =>
      sound.flow id channel realm (old stays).2 (page here).2
  · exact sound.ordered

theorem Sound.mem_owned : id ∈ system.owned owner ↔
    ∃ channel, system.channels id = some channel ∧ channel.owner = owner := by
  rw [owned, mem_filter, mem_range]
  cases there : system.channels id with
  | none => simp
  | some channel => simpa using fun _ => sound.known_channel there

end

theorem owned_nodup (system : System Wire) (owner : Nat) : (system.owned owner).Nodup :=
  nodup_range.filter _

theorem filter_gathered (taken : Nat → List Wire) (distinct : order.Nodup) :
    ((order.flatMap fun other => (taken other).map (other, ·)).filter (·.1 = id)).map (·.2) =
      if id ∈ order then taken id else [] := by
  induction order with
  | nil => rfl
  | cons first rest ih =>
    obtain ⟨fresh, distinct⟩ := nodup_cons.mp distinct
    rw [List.flatMap_cons, List.filter_append, List.map_append, ih distinct, List.filter_map,
      List.map_map]
    by_cases same : first = id
    · subst same
      have all : (taken first).filter ((fun delivery => decide (delivery.1 = first)) ∘
          (first, ·)) = taken first := filter_eq_self.mpr fun _ _ => decide_eq_true rfl
      rw [if_neg fresh, if_pos mem_cons_self, all, append_nil]
      exact map_id _
    · have none : (taken first).filter ((fun delivery => decide (delivery.1 = id)) ∘
          (first, ·)) = [] := filter_eq_nil_iff.mpr fun _ _ => by simpa using same
      have member : id ∈ first :: rest ↔ id ∈ rest := by simp [Ne.symm same]
      rw [none, map_nil, nil_append]
      simp only [member]

theorem filter_batch (distinct : order.Nodup) : ((system.batch order).filter (·.1 = id)).map (·.2) =
      if id ∈ order then (system.incoming id).take 64 else [] :=
  filter_gathered (fun id => (system.incoming id).take 64) distinct

theorem Sound.pending_read (sound : system.Sound) (chosen : order.Perm (system.owned owner))
    (there : system.channels id = some channel) (mine : channel.owner = owner)
    (deliveries : realm.deliveries = system.batch order) :
    realm.pending id = channel.incoming.take 64 := by
  have inside : id ∈ order := chosen.mem_iff.mpr (sound.mem_owned.mpr ⟨channel, there, mine⟩)
  have distinct : order.Nodup := chosen.nodup_iff.mpr (owned_nodup system owner)
  rw [Realm.pending, deliveries, filter_batch distinct, if_pos inside, incoming, there]

theorem Sound.read (sound : system.Sound) (alive : system.realms owner = some realm)
    (idle : realm.deliveries = []) (chosen : order.Perm (system.owned owner)) :
    (system.read owner realm order).Sound := by
  have old : ∀ {id : Nat} {channel : Channel Wire},
      (system.read owner realm order).channels id = some channel →
      ∃ before, system.channels id = some before ∧ channel = if before.owner = owner then
        { before with incoming := before.incoming.drop 64 } else before := by
    intro id channel there
    obtain ⟨before, there, same⟩ := map_eq_some_iff.mp there
    exact ⟨before, there, same.symm⟩
  have frame : ∀ before : Channel Wire, (if before.owner = owner then
      { before with incoming := before.incoming.drop 64 } else before).owner = before.owner ∧
      (if before.owner = owner then
        { before with incoming := before.incoming.drop 64 } else before).name = before.name ∧
      (if before.owner = owner then
        { before with incoming := before.incoming.drop 64 } else before).origin =
        before.origin := by
    intro before
    split <;> exact ⟨rfl, rfl, rfl⟩
  constructor
  · intro id beyond
    have fresh := sound.fresh id beyond
    refine ⟨?_, ?_, fresh.2.2⟩
    · show (system.channels id).map _ = none
      rw [fresh.1]
      rfl
    · exact (setRealm_other (sound.apart alive beyond)).trans fresh.2.1
  · intro id channel there
    obtain ⟨before, found, rfl⟩ := old there
    obtain ⟨_, here, held⟩ := sound.held id before found
    rw [(frame before).1, (frame before).2.1, (frame before).2.2]
    exact setRealm_held alive rfl rfl here held
  · intro other after id name here open_
    obtain ⟨channel, there, mine, named⟩ :=
      setRealm_each (sound.opening owner realm alive) sound.opening other after here id name open_
    refine ⟨_, congrArg (Option.map _) there, ?_, ?_⟩
    · rw [(frame channel).1, mine]
    · rw [(frame channel).2.1, named]
  · exact setRealm_each (sound.filed owner realm alive) sound.filed
  · exact setRealm_each (sound.timer owner realm alive) sound.timer
  · refine setRealm_each (fun delivery member => ?_) sound.known
    obtain ⟨id, inside, member⟩ := mem_flatMap.mp member
    obtain ⟨wire, _, rfl⟩ := mem_map.mp member
    obtain ⟨channel, there, _⟩ := sound.mem_owned.mp (chosen.mem_iff.mp inside)
    exact sound.known_channel there
  · intro id channel after there here
    obtain ⟨before, found, rfl⟩ := old there
    rw [(frame before).1] at here
    by_cases mine : before.owner = owner
    · rw [mine] at here
      obtain rfl := Option.some.inj (setRealm_same.symm.trans here)
      have flow := sound.flow id before realm found (mine ▸ alive)
      rw [if_pos mine, sound.pending_read chosen found mine rfl]
      rw [Realm.pending, idle] at flow
      show system.owed id = system.dispatched id ++ before.incoming.take 64 ++
        before.incoming.drop 64
      rw [flow, append_assoc (system.dispatched id) (before.incoming.take 64),
        take_append_drop]
      exact congrArg (· ++ _) (append_nil _)
    · rw [if_neg mine]
      exact sound.flow id before after found ((setRealm_other mine).symm.trans here)
  · exact sound.ordered

theorem Sound.dispatch (sound : system.Sound) (alive : system.realms owner = some realm) :
    (system.dispatch owner realm).Sound := by
  rw [System.dispatch]
  split
  · exact sound
  rename_i first wire deliveries next
  have opened : realm.channels.any (·.1 = first) = true →
      ∃ channel, system.channels first = some channel ∧ channel.owner = owner := by
    intro open_
    obtain ⟨⟨id, name⟩, member, same⟩ := any_eq_true.mp open_
    obtain rfl : id = first := by simpa using same
    obtain ⟨channel, there, mine, _⟩ := sound.opens owner realm id name alive member
    exact ⟨channel, there, mine⟩
  have flow : ∀ id channel page, system.channels id = some channel →
      (system.setRealm owner (some { realm with deliveries })).realms channel.owner = some page →
      system.owed id = (if id = first && realm.channels.any (·.1 = first) then
        system.dispatched id ++ [wire] else system.dispatched id) ++ page.pending id ++
        channel.incoming := by
    intro id channel page there here
    rcases setRealm_some here with ⟨mine, same⟩ | ⟨_, here⟩
    · cases same
      have flow := sound.flow id channel realm there (mine ▸ alive)
      obtain ⟨holder, held, open_, _⟩ := sound.held id channel there
      obtain rfl := Option.some.inj (held.symm.trans (mine ▸ alive))
      by_cases here : id = first
      · subst here
        have any : holder.channels.any (·.1 = id) = true :=
          any_eq_true.mpr ⟨_, open_, decide_eq_true rfl⟩
        have pending : holder.pending id = wire :: Realm.pending { holder with deliveries } id := by
          simp [Realm.pending, next]
        rw [any, flow, pending]
        simp
      · have pending : holder.pending id = Realm.pending { holder with deliveries } id := by
          simp [Realm.pending, next, Ne.symm here]
        rw [flow, pending]
        simp [here]
    · rw [sound.flow id channel page there here]
      split
      · rename_i mine
        simp only [and_eq_true, decide_eq_true_eq] at mine
        obtain ⟨again, there', same⟩ := opened mine.2
        rw [mine.1] at there
        obtain rfl := Option.some.inj (there.symm.trans there')
        exact absurd same ‹_›
      · rfl
  constructor
  · intro id beyond
    have fresh := sound.fresh id beyond
    refine ⟨fresh.1, ?_, fresh.2.2.1, ?_⟩
    · exact (setRealm_other (sound.apart alive beyond)).trans fresh.2.1
    · dsimp only
      rw [if_neg, fresh.2.2.2]
      intro mine
      simp only [and_eq_true, decide_eq_true_eq] at mine
      obtain ⟨channel, there, _⟩ := opened mine.2
      rw [mine.1, there] at fresh
      cases fresh.1
  · intro id channel there
    obtain ⟨_, here, held⟩ := sound.held id channel there
    exact setRealm_held alive rfl rfl here held
  · intro other page id name here
    exact setRealm_each (sound.opening owner realm alive) sound.opening other page here id name
  · exact setRealm_each (sound.filed owner realm alive) sound.filed
  · exact setRealm_each (sound.timer owner realm alive) sound.timer
  · exact setRealm_each (fun delivery member =>
      sound.known owner realm alive delivery (next ▸ mem_cons_of_mem _ member)) sound.known
  · exact flow
  · intro id
    dsimp only
    split
    · rename_i mine
      simp only [and_eq_true, decide_eq_true_eq] at mine
      obtain ⟨channel, there, owns⟩ := opened mine.2
      have whole := flow id channel _ (mine.1 ▸ there) (by rw [owns]; exact setRealm_same)
      rw [if_pos (by simpa using mine)] at whole
      refine ⟨Realm.pending { realm with deliveries } id ++ channel.incoming, ?_⟩
      rw [← append_assoc]
      exact whole.symm
    · exact sound.ordered id

theorem Sound.perform (sound : system.Sound) (step : Step Wire) : (system.perform step).Sound := by
  cases step with
  | install url => exact sound.install url
  | create owner name =>
    rw [System.perform]
    split
    next => exact sound
    next alive => exact sound.create alive name
  | post owner id wire =>
    rw [System.perform]
    split
    next => exact sound
    next realm alive =>
      split
      next => exact sound
      next channel found =>
        have same : channel.1 = id := by simpa using find?_some found
        exact same ▸ sound.post alive (mem_of_find?_eq_some found) wire
  | close owner id =>
    rw [System.perform]
    split
    next => exact sound
    next realm alive =>
      split
      next open_ =>
        obtain ⟨⟨other, name⟩, member, same⟩ := any_eq_true.mp open_
        obtain rfl : other = id := by simpa using same
        exact sound.close alive ⟨name, member⟩
      next => exact sound
  | read owner order =>
    rw [System.perform]
    split
    next => exact sound
    next realm alive =>
      split
      next ready => exact sound.read alive (isEmpty_iff.mp ready.2.1) ready.2.2
      next => exact sound
  | dispatch owner =>
    rw [System.perform]
    split
    next => exact sound
    next alive => exact sound.dispatch alive
  | drop owner => exact sound.drop owner

theorem reached_sound (reached : system.Reached) : system.Sound := by
  apply Reachable.invariant _ _ reached
  · rintro _ rfl
    exact ⟨fun _ _ => ⟨rfl, rfl, rfl, rfl⟩, by simp, by simp, by simp, by simp, by simp, by simp,
      fun _ => prefix_rfl⟩
  · rintro before step _ _ sound rfl
    exact sound.perform step

end System
end Chuzz.Broadcast
