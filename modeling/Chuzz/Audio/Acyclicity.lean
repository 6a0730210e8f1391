import Chuzz.Audio.Graph
import Chuzz.Library.Transition

/-! The graph of a context feeds no node back into itself, whatever the page calls
and however the context renders in between. Tracks reach `create` from outside
the graph: a track that this context produces is one that it put out before. -/
namespace Chuzz.Audio
open Std Relation Library.GraphSearch Library.Transition List ExtTreeMap
variable {Pcm Voice : Type}

namespace Graph

def Feeds (g : Graph Voice) (a b : Nat) : Prop :=
  (∃ edge ∈ g.edges, edge.origin = a ∧ edge.target = b) ∨
    ∃ track, g.kindAt b = some (.source track) ∧ track.producer = some (g.id, a)

variable {g : Graph Voice} {id : Nat}

theorem kindAt_some {kind : Kind} :
    g.kindAt id = some kind ↔ ∃ node, g.nodes[id]? = some node ∧ node.kind = kind := by
  simp [kindAt]

theorem mem_nodes : id ∈ g.nodes ↔ (g.kindAt id).isSome := by
  rw [mem_iff_isSome_getElem?, kindAt, Option.isSome_map]

theorem mem_of_kindAt {kind : Kind} (found : g.kindAt id = some kind) :
    id ∈ g.nodes := mem_nodes.mpr (found ▸ rfl)

theorem reads_iff {producer id : Nat} : g.reads producer id = true ↔
    ∃ track, g.kindAt id = some (.source track) ∧ track.producer = some (g.id, producer) := by
  unfold reads
  cases g.kindAt id with
  | none => simp
  | some kind => cases kind <;> simp

theorem mem_feeds {a b : Nat} : b ∈ g.feeds a ↔ g.Feeds a b := by
  simp only [feeds, Feeds, mem_append, mem_map, mem_filter, decide_eq_true_eq,
    and_assoc, reads_iff, ExtTreeMap.mem_keys]
  constructor
  · rintro (edge | ⟨_, reader⟩)
    · exact .inl edge
    · exact .inr reader
  · rintro (edge | ⟨track, found, reader⟩)
    · exact .inl edge
    · exact .inr ⟨mem_of_kindAt found, track, found, reader⟩

variable {g after : Graph Voice}

theorem reads_frame (same : after.id = g.id)
    (kinds : ∀ id, after.kindAt id = g.kindAt id) {a b : Nat}
    (edges : ∀ edge ∈ after.edges, edge ∈ g.edges) (feeds : after.Feeds a b) : g.Feeds a b := by
  rcases feeds with ⟨edge, member, ends⟩ | ⟨track, found, reader⟩
  · exact .inl ⟨edge, edges edge member, ends⟩
  · exact .inr ⟨track, (kinds b).symm.trans found, same ▸ reader⟩

/-- The nodes keep their kinds, and no edge is new. -/
structure Narrows (g after : Graph Voice) : Prop where
  id : after.id = g.id
  kinds : ∀ id, after.kindAt id = g.kindAt id
  edges : ∀ edge ∈ after.edges, edge ∈ g.edges
  next : after.nextNode = g.nextNode
  closed : after.closed = g.closed

theorem Narrows.refl (g : Graph Voice) : g.Narrows g where
  id := rfl
  kinds _ := rfl
  edges _ member := member
  next := rfl
  closed := rfl

theorem kindAt_insert (g : Graph Voice) (id : Nat) (node : Node Voice) (other : Nat) :
    kindAt { g with nodes := g.nodes.insert id node } other =
      if id = other then some node.kind else g.kindAt other := by
  simp only [kindAt, ExtTreeMap.getElem?_insert, Std.compare_eq_iff_eq]
  split <;> rfl

theorem narrows_insert {node replaced : Node Voice} (found : g.nodes[id]? = some replaced)
    (same : node.kind = replaced.kind) : g.Narrows { g with nodes := g.nodes.insert id node } := by
  refine ⟨rfl, fun other => ?_, fun _ member => member, rfl, rfl⟩
  rw [kindAt_insert]
  split
  · rename_i here
    subst here
    rw [same]
    exact (kindAt_some.mpr ⟨replaced, found, rfl⟩).symm
  · rfl

theorem narrows_modify (g : Graph Voice) (id : Nat) {change : Node Voice → Node Voice}
    (same : ∀ node, (change node).kind = node.kind) : g.Narrows (g.modify id change) := by
  unfold modify
  split
  · exact .refl g
  · rename_i node found
    exact narrows_insert found (same node)

theorem create_ok {synthesis : Synthesis Pcm Voice} {name : String}
    {track : Option Track} {label id : Nat} {output : Option Track}
    (done : g.create synthesis name track label = .ok (after, id, output)) :
    g.closed = false ∧ ∃ kind,
      after = { g with
        nextNode := g.nextNode + 1
        nodes := g.nodes.insert g.nextNode { kind, voice := synthesis.voice kind } } ∧
      (∀ source, kind = .source source → track = some source) ∧
      ∀ made ∈ output, kind = .streamDestination ∧ made.producer = some (g.id, g.nextNode) := by
  have plain : ∀ (kind : Kind) (output : Option Track), (∀ source, kind ≠ .source source) →
      (∀ source, kind = .source source → track = some source) := by
    intro kind _ other source same
    exact absurd same (other source)
  simp only [create] at done
  split at done
  · contradiction
  rename_i opened
  refine ⟨Bool.eq_false_iff.mpr opened, ?_⟩
  split at done
  · contradiction
  split at done
  · cases done
    exact ⟨.oscillator, rfl, plain _ none (by simp), by simp⟩
  split at done
  · cases done
    exact ⟨.gain, rfl, plain _ none (by simp), by simp⟩
  split at done
  · cases done
    exact ⟨.analyser, rfl, plain _ none (by simp), by simp⟩
  split at done
  · cases track with
    | none => contradiction
    | some track =>
      cases done
      refine ⟨.source track, rfl, ?_, by simp⟩
      rintro source ⟨⟩
      rfl
  split at done
  · cases done
    exact ⟨.streamDestination, rfl, plain _ none (by simp), by simp⟩
  · contradiction

theorem connect_ok {origin target : Nat} {param : Option String}
    (done : g.connect origin target param = .ok after) :
    after = g ∨ origin ∈ g.nodes ∧ target ∈ g.nodes ∧ g.reaches target origin = false ∧
      after = { g with edges := insertEdge { origin, target, param } g.edges } := by
  simp only [connect] at done
  split at done
  · contradiction
  split at done
  · contradiction
  rename_i source first
  split at done
  · contradiction
  rename_i destination second
  split at done
  · contradiction
  split at done
  · contradiction
  split at done
  · contradiction
  split at done
  · exact .inl (Except.ok.inj done).symm
  split at done
  · contradiction
  rename_i apart
  refine .inr ⟨?_, ?_, Bool.eq_false_iff.mpr apart, (Except.ok.inj done).symm⟩
  · exact mem_of_kindAt (kindAt_some.mpr ⟨source, first, rfl⟩)
  · exact mem_of_kindAt (kindAt_some.mpr ⟨destination, second, rfl⟩)

theorem narrows_disconnect (g : Graph Voice) (origin : Nat) (target : Option Nat)
    (param : Option String) : g.Narrows (g.disconnect origin target param).1 := by
  unfold disconnect
  split
  · exact .refl g
  · exact ⟨rfl, fun _ => rfl, fun _ member => (mem_filter.mp member).1, rfl, rfl⟩

theorem narrows_schedule {start : Bool} {time : Float}
    (done : g.schedule id start time = .ok after) : g.Narrows after := by
  simp only [schedule] at done
  split at done
  · contradiction
  split at done
  · contradiction
  split at done
  · contradiction
  split at done
  · contradiction
  split at done
  · split at done
    · contradiction
    · exact Except.ok.inj done ▸ narrows_modify g id fun _ => rfl
  · split at done
    · contradiction
    split at done
    · exact Except.ok.inj done ▸ .refl g
    · exact Except.ok.inj done ▸ narrows_modify g id fun _ => rfl

theorem narrows_adjust {change : Voice → Voice}
    (done : g.adjust id change = .ok after) : g.Narrows after := by
  simp only [adjust] at done
  split at done
  · contradiction
  · exact Except.ok.inj done ▸ narrows_modify g id fun _ => rfl

end Graph

/-- What every call keeps. The last three fields are what `create` rests on: a new
node has a new name, and the tracks that can reach it have their producers. -/
structure Context.Sound (context : Context Voice) : Prop where
  acyclic : Acyclic context.graph.Feeds
  origins : ∀ edge ∈ context.graph.edges, edge.origin ∈ context.graph.nodes
  targets : ∀ edge ∈ context.graph.edges, edge.target ∈ context.graph.nodes
  producers : ∀ {id track producer}, context.graph.kindAt id = some (.source track) →
    track.producer = some (context.graph.id, producer) →
    context.graph.kindAt producer = some .streamDestination
  outputs : context.graph.closed = false → ∀ track ∈ context.outputs, ∀ producer,
    track.producer = some (context.graph.id, producer) →
    context.graph.kindAt producer = some .streamDestination
  fresh : ∀ id ∈ context.graph.nodes, id < context.graph.nextNode
  destination : context.graph.closed = false → 1 ∈ context.graph.nodes

namespace Context
open Graph
variable {context : Context Voice}

theorem Sound.feeder (sound : context.Sound) {a b : Nat} (feeds : context.graph.Feeds a b) :
    a ∈ context.graph.nodes := by
  rcases feeds with ⟨edge, member, rfl, _⟩ | ⟨track, found, reader⟩
  · exact sound.origins edge member
  · exact mem_of_kindAt (sound.producers found reader)

theorem sound_new (synthesis : Synthesis Pcm Voice) (id sampleRate : Nat) :
    Sound { graph := Graph.new synthesis id sampleRate } := by
  have kind : ∀ {node kind}, (Graph.new synthesis id sampleRate).kindAt node = some kind →
      node = 1 ∧ kind = .destination := by
    intro node kind found
    simp only [Graph.new, kindAt, ExtTreeMap.getElem?_insert, Std.compare_eq_iff_eq] at found
    split at found
    · exact ⟨Eq.symm ‹_›, (Option.some.inj found).symm⟩
    · simp at found
  have quiet : ∀ a b, ¬ (Graph.new synthesis id sampleRate).Feeds a b := by
    rintro a b (⟨edge, member, _⟩ | ⟨track, found, _⟩)
    · exact List.not_mem_nil member
    · exact Kind.noConfusion (kind found).2
  constructor
  · intro x loop
    obtain ⟨y, feeds, _⟩ := TransGen.head'_iff.mp loop
    exact quiet x y feeds
  · exact fun _ member => absurd member List.not_mem_nil
  · exact fun _ member => absurd member List.not_mem_nil
  · exact fun found _ => Kind.noConfusion (kind found).2
  · exact fun _ _ member => absurd member List.not_mem_nil
  · intro node member
    obtain ⟨found, same⟩ := Option.isSome_iff_exists.mp (mem_nodes.mp member)
    rw [(kind same).1]
    exact Nat.lt_succ_self 1
  · exact fun _ => ExtTreeMap.mem_insert_self

section
variable (sound : context.Sound)
include sound

theorem Sound.narrow {graph : Graph Voice}
    (narrows : context.graph.Narrows graph) : Sound { context with graph } := by
  obtain ⟨same, kinds, edges, next, closed⟩ := narrows
  have nodes : ∀ id, id ∈ graph.nodes ↔ id ∈ context.graph.nodes := by
    intro id
    rw [mem_nodes, mem_nodes, kinds]
  constructor
  · exact sound.acyclic.mono fun _ _ => reads_frame same kinds edges
  · exact fun edge member => (nodes _).mpr (sound.origins edge (edges edge member))
  · exact fun edge member => (nodes _).mpr (sound.targets edge (edges edge member))
  · intro id track producer found reader
    rw [kinds] at found ⊢
    exact sound.producers found (same ▸ reader)
  · intro opened track member producer reader
    rw [kinds]
    exact sound.outputs (closed ▸ opened) track member producer (same ▸ reader)
  · intro id member
    exact next ▸ sound.fresh id ((nodes id).mp member)
  · exact fun opened => (nodes 1).mpr (sound.destination (closed ▸ opened))

theorem sound_close : Sound { context with graph := context.graph.close } := by
  have absent : ∀ {id kind}, context.graph.close.kindAt id ≠ some kind := by
    simp [kindAt, close]
  constructor
  · refine sound.acyclic.mono ?_
    rintro a b (⟨edge, member, _⟩ | ⟨track, found, _⟩)
    · exact absurd member not_mem_nil
    · exact absurd found absent
  · exact fun _ member => absurd member not_mem_nil
  · exact fun _ member => absurd member not_mem_nil
  · exact fun found _ => absurd found absent
  · exact fun opened => Bool.noConfusion opened
  · exact fun id member => absurd member not_mem_empty
  · exact fun opened => Bool.noConfusion opened

/-- The search of `connect` looks at everything it has to. -/
theorem Sound.apart {start target : Nat} (missed : context.graph.reaches start target = false) :
    ¬ ReflTransGen context.graph.Feeds start target := by
  have known : ∀ v ∉ context.graph.nodes.keys, context.graph.feeds v = [] := by
    intro v absent
    refine eq_nil_iff_forall_not_mem.mpr fun w member => absent ?_
    exact mem_keys.mpr (sound.feeder (mem_feeds.mp member))
  have answers : ∃ answer,
      search context.graph.feeds target context.graph.searchFuel [start] [] = some answer :=
    search_answers nodup_keys known (by simp [unseen, searchFuel])
  obtain ⟨answer, answered⟩ := answers
  have rejects : answer = false := by
    cases answer with
    | false => rfl
    | true => simp [reaches, answered] at missed
  intro path
  refine search_missed (rejects ▸ answered) (fun _ member => absurd member not_mem_nil)
    start (.inr mem_cons_self) ?_
  simpa only [mem_feeds] using path

theorem Sound.connected {origin target : Nat} {param : Option String}
    (placed : origin ∈ context.graph.nodes) (placed' : target ∈ context.graph.nodes)
    (missed : context.graph.reaches target origin = false) :
    Sound { context with graph :=
      { context.graph with edges := insertEdge { origin, target, param } context.graph.edges } } := by
  constructor
  · refine (sound.acyclic.insert (sound.apart missed)).mono ?_
    rintro a b (⟨edge, member, rfl, rfl⟩ | reader)
    · rcases mem_insertEdge.mp member with rfl | member
      · exact .inr ⟨rfl, rfl⟩
      · exact .inl (.inl ⟨edge, member, rfl, rfl⟩)
    · exact .inl (.inr reader)
  · intro edge member
    rcases mem_insertEdge.mp member with rfl | member
    · exact placed
    · exact sound.origins edge member
  · intro edge member
    rcases mem_insertEdge.mp member with rfl | member
    · exact placed'
    · exact sound.targets edge member
  · exact sound.producers
  · exact sound.outputs
  · exact sound.fresh
  · exact sound.destination

/-- A new node feeds nothing yet: no edge leaves it, and no track names it. What
feeds it is there already. -/
theorem Sound.created {kind : Kind} {output : Option Track}
    {voice : Voice} (opened : context.graph.closed = false)
    (known : ∀ track, kind = .source track → track ∈ context.outputs ∨
      ∀ producer, track.producer ≠ some (context.graph.id, producer))
    (made : ∀ track ∈ output, kind = .streamDestination ∧
      track.producer = some (context.graph.id, context.graph.nextNode)) :
    Sound {
      graph := { context.graph with
        nextNode := context.graph.nextNode + 1
        nodes := context.graph.nodes.insert context.graph.nextNode { kind, voice } }
      outputs := context.outputs ++ output.toList } := by
  obtain ⟨g, outputs⟩ := context
  have absent : g.nextNode ∉ g.nodes := fun member => Nat.lt_irrefl _ (sound.fresh _ member)
  have kinds := kindAt_insert g g.nextNode { kind, voice }
  have kept : ∀ {id found}, g.kindAt id = some found → kindAt { g with
      nodes := g.nodes.insert g.nextNode { kind, voice } } id = some found := by
    intro id found there
    have other : g.nextNode ≠ id := fun same => absent (same ▸ mem_of_kindAt there)
    rw [kinds, if_neg other, there]
  have member_iff : ∀ id, id ∈ g.nodes.insert g.nextNode { kind, voice : Node Voice } ↔
      g.nextNode = id ∨ id ∈ g.nodes := by
    intro id
    rw [mem_insert, Std.compare_eq_iff_eq]
  have producers : ∀ {id track producer}, kindAt { g with
      nodes := g.nodes.insert g.nextNode { kind, voice } } id = some (.source track) →
      track.producer = some (g.id, producer) →
      g.kindAt producer = some .streamDestination := by
    intro id track producer found reader
    rw [kinds] at found
    split at found
    · rcases known track (Option.some.inj found) with member | foreign
      · exact sound.outputs opened track member producer reader
      · exact absurd reader (foreign producer)
    · exact sound.producers found reader
  have feeds : ∀ {a b}, Graph.Feeds { g with
      nextNode := g.nextNode + 1
      nodes := g.nodes.insert g.nextNode { kind, voice } } a b →
      a ∈ g.nodes ∧ (g.Feeds a b ∨ b = g.nextNode) := by
    rintro a b (⟨edge, member, rfl, rfl⟩ | ⟨track, found, reader⟩)
    · exact ⟨sound.origins edge member, .inl (.inl ⟨edge, member, rfl, rfl⟩)⟩
    · refine ⟨mem_of_kindAt (producers found reader), ?_⟩
      have found' := (kinds b).symm.trans found
      split at found'
      · exact .inr (Eq.symm ‹_›)
      · exact .inl (.inr ⟨track, found', reader⟩)
  constructor
  · have stays : ∀ {a b}, TransGen (Graph.Feeds { g with
        nextNode := g.nextNode + 1
        nodes := g.nodes.insert g.nextNode { kind, voice } }) a b →
        b ∈ g.nodes → TransGen g.Feeds a b := by
      intro a b path there
      induction path with
      | single step =>
        rcases (feeds step).2 with old | rfl
        · exact .single old
        · exact absurd there absent
      | tail _ step ih =>
        rcases (feeds step).2 with old | rfl
        · exact (ih (feeds step).1).tail old
        · exact absurd there absent
    intro x loop
    obtain ⟨y, first, _⟩ := TransGen.head'_iff.mp loop
    exact sound.acyclic x (stays loop (feeds first).1)
  · exact fun edge member => (member_iff _).mpr (.inr (sound.origins edge member))
  · exact fun edge member => (member_iff _).mpr (.inr (sound.targets edge member))
  · exact fun found reader => kept (producers found reader)
  · intro _ track member producer reader
    rcases mem_append.mp member with member | member
    · exact kept (sound.outputs opened track member producer reader)
    · obtain ⟨stream, names⟩ := made track (Option.mem_toList.mp member)
      obtain ⟨-, rfl⟩ := Prod.mk.inj (Option.some.inj (names.symm.trans reader))
      rw [← stream]
      exact (kinds _).trans (if_pos rfl)
  · intro id member
    rcases (member_iff id).mp member with rfl | member
    · exact Nat.lt_succ_self _
    · exact Nat.lt_succ_of_lt (sound.fresh id member)
  · exact fun _ => (member_iff 1).mpr (.inr (sound.destination opened))

end

end Context
end Chuzz.Audio
