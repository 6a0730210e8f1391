import Chuzz.Audio.Acyclicity

/-! Rendering one quantum. The callers of `render` form a chain of the feeding
relation, so in a sound context it is no longer than there are nodes; and what a
node's inputs render never includes the node itself, so every node is rendered
once. -/
namespace Chuzz.Audio
open Std Relation Library.GraphSearch Library.Transition List ExtTreeMap
variable {Pcm Voice : Type}

namespace Graph
variable {g : Graph Voice}

theorem Narrows.trans {middle after : Graph Voice} (first : g.Narrows middle)
    (second : middle.Narrows after) : g.Narrows after where
  id := second.id.trans first.id
  kinds id := (second.kinds id).trans (first.kinds id)
  edges edge member := first.edges edge (second.edges edge member)
  next := second.next.trans first.next
  closed := second.closed.trans first.closed

theorem Narrows.nodes {after : Graph Voice} (narrows : g.Narrows after) {id : Nat}
    (member : id ∈ g.nodes) : ∃ node, after.nodes[id]? = some node := by
  apply Option.isSome_iff_exists.mp
  rw [← mem_iff_isSome_getElem?, mem_nodes, narrows.kinds]
  exact mem_nodes.mp member

end Graph

namespace Frame
variable {g : Graph Voice} {frame before after : Frame Pcm Voice} {reached : Nat → Prop}

/-- A frame on the way: of the same graph but for voices, with one block for each
node visited. -/
structure Progress (g : Graph Voice) (frame : Frame Pcm Voice) : Prop where
  graph : g.Narrows frame.graph
  once : frame.visits.Nodup
  done : ∀ id, id ∈ frame.visits ↔ (frame.rendered[id]?).isSome
  placed : ∀ id ∈ frame.visits, id ∈ g.nodes

/-- What a part of the rendering adds was reached by it. -/
structure Grows (g : Graph Voice) (reached : Nat → Prop) (before after : Frame Pcm Voice) :
    Prop where
  progress : Progress g after
  kept : ∀ id ∈ before.visits, id ∈ after.visits
  fresh : ∀ id ∈ after.visits, id ∈ before.visits ∨ reached id

theorem Grows.refl (progress : Progress g frame) : Grows g reached frame frame where
  progress := progress
  kept _ member := member
  fresh _ member := .inl member

theorem Grows.trans {middle : Frame Pcm Voice} (first : Grows g reached before middle)
    (second : Grows g reached middle after) : Grows g reached before after where
  progress := second.progress
  kept id member := second.kept id (first.kept id member)
  fresh id member := (second.fresh id member).elim (first.fresh id) .inr

theorem Grows.mono {wider : Nat → Prop} (grows : Grows g reached before after)
    (within : ∀ id, reached id → wider id) : Grows g wider before after where
  progress := grows.progress
  kept := grows.kept
  fresh id member := (grows.fresh id member).imp_right (within id)

theorem progress_insert (progress : Progress g frame) {id : Nat} (member : id ∈ g.nodes)
    (unvisited : id ∉ frame.visits) (pcm : Pcm) : Progress g (frame.insert id pcm) := by
  constructor
  · exact progress.graph
  · exact List.nodup_cons.mpr ⟨unvisited, progress.once⟩
  · intro other
    simp only [insert, List.mem_cons, ExtTreeMap.getElem?_insert, Std.compare_eq_iff_eq]
    by_cases same : id = other
    · simp [same]
    · rw [if_neg same, ← progress.done other]
      exact or_iff_right (Ne.symm same)
  · intro other visited
    rcases List.mem_cons.mp visited with rfl | visited
    · exact member
    · exact progress.placed other visited

theorem compute_ok (synthesis : Synthesis Pcm Voice) (progress : Progress g frame) {id : Nat}
    (member : id ∈ g.nodes) (unvisited : id ∉ frame.visits)
    (inputs : List (Option String × Pcm)) :
    ∃ after pcm, frame.compute synthesis id inputs = .ok (after, pcm) ∧ Progress g after ∧
      after.visits = id :: frame.visits := by
  obtain ⟨node, found⟩ := progress.graph.nodes member
  simp only [compute, found]
  refine ⟨_, _, rfl, ?_, rfl⟩
  refine progress_insert ?_ member ?_ _
  · constructor
    · exact progress.graph.trans (Graph.narrows_insert found rfl)
    · exact progress.once
    · exact progress.done
    · exact progress.placed
  · exact unvisited

theorem renderInputs_ok
    (render : Nat → Frame Pcm Voice → Except RenderFault (Frame Pcm Voice × Pcm))
    (edges : List Edge)
    (each : ∀ edge ∈ edges, ∀ frame, Progress g frame →
      ∃ after pcm, render edge.origin frame = .ok (after, pcm) ∧ Grows g reached frame after)
    (progress : Progress g frame) :
    ∃ after inputs, renderInputs render edges frame = .ok (after, inputs) ∧
      Grows g reached frame after := by
  induction edges generalizing frame with
  | nil => exact ⟨frame, [], rfl, .refl progress⟩
  | cons edge rest ih =>
    obtain ⟨middle, pcm, rendered, grows⟩ := each edge mem_cons_self frame progress
    obtain ⟨after, inputs, rest, grows'⟩ :=
      ih (fun edge member => each edge (mem_cons_of_mem _ member)) grows.progress
    refine ⟨after, (edge.param, pcm) :: inputs, ?_, grows.trans grows'⟩
    simp only [renderInputs, rendered, rest, bind, Except.bind, pure, Except.pure]

/-- The callers of a call, from the node rendered outwards, are distinct nodes. -/
theorem depth_bound (acyclic : Acyclic g.Feeds) {id : Nat} {path : List Nat}
    (chain : (id :: path).IsChain g.Feeds) (placed : ∀ v ∈ id :: path, v ∈ g.nodes) :
    path.length < g.nodes.size := by
  have distinct := acyclic.chain_nodup chain
  have within : id :: path ⊆ g.nodes.keys := fun v member => mem_keys.mpr (placed v member)
  have bound := (subperm_of_subset distinct within).length_le
  rwa [length_keys] at bound

section
variable (synthesis : Synthesis Pcm Voice) (acyclic : Acyclic g.Feeds)
  (feeder : ∀ {a b}, g.Feeds a b → a ∈ g.nodes)
include synthesis acyclic feeder

theorem render_ok (fuel id : Nat) (path : List Nat)
    (progress : Progress g frame) (chain : (id :: path).IsChain g.Feeds)
    (placed : ∀ v ∈ id :: path, v ∈ g.nodes) (enough : g.nodes.size ≤ fuel + path.length) :
    ∃ after pcm, render synthesis fuel id frame = .ok (after, pcm) ∧
      Grows g (fun v => ReflTransGen g.Feeds v id) frame after ∧ id ∈ after.visits := by
  induction fuel generalizing id path frame with
  | zero =>
    have bound := depth_bound acyclic chain placed
    omega
  | succ fuel ih =>
    have member : id ∈ g.nodes := placed id mem_cons_self
    unfold render
    cases ready : frame.rendered[id]? with
    | some pcm =>
      exact ⟨frame, pcm, rfl, .refl progress, (progress.done id).mpr (ready ▸ rfl)⟩
    | none =>
      have unvisited : id ∉ frame.visits := by
        rw [progress.done, ready]
        exact Bool.false_ne_true
      obtain ⟨node, found⟩ := progress.graph.nodes member
      have kind : g.kindAt id = some node.kind := by
        rw [← progress.graph.kinds]
        exact Graph.kindAt_some.mpr ⟨node, found, rfl⟩
      -- a call for a node that feeds this one
      have deeper : ∀ {a frame}, g.Feeds a id → Progress g frame →
          ∃ after pcm, render synthesis fuel a frame = .ok (after, pcm) ∧
            Grows g (fun v => TransGen g.Feeds v id) frame after := by
        intro a frame feeds progress
        obtain ⟨after, pcm, rendered, grows, _⟩ := ih a (id :: path) progress
          (isChain_cons_cons.mpr ⟨feeds, chain⟩)
          (fun v there => (mem_cons.mp there).elim (fun same => same ▸ feeder feeds) (placed v))
          (by simpa only [length_cons, Nat.add_assoc, Nat.add_comm 1] using enough)
        exact ⟨after, pcm, rendered, grows.mono fun v path => .tail' path feeds⟩
      -- the node itself, after them
      have finish : ∀ {middle after : Frame Pcm Voice},
          Grows g (fun v => TransGen g.Feeds v id) frame middle → Progress g after →
          after.visits = id :: middle.visits →
          Grows g (fun v => ReflTransGen g.Feeds v id) frame after ∧ id ∈ after.visits := by
        intro middle after grows progress visits
        refine ⟨⟨progress, fun v old => ?_, fun v there => ?_⟩, visits ▸ mem_cons_self⟩
        · exact visits ▸ mem_cons_of_mem id (grows.kept v old)
        · rw [visits] at there
          rcases mem_cons.mp there with rfl | there
          · exact .inr .refl
          · exact (grows.fresh v there).imp_right TransGen.to_reflTransGen
      have apart : ∀ {middle : Frame Pcm Voice},
          Grows g (fun v => TransGen g.Feeds v id) frame middle → id ∉ middle.visits :=
        fun grows there => (grows.fresh id there).elim unvisited (acyclic id)
      have alone : ∀ pcm : Pcm, ∃ after block,
          (Except.ok (frame.insert id pcm, pcm) : Except RenderFault _) = .ok (after, block) ∧
          Grows g (fun v => ReflTransGen g.Feeds v id) frame after ∧ id ∈ after.visits :=
        fun pcm => ⟨_, pcm, rfl,
          finish (.refl progress) (progress_insert progress member unvisited pcm) rfl⟩
      simp only [found]
      split
      · rename_i track source
        cases synthesis.quiet track with
        | true => exact alone _
        | false =>
          simp only [Bool.false_eq_true, if_false]
          split
          · rename_i context producer names
            split
            · rename_i same
              have feeds : g.Feeds producer id := by
                refine .inr ⟨track, source ▸ kind, ?_⟩
                rw [names, same, progress.graph.id]
              obtain ⟨middle, pcm, rendered, grows⟩ := deeper feeds progress
              have inserted := progress_insert grows.progress member (apart grows) pcm
              refine ⟨middle.insert id pcm, pcm, ?_, finish grows inserted rfl⟩
              simp only [rendered, bind, Except.bind, pure, Except.pure]
            · exact alone _
          · exact alone _
      · obtain ⟨middle, inputs, rendered, grows⟩ := renderInputs_ok
          (render synthesis fuel) (frame.graph.edges.filter (·.target = id))
          (fun edge incoming frame' progress' => by
            obtain ⟨member, target⟩ := mem_filter.mp incoming
            have feeds : g.Feeds edge.origin id :=
              .inl ⟨edge, progress.graph.edges edge member, rfl, of_decide_eq_true target⟩
            exact deeper feeds progress')
          progress
        obtain ⟨after, pcm, computed, progress', visits⟩ :=
          compute_ok synthesis grows.progress member (apart grows) inputs
        refine ⟨after, pcm, ?_, finish grows progress' visits⟩
        simp only [rendered, bind, Except.bind, computed]

theorem renderAll_ok (ids : List Nat)
    (placed : ∀ id ∈ ids, id ∈ g.nodes) (progress : Progress g frame) :
    ∃ after, renderAll synthesis g.nodes.size ids frame = .ok after ∧ Progress g after ∧
      (∀ v ∈ frame.visits, v ∈ after.visits) ∧ ∀ id ∈ ids, id ∈ after.visits := by
  induction ids generalizing frame with
  | nil => exact ⟨frame, rfl, progress, fun _ there => there, by simp⟩
  | cons id rest ih =>
    obtain ⟨middle, pcm, rendered, grows, here⟩ := render_ok synthesis
      acyclic feeder g.nodes.size id [] progress (isChain_singleton id)
      (fun v there => mem_singleton.mp there ▸ placed id mem_cons_self) (Nat.le_refl _)
    obtain ⟨after, others, progress', kept, all⟩ :=
      ih (fun id member => placed id (mem_cons_of_mem _ member)) grows.progress
    refine ⟨after, ?_, progress', fun v there => kept v (grows.kept v there), fun v there => ?_⟩
    · simp only [renderAll, rendered, others, bind, Except.bind]
    · rcases mem_cons.mp there with rfl | there
      · exact kept v here
      · exact all v there

end

end Frame

namespace Context
open Frame
variable {context : Context Voice}

theorem Sound.processes (sound : context.Sound) (synthesis : Synthesis Pcm Voice) :
    ∃ after frame, context.graph.process synthesis = .ok (after, frame) ∧
      context.graph.Narrows after ∧
      (context.graph.running = true → context.graph.closed = false →
        ∃ rendered, frame = some rendered ∧ rendered.visits.Perm context.graph.nodes.keys) := by
  unfold Graph.process
  cases idle : !context.graph.running || context.graph.closed with
  | true =>
    refine ⟨context.graph, none, rfl, .refl _, fun running opened => ?_⟩
    simp [running, opened] at idle
  | false =>
    obtain ⟨running, opened⟩ := Bool.or_eq_false_iff.mp idle
    have start : Progress context.graph ({ graph := context.graph } : Frame Pcm Voice) := by
      constructor
      · exact .refl _
      · exact nodup_nil
      · simp
      · exact fun _ there => absurd there not_mem_nil
    obtain ⟨after, rendered, progress, -, all⟩ := renderAll_ok synthesis sound.acyclic
      sound.feeder context.graph.nodes.keys
      (fun id member => mem_keys.mp member) start
    have visits : after.visits.Perm context.graph.nodes.keys := by
      apply (perm_ext_iff_of_nodup progress.once nodup_keys).mpr
      intro id
      exact ⟨fun there => mem_keys.mpr (progress.placed id there), all id⟩
    obtain ⟨block, produced⟩ := Option.isSome_iff_exists.mp ((progress.done 1).mp
      (all 1 (mem_keys.mpr (sound.destination opened))))
    refine ⟨{ after.graph with cursor := min (after.graph.cursor + quantum) (2 ^ 64 - 1) },
      some after, ?_, ?_, fun _ _ => ⟨after, rfl, visits⟩⟩
    · simp [rendered, produced, bind, Except.bind, pure, Except.pure, length_keys]
    · exact { progress.graph with }

theorem Sound.revise (sound : context.Sound) {result : Except String (Graph Voice)}
    (narrows : ∀ graph, result = .ok graph → context.graph.Narrows graph) :
    (context.revise result).Sound := by
  unfold Context.revise
  split
  · exact sound
  · exact sound.narrow (narrows _ rfl)

theorem Sound.perform (sound : context.Sound) {synthesis : Synthesis Pcm Voice} {call : Call Voice}
    (offers : context.Offers call) : (context.perform synthesis call).Sound := by
  cases call with
  | create kind track name =>
    simp only [Context.perform]
    split
    · exact sound
    · rename_i graph id output done
      obtain ⟨opened, kind, rfl, source, made⟩ := Graph.create_ok done
      refine sound.created opened (fun track here => ?_) made
      rw [source track here] at offers
      exact offers
  | connect origin target param =>
    simp only [Context.perform, Context.revise]
    split
    · exact sound
    · rename_i graph done
      rcases Graph.connect_ok done with rfl | ⟨placed, placed', missed, rfl⟩
      · exact sound
      · exact sound.connected placed placed' missed
  | disconnect origin target param => exact sound.narrow (Graph.narrows_disconnect ..)
  | schedule id start time => exact sound.revise fun _ => Graph.narrows_schedule
  | adjust id change => exact sound.revise fun _ => Graph.narrows_adjust
  | setRunning running => exact sound.narrow ⟨rfl, fun _ => rfl, fun _ there => there, rfl, rfl⟩
  | skip quanta => exact sound.narrow ⟨rfl, fun _ => rfl, fun _ there => there, rfl, rfl⟩
  | close => exact sound_close sound
  | process =>
    obtain ⟨after, frame, processed, narrows, _⟩ := sound.processes synthesis
    simp only [Context.perform, processed]
    exact sound.narrow narrows

/-- Whatever the page calls, nothing feeds itself, every node that an edge or a track
names is there, and a quantum renders each node once. -/
theorem reached_renders (synthesis : Synthesis Pcm Voice) (id sampleRate : Nat)
    (run : Reachable (fun context => context = { graph := Graph.new synthesis id sampleRate })
      (restrict (fun context call after => context.perform synthesis call = after) Offers)
      context) :
    Acyclic context.graph.Feeds ∧
      (∀ edge ∈ context.graph.edges,
        edge.origin ∈ context.graph.nodes ∧ edge.target ∈ context.graph.nodes) ∧
      (∀ reader track producer, context.graph.kindAt reader = some (.source track) →
        track.producer = some (context.graph.id, producer) →
        context.graph.kindAt producer = some .streamDestination) ∧
      ∃ after frame, context.graph.process synthesis = .ok (after, frame) ∧
        (context.graph.running = true → context.graph.closed = false →
          ∃ rendered, frame = some rendered ∧
            rendered.visits.Perm context.graph.nodes.keys) := by
  have sound : context.Sound := by
    refine run.invariant ?_ ?_
    · rintro _ rfl
      exact sound_new synthesis id sampleRate
    · rintro before call _ - sound ⟨rfl, offers⟩
      exact sound.perform offers
  obtain ⟨after, frame, processed, _, visits⟩ := sound.processes synthesis
  refine ⟨sound.acyclic, fun edge member => ?_, fun _ _ _ => sound.producers, ?_⟩
  · exact ⟨sound.origins edge member, sound.targets edge member⟩
  · exact ⟨after, frame, processed, visits⟩

/-- Signal processing while nothing sounds: a block is its number of channels. -/
def silent : Synthesis Nat Unit where
  voice _ := ()
  silence channels := channels
  quiet _ := false
  resample track := track.channels
  mix node _ inputs :=
    match node.kind with
    | .destination | .streamDestination => (2, ())
    | .oscillator => (1, ())
    | _ => ((inputs.filter (·.1.isNone)).foldl (fun most input => max most input.2) 1, ())

/-- A gain that feeds a stream destination, whose track a source plays. -/
def loopback : List (Call Unit) :=
  [.create "gain" none 0, .create "streamDestination" none 7, .connect 2 3 none,
    .create "source" (some { name := 7, channels := 2, producer := some (5, 3) }) 0,
    .connect 4 1 none, .connect 4 2 none, .setRunning true, .process]

def loopbackContext : Context Unit :=
  loopback.foldl (·.perform silent) { graph := Graph.new silent 5 48000 }

theorem loopback_run : Reachable
    (fun context => context = { graph := Graph.new silent 5 48000 })
    (restrict (fun context call after => context.perform silent call = after) Offers)
    loopbackContext := by
  refine Reachable.run_meeting loopback (.start rfl) ⟨trivial, trivial, trivial, .inl ?_, trivial,
    trivial, trivial, trivial, trivial⟩
  decide

theorem reached_renders_loopback :
    loopbackContext.graph.edges.map (fun edge => (edge.origin, edge.target)) = [(2, 3), (4, 1)] ∧
      loopbackContext.graph.running = true ∧ loopbackContext.graph.closed = false ∧
      Acyclic loopbackContext.graph.Feeds ∧
      ∃ after frame, loopbackContext.graph.process silent = .ok (after, some frame) ∧
        frame.visits.Perm loopbackContext.graph.nodes.keys := by
  have running : loopbackContext.graph.running = true := by decide
  have opened : loopbackContext.graph.closed = false := by decide
  obtain ⟨acyclic, -, -, after, frame, processed, visits⟩ :=
    reached_renders silent 5 48000 loopback_run
  obtain ⟨rendered, rfl, visited⟩ := visits running opened
  exact ⟨by decide, running, opened, acyclic, after, rendered, processed, visited⟩

end Context
end Chuzz.Audio
