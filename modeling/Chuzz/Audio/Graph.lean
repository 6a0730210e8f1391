import Chuzz.Library.GraphSearch

/-! The Web Audio graph of one context. Signal processing is a parameter: what a
node computes from its inputs, and its automation, oscillator phase and analysis
state, which are one opaque `Voice`. -/
namespace Chuzz.Audio
open Std Library.GraphSearch

def quantum : Nat := 128
def nodeLimit : Nat := 256

/-- A track of the page. A stream destination of a context produces the buffer of
its track; `name` tells tracks apart. -/
structure Track where
  name : Nat
  channels : Nat
  producer : Option (Nat × Nat)
deriving DecidableEq, Repr

inductive Kind where
  | destination
  | oscillator
  | gain
  | analyser
  | source (track : Track)
  | streamDestination
deriving DecidableEq, Repr

/-- `Node::new(kind).params`: the names of its parameters. -/
def Kind.params : Kind → List String
  | .gain => ["gain"]
  | .oscillator => ["frequency", "detune"]
  | _ => []

def Kind.hasInput : Kind → Bool
  | .oscillator | .source _ => false
  | _ => true

structure Node (Voice : Type) where
  kind : Kind
  voice : Voice
  start : Option Float := none
  stop : Float := Float.ofScientific 1 false 400
  ended : Bool := false

structure Edge where
  origin : Nat
  target : Nat
  param : Option String
deriving DecidableEq, Repr

/-- The derived order: by origin, then by target, then by parameter, none first. -/
def Edge.before (self other : Edge) : Bool :=
  self.origin < other.origin || self.origin = other.origin &&
    (self.target < other.target || self.target = other.target &&
      match self.param, other.param with
      | none, some _ => true
      | some name, some name' => decide (name < name')
      | _, none => false)

/-- The set of edges is a list in their order. -/
def insertEdge (edge : Edge) : List Edge → List Edge
  | [] => [edge]
  | first :: rest =>
    if edge.before first then edge :: first :: rest else first :: insertEdge edge rest

theorem mem_insertEdge {edge other : Edge} {edges : List Edge} :
    other ∈ insertEdge edge edges ↔ other = edge ∨ other ∈ edges := by
  induction edges with
  | nil => simp [insertEdge]
  | cons first rest ih =>
    simp only [insertEdge]
    split
    · exact List.mem_cons
    · rw [List.mem_cons, ih, List.mem_cons]
      exact or_left_comm

structure Graph (Voice : Type) where
  id : Nat
  sampleRate : Nat
  running : Bool := false
  closed : Bool := false
  cursor : Nat := 0
  nextNode : Nat := 2
  nodes : ExtTreeMap Nat (Node Voice)
  edges : List Edge := []

/-- Signal processing, on blocks of one quantum. -/
structure Synthesis (Pcm Voice : Type) where
  voice : Kind → Voice
  silence : (channels : Nat) → Pcm
  /-- `track.ended() || !track.enabled()` -/
  quiet : Track → Bool
  resample : Track → Pcm
  mix : Node Voice → (time : Float) → (inputs : List (Option String × Pcm)) → Pcm × Voice

/-- `inputs` and `modulation` of a node, and the state of a rendering: the graph,
the blocks of this quantum, and the oscillators that ended in it. `visits` is a
ghost: the nodes rendered so far, latest first. -/
structure Frame (Pcm Voice : Type) where
  graph : Graph Voice
  rendered : ExtTreeMap Nat Pcm := ∅
  ended : List Nat := []
  visits : List Nat := []

inductive RenderFault where
  | missingNode (id : Nat)
  | exhausted
deriving DecidableEq, Repr

namespace Graph
variable {Pcm Voice : Type}

def new (synthesis : Synthesis Pcm Voice) (id sampleRate : Nat) : Graph Voice where
  id := id
  sampleRate := sampleRate
  nodes := (∅ : ExtTreeMap Nat (Node Voice)).insert 1
    { kind := .destination, voice := synthesis.voice .destination }

def time (self : Graph Voice) : Float := self.cursor.toFloat / self.sampleRate.toFloat

/-- `create`, with the new track of a stream destination; `name` is its name. -/
def create (synthesis : Synthesis Pcm Voice) (self : Graph Voice) (kind : String)
    (track : Option Track) (name : Nat) : Except String (Graph Voice × Nat × Option Track) :=
  let id := self.nextNode
  let push (kind : Kind) (output : Option Track) :=
    ({ self with
        nextNode := id + 1
        nodes := self.nodes.insert id { kind, voice := synthesis.voice kind } }, id, output)
  if self.closed then .error "InvalidStateError: AudioContext is closed"
  else if self.nodes.size = nodeLimit then
    .error "QuotaExceededError: audio node limit"
  else if kind = "oscillator" then .ok (push .oscillator none)
  else if kind = "gain" then .ok (push .gain none)
  else if kind = "analyser" then .ok (push .analyser none)
  else if kind = "source" then
    match track with
    | none => .error "InvalidAccessError: unknown audio stream track"
    | some track => .ok (push (.source track) none)
  else if kind = "streamDestination" then
    .ok (push .streamDestination (some { name, channels := 2, producer := some (self.id, id) }))
  else .error "NotSupportedError: unsupported audio node"

def kindAt (self : Graph Voice) (id : Nat) : Option Kind := (self.nodes[id]?).map Node.kind

/-- The node `id` is a source that reads the buffer of `producer`, of this context. -/
def reads (self : Graph Voice) (producer id : Nat) : Bool :=
  match self.kindAt id with
  | some (.source track) => track.producer = some (self.id, producer)
  | _ => false

/-- The nodes that a node feeds, in the order `reaches` takes them. -/
def feeds (self : Graph Voice) (id : Nat) : List Nat :=
  (self.edges.filter (·.origin = id)).map Edge.target ++ self.nodes.keys.filter (self.reads id)

/-- Enough fuel for the loop of `reaches`, which has none. -/
def searchFuel (self : Graph Voice) : Nat :=
  2 + (self.nodes.keys.map fun id => (self.feeds id).length).sum

def reaches (self : Graph Voice) (start target : Nat) : Bool :=
  search self.feeds target self.searchFuel [start] [] = some true

def connect (self : Graph Voice) (origin target : Nat) (param : Option String) :
    Except String (Graph Voice) :=
  if self.closed then .error "InvalidStateError: AudioContext is closed"
  else
    match self.nodes[origin]? with
    | none => .error "InvalidAccessError: unknown source node"
    | some source =>
      match self.nodes[target]? with
      | none => .error "InvalidAccessError: unknown destination node"
      | some destination =>
        if source.kind = .destination ∨ source.kind = .streamDestination then
          .error "IndexSizeError: audio node has no output"
        else if param.any fun name => name ∉ destination.kind.params then
          .error "InvalidAccessError: unknown AudioParam"
        else if param.isNone ∧ destination.kind.hasInput = false then
          .error "IndexSizeError: audio node has no input"
        else
          let edge := { origin, target, param }
          if edge ∈ self.edges then .ok self
          else if self.reaches target origin then
            .error "NotSupportedError: audio feedback requires a DelayNode"
          else .ok { self with edges := insertEdge edge self.edges }

def disconnect (self : Graph Voice) (origin : Nat) (target : Option Nat) (param : Option String) :
    Graph Voice × Except String Unit :=
  if origin = 0 ∨ origin ≥ self.nextNode then
    (self, .error "InvalidAccessError: unknown source node")
  else
    let edges := self.edges.filter fun edge =>
      ¬ (edge.origin = origin ∧ ∀ other ∈ target, edge.target = other ∧ edge.param = param)
    ({ self with edges },
      if target.isSome ∧ edges.length = self.edges.length then
        .error "InvalidAccessError: audio connection does not exist"
      else .ok ())

/-- A change of one node, if it is there. -/
def modify (self : Graph Voice) (id : Nat) (change : Node Voice → Node Voice) : Graph Voice :=
  match self.nodes[id]? with
  | none => self
  | some node => { self with nodes := self.nodes.insert id (change node) }

def schedule (self : Graph Voice) (id : Nat) (start : Bool) (time : Float) :
    Except String (Graph Voice) :=
  if self.closed then .error "InvalidStateError: AudioContext is closed"
  else if !time.isFinite || time < 0 then .error "RangeError: invalid oscillator time"
  else
    match self.nodes[id]? with
    | none => .error "InvalidAccessError: unknown oscillator"
    | some node =>
      if node.kind ≠ .oscillator then .error "InvalidAccessError: node is not an oscillator"
      else if start then
        if node.start.isSome then .error "InvalidStateError: oscillator already started"
        else .ok (self.modify id fun node => { node with start := some time })
      else if node.start.isNone then .error "InvalidStateError: oscillator has not started"
      else if node.ended then .ok self
      else .ok (self.modify id fun node => { node with stop := time })

/-- `automate`, `cancel`, `wave`, `configure` and the readings that advance a node's
own state: they change its voice only. -/
def adjust (self : Graph Voice) (id : Nat) (change : Voice → Voice) :
    Except String (Graph Voice) :=
  if self.closed then .error "InvalidStateError: AudioContext is closed"
  else .ok (self.modify id fun node => { node with voice := change node.voice })

def skip (self : Graph Voice) (quanta : Nat) : Graph Voice :=
  { self with cursor := min (self.cursor + quanta * quantum) (2 ^ 64 - 1) }

def close (self : Graph Voice) : Graph Voice :=
  { self with closed := true, running := false, nodes := ∅, edges := [] }

end Graph

namespace Frame
variable {Pcm Voice : Type}

def insert (self : Frame Pcm Voice) (id : Nat) (pcm : Pcm) : Frame Pcm Voice :=
  { self with rendered := self.rendered.insert id pcm, visits := id :: self.visits }

/-- The inputs of a node, rendered one after the other. -/
def renderInputs (render : Nat → Frame Pcm Voice → Except RenderFault (Frame Pcm Voice × Pcm)) :
    List Edge → Frame Pcm Voice →
      Except RenderFault (Frame Pcm Voice × List (Option String × Pcm))
  | [], frame => .ok (frame, [])
  | edge :: rest, frame => do
    let (frame, pcm) ← render edge.origin frame
    let (frame, inputs) ← renderInputs render rest frame
    return (frame, (edge.param, pcm) :: inputs)

/-- The block of a node whose inputs are rendered, and what it leaves in the node. -/
def compute (synthesis : Synthesis Pcm Voice) (self : Frame Pcm Voice) (id : Nat)
    (inputs : List (Option String × Pcm)) : Except RenderFault (Frame Pcm Voice × Pcm) :=
  match self.graph.nodes[id]? with
  | none => .error (.missingNode id)
  | some node =>
    let time := self.graph.time
    let (pcm, voice) := synthesis.mix node time inputs
    let ends := node.kind = .oscillator ∧ node.start.isSome ∧ node.ended = false ∧
      time + quantum.toFloat / self.graph.sampleRate.toFloat ≥ node.stop
    let node := { node with voice, ended := node.ended || decide ends }
    let frame := { self with
      graph := { self.graph with nodes := self.graph.nodes.insert id node }
      ended := if ends then self.ended ++ [id] else self.ended }
    .ok (frame.insert id pcm, pcm)

/-- `render`; the fuel bounds the depth of the recursion. -/
def render (synthesis : Synthesis Pcm Voice) :
    (fuel : Nat) → (id : Nat) → Frame Pcm Voice → Except RenderFault (Frame Pcm Voice × Pcm)
  | fuel, id, frame =>
    match frame.rendered[id]? with
    | some pcm => .ok (frame, pcm)
    | none =>
      match fuel with
      | 0 => .error .exhausted
      | fuel + 1 =>
        match frame.graph.nodes[id]? with
        | none => .error (.missingNode id)
        | some node =>
          match node.kind with
          | .source track => do
            let (frame, pcm) ←
              if synthesis.quiet track then .ok (frame, synthesis.silence track.channels)
              else
                match track.producer with
                | some (context, producer) =>
                  if context = frame.graph.id then render synthesis fuel producer frame
                  else .ok (frame, synthesis.resample track)
                | none => .ok (frame, synthesis.resample track)
            return (frame.insert id pcm, pcm)
          | _ => do
            let incoming := frame.graph.edges.filter (·.target = id)
            let (frame, inputs) ← renderInputs (render synthesis fuel) incoming frame
            frame.compute synthesis id inputs

/-- The roots of a rendering, one after the other. -/
def renderAll (synthesis : Synthesis Pcm Voice) (fuel : Nat) :
    List Nat → Frame Pcm Voice → Except RenderFault (Frame Pcm Voice)
  | [], frame => .ok frame
  | id :: rest, frame => do
    let (frame, _) ← render synthesis fuel id frame
    renderAll synthesis fuel rest frame

end Frame

namespace Graph
variable {Pcm Voice : Type}

/-- `process`: the graph after one quantum, the frame that it rendered (none when it
does not run) and the block of the destination. -/
def process (synthesis : Synthesis Pcm Voice) (self : Graph Voice) :
    Except RenderFault (Graph Voice × Option (Frame Pcm Voice)) :=
  if !self.running || self.closed then .ok (self, none)
  else do
    let ids := self.nodes.keys
    let frame ← Frame.renderAll synthesis ids.length ids { graph := self }
    match frame.rendered[1]? with
    | none => throw (.missingNode 1)
    | some _ =>
      return ({ frame.graph with cursor := min (frame.graph.cursor + quantum) (2 ^ 64 - 1) },
        some frame)

end Graph

/-- A context's graph and the tracks that its stream destinations have put out. -/
structure Context (Voice : Type) where
  graph : Graph Voice
  outputs : List Track := []

inductive Call (Voice : Type) where
  | create (kind : String) (track : Option Track) (name : Nat)
  | connect (origin target : Nat) (param : Option String)
  | disconnect (origin : Nat) (target : Option Nat) (param : Option String)
  | schedule (id : Nat) (start : Bool) (time : Float)
  | adjust (id : Nat) (change : Voice → Voice)
  | setRunning (running : Bool)
  | skip (quanta : Nat)
  | close
  | process

namespace Context
variable {Pcm Voice : Type}

/-- A call that fails leaves the context as it was. -/
def revise (self : Context Voice) (result : Except String (Graph Voice)) : Context Voice :=
  match result with
  | .error _ => self
  | .ok graph => { self with graph }

def perform (synthesis : Synthesis Pcm Voice) (self : Context Voice) :
    Call Voice → Context Voice
  | .create kind track name =>
    match self.graph.create synthesis kind track name with
    | .error _ => self
    | .ok (graph, _, output) => { graph, outputs := self.outputs ++ output.toList }
  | .connect origin target param => self.revise (self.graph.connect origin target param)
  | .disconnect origin target param =>
    { self with graph := (self.graph.disconnect origin target param).1 }
  | .schedule id start time => self.revise (self.graph.schedule id start time)
  | .adjust id change => self.revise (self.graph.adjust id change)
  | .setRunning running => { self with graph := { self.graph with running } }
  | .skip quanta => { self with graph := self.graph.skip quanta }
  | .close => { self with graph := self.graph.close }
  | .process =>
    match self.graph.process synthesis with
    | .error _ => self
    | .ok (graph, _) => { self with graph }

/-- A track that a page can name: the context put it out, or does not produce it. -/
def Offers (self : Context Voice) : Call Voice → Prop
  | .create _ (some track) _ =>
    track ∈ self.outputs ∨ ∀ producer, track.producer ≠ some (self.graph.id, producer)
  | _ => True

end Context
end Chuzz.Audio
