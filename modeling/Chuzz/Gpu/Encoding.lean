import Chuzz.Gpu.Pipelines

/-! The commands on encoders, command buffers and render bundles. An encoder is replayed from its
recorded commands when it is finished; arguments that only `wgpu` reads are left out. -/
namespace Chuzz.Gpu
open Std Library.Throwing

namespace Encoder

def commandLimit : Nat := 65536

structure BundleOptions where
  colorFormats : List (Option String)
  depthStencilFormat : Option String
  sampleCount : Nat

def BundleDescriptor.new (native : Native) (options : BundleOptions) :
    Except GpuError BundleDescriptor := do
  let colorFormats ← options.colorFormats.mapM fun format => format.mapM (Texture.format native)
  let depthStencil ← options.depthStencilFormat.mapM (Texture.format native)
  return { colorFormats, depthStencil, sampleCount := options.sampleCount }

structure TextureCopy where
  texture : Nat
  aspect : String

structure BufferCopy where
  buffer : Nat
  offset : Nat

structure ColorAttachment where
  view : Nat
  resolveTarget : Option Nat
  loadOp : String
  storeOp : String

structure DepthAttachment where
  view : Nat
  depthLoadOp : Option String
  depthStoreOp : Option String
  depthReadOnly : Bool
  stencilLoadOp : Option String
  stencilStoreOp : Option String
  stencilReadOnly : Bool

/-- A viewport, scissor, blend constant, stencil reference or occlusion query is a `setting`. -/
inductive PassCommand where
  | pipeline (handle : Nat)
  | bindGroup (group : Option Nat)
  | vertexBuffer (buffer offset : Nat) (size : Option Nat)
  | indexBuffer (buffer offset : Nat) (size : Option Nat)
  | draw (count instances first firstInstance : Nat)
  | drawIndexed (count instances first firstInstance : Nat)
  | drawIndirect (buffer offset : Nat) (indexed : Bool)
  | dispatch
  | dispatchIndirect (buffer offset : Nat)
  | executeBundles (handles : List Nat)
  | setting

inductive Operation where
  | render (colors : List (Option ColorAttachment)) (depth : Option DepthAttachment)
      (queries : Option Nat) (commands : List PassCommand)
  | compute (commands : List PassCommand)
  | resolveQuerySet (query first count destination offset : Nat)
  | clearBuffer (buffer offset : Nat) (size : Option Nat)
  | copyBufferToBuffer (source sourceOffset destination destinationOffset size : Nat)
  | copyBufferToTexture (source : BufferCopy) (destination : TextureCopy)
  | copyTextureToBuffer (source : TextureCopy) (destination : BufferCopy)
  | copyTextureToTexture (source destination : TextureCopy)

structure Finish where
  encoder : Nat
  operations : List Operation

structure BundleFinish where
  encoder : Nat
  commands : List PassCommand

def operations (load store : String) : Except GpuError Unit := do
  Texture.named ["load", "clear"] "GPULoadOp" load
  Texture.named ["store", "discard"] "GPUStoreOp" store

def attachmentOps (load store : Option String) (readOnly : Bool) : Except GpuError Unit :=
  if readOnly then
    if load.isSome ∨ store.isSome then
      .error (.validation "read-only attachment cannot have load/store operations")
    else .ok ()
  else
    match load, store with
    | none, none => .ok ()
    | some load, some store => operations load store
    | _, _ => .error (.validation "attachment requires both loadOp and storeOp")

def drawRange (first count : Nat) : Except GpuError Unit :=
  if first + count < 2 ^ 32 then .ok () else .error (.validation "GPU draw range overflow")

variable (resources : Resources)

def bufferRange (handle offset : Nat) (size : Option Nat) : Except GpuError Buffer.Range := do
  let buffer ← get resources.buffers handle "GPUBuffer"
  if buffer.mapped.isSome then
    throw (.validation "GPUBuffer is mapped")
  Buffer.range offset (size.getD (buffer.size - offset)) buffer.size

def bufferSlice (handle offset : Nat) (size : Option Nat) : Except GpuError Unit := do
  let range ← bufferRange resources handle offset size
  if range.start ≥ range.stop ∧ ¬ resources.emptyBinding then
    throw (.validation "empty GPUBuffer binding")

def textureCopy (copy : TextureCopy) : Except GpuError Unit := do
  let _ ← get resources.textures copy.texture "GPUTexture"
  Texture.aspect copy.aspect

def bufferCopy (copy : BufferCopy) : Except GpuError Unit := do
  let _ ← bufferRange resources copy.buffer copy.offset (some 0)

/-- Inspection's private `COPY_SRC` must not grant the page permission to copy. -/
def declaredSource (native : Native) (handle : Nat) : Except GpuError Unit := do
  if native.inspecting then
    let source ← get resources.buffers handle "GPUBuffer"
    if ¬ contains source.usage 4 then
      throw (.validation "copy source requires declared COPY_SRC usage")

/-- The commands that render passes and render bundles have in common. -/
def replayShared : PassCommand → Option (Except GpuError Unit)
  | .pipeline handle => some do
    let _ ← get resources.pipelines.render handle "GPURenderPipeline"
  | .bindGroup group => some do
    if let some handle := group then
      let _ ← get resources.pipelines.groups handle "GPUBindGroup"
  | .vertexBuffer buffer offset size | .indexBuffer buffer offset size =>
    some (bufferSlice resources buffer offset size)
  | .draw count instances first firstInstance
  | .drawIndexed count instances first firstInstance => some do
    drawRange first count
    drawRange firstInstance instances
  | .drawIndirect buffer offset indexed => some do
    let _ ← bufferRange resources buffer offset (some (if indexed then 20 else 16))
  | _ => none

def replayRender (command : PassCommand) : Except GpuError Unit :=
  match replayShared resources command, command with
  | some replayed, _ => replayed
  | none, .executeBundles handles => do
    for handle in handles do
      let _ ← get resources.encoding.bundles handle "GPURenderBundle"
  | none, .setting => .ok ()
  | none, _ => .error (.validation "dispatchWorkgroups requires a compute pass")

def replayCompute : PassCommand → Except GpuError Unit
  | .pipeline handle => do
    let _ ← get resources.pipelines.compute handle "GPUComputePipeline"
  | .bindGroup group => do
    if let some handle := group then
      let _ ← get resources.pipelines.groups handle "GPUBindGroup"
  | .dispatch => .ok ()
  | .dispatchIndirect buffer offset => do
    let _ ← bufferRange resources buffer offset (some 12)
  | _ => .error (.validation "render command requires a render pass")

/-- A command of `replay_bundle`. -/
def replayBundle (command : PassCommand) : Except GpuError Unit :=
  match replayShared resources command with
  | some replayed => replayed
  | none => .error (.validation "render pass command is not valid in GPURenderBundleEncoder")

def ColorAttachment.native (self : ColorAttachment) : Except GpuError Unit := do
  let _ ← get resources.views self.view "GPUTextureView"
  if let some handle := self.resolveTarget then
    let _ ← get resources.views handle "GPUTextureView"
  operations self.loadOp self.storeOp

def DepthAttachment.native (self : DepthAttachment) : Except GpuError Unit := do
  let _ ← get resources.views self.view "GPUTextureView"
  attachmentOps self.depthLoadOp self.depthStoreOp self.depthReadOnly
  attachmentOps self.stencilLoadOp self.stencilStoreOp self.stencilReadOnly

def replay (native : Native) : Operation → Except GpuError Unit
  | .render colors depth queries commands => do
    for color in colors do
      if let some color := color then
        color.native resources
    if let some depth := depth then
      depth.native resources
    if let some handle := queries then
      let _ ← get resources.queries handle "GPUQuerySet"
    for command in commands do
      replayRender resources command
  | .compute commands => do
    for command in commands do
      replayCompute resources command
  | .resolveQuerySet query first count destination offset => do
    let queries ← get resources.queries query "GPUQuerySet"
    if first + count ≥ 2 ^ 32 ∨ first + count > queries then
      throw (.validation "query range is out of bounds")
    let _ ← bufferRange resources destination offset (some (count * 8))
  | .clearBuffer buffer offset size => do
    let _ ← bufferRange resources buffer offset size
  | .copyBufferToBuffer source sourceOffset destination destinationOffset size => do
    let _ ← bufferRange resources source sourceOffset (some size)
    let _ ← bufferRange resources destination destinationOffset (some size)
    declaredSource resources native source
  | .copyBufferToTexture source destination => do
    declaredSource resources native source.buffer
    bufferCopy resources source
    textureCopy resources destination
  | .copyTextureToBuffer source destination => do
    textureCopy resources source
    bufferCopy resources destination
  | .copyTextureToTexture source destination => do
    textureCopy resources source
    textureCopy resources destination

def commandBudget (count extra : Nat) : Except GpuError Nat :=
  if count + extra ≤ commandLimit then .ok (count + extra)
  else .error (.validation "WebGPU command limit reached in chuzz")

def passCommandCost : PassCommand → Except GpuError Nat
  | .executeBundles handles =>
    handles.foldlM (fun count handle => do
      let bundle ← get resources.encoding.bundles handle "GPURenderBundle"
      commandBudget count (bundle.commandCount + 1)) 1
  | _ => .ok 1

def operationCost (operation : Operation) : Except GpuError Nat :=
  let passes (commands : List PassCommand) := commands.foldlM (fun count command => do
    commandBudget count (← passCommandCost resources command)) 0
  match operation with
  | .render _ _ _ commands | .compute commands => passes commands
  | _ => .ok 0

def budget (operations : List Operation) : Except GpuError Nat :=
  operations.foldlM (fun count operation => do
    commandBudget count ((← operationCost resources operation) + 1)) 0

end Encoder
open Encoder

/-- The commands of `encoding_sync`. -/
inductive EncodingOp where
  | createCommandEncoder (args : Args Unit)
  | createRenderBundleEncoder (args : Args BundleOptions)
  | finishRenderBundle (args : Args BundleFinish)
  | finish (args : Args Finish)
  | submit (args : Args (List Nat))

def updateEncoding (update : Encoder.Objects → Encoder.Objects) : Task Unit :=
  modify fun self => { self with encoding := update self.encoding }

/-- Takes the command buffers of a submission out, one after the other. -/
def takeCommands : List Nat → Task Unit
  | [] => pure ()
  | handle :: rest => do
    reading fun self =>
      if handle ∈ self.encoding.commands then .ok ()
      else .error (.validation "invalid GPUCommandBuffer")
    updateEncoding fun objects => { objects with commands := objects.commands.erase handle }
    takeCommands rest

def encodingSync (native : Native) (handle : Nat) : EncodingOp → Task Unit
  | .createCommandEncoder args => do
    reading fun self => do
      decode args
      self.reserve handle 0
    updateEncoding fun objects => { objects with encoders := objects.encoders.insert handle () }
  | .createRenderBundleEncoder args => do
    let descriptor ← reading fun self => do
      self.reserve handle 0
      let descriptor ← BundleDescriptor.new native (← decode args)
      if descriptor.sampleCount ∉ [1, 4] then
        throw (.validation "invalid render bundle sampleCount")
      if descriptor.colorFormats.length > native.maxColorAttachments then
        throw (.validation "too many render bundle color formats")
      return descriptor
    updateEncoding fun objects =>
      { objects with bundleEncoders := objects.bundleEncoders.insert handle descriptor }
  | .finishRenderBundle args => do
    let finish ← reading fun self => do
      let finish ← decode args
      if finish.encoder ∉ self.encoding.bundleEncoders then
        throw (.validation "invalid or finished GPURenderBundleEncoder")
      return finish
    updateEncoding fun objects =>
      { objects with bundleEncoders := objects.bundleEncoders.erase finish.encoder }
    reading fun self => do
      self.reserve handle 0
      if finish.commands.length > commandLimit then
        throw (.validation "WebGPU command limit reached in chuzz")
      for command in finish.commands do
        replayBundle self command
    updateEncoding fun objects =>
      { objects with bundles := objects.bundles.insert handle ⟨finish.commands.length⟩ }
  | .finish args => do
    let finish ← reading fun self => do
      let finish ← decode args
      self.reserve handle 0
      let count ← budget self finish.operations
      if count > commandLimit then
        throw (.validation "WebGPU command limit reached in chuzz")
      if finish.encoder ∉ self.encoding.encoders then
        throw (.validation "invalid or finished GPUCommandEncoder")
      return finish
    updateEncoding fun objects => { objects with encoders := objects.encoders.erase finish.encoder }
    reading fun self => do
      for operation in finish.operations do
        replay self native operation
    updateEncoding fun objects => { objects with commands := objects.commands.insert handle () }
  | .submit args => do
    let handles ← reading fun self => do
      let handles ← decode args
      if handles.length > commandLimit then
        throw (.validation "WebGPU command buffer limit reached in chuzz")
      if ¬ handles.Nodup ∨ handles.any (· ∉ self.encoding.commands) then
        throw (.validation "invalid or already submitted GPUCommandBuffer")
      return handles
    takeCommands handles

/-- What a failed encoding command leaves under its own handle: nothing. -/
def Encoder.Objects.forget (self : Encoder.Objects) (handle : Nat) : Encoder.Objects where
  encoders := self.encoders.erase handle
  commands := self.commands.erase handle
  bundleEncoders := self.bundleEncoders.erase handle
  bundles := self.bundles.erase handle

def executeEncoding (native : Native) (handle : Nat) (op : EncodingOp) : Task Value := do
  orElse (checked native (encodingSync native handle op)) fun self =>
    { self with encoding := self.encoding.forget handle }
  return .null

def submittedWorkDone (native : Native) : Task Value := do
  reading fun _ => native.submitted
  return .null

end Chuzz.Gpu
