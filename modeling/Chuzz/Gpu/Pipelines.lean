import Chuzz.Gpu.Storage

/-! The commands on shaders, layouts, bind groups and pipelines. Arguments that only `wgpu` reads are
left out. -/
namespace Chuzz.Gpu
open Std Library.Throwing

namespace Pipeline

structure ShaderOptions where
  code : String

inductive Layout where
  | buffer (kind : String)
  | sampler (kind : String)
  | texture (sampleType viewDimension : String)
  | storageTexture (access format viewDimension : String)

/-- The resource types that an entry gives are `layouts`, in the order in which they are looked at. -/
structure LayoutEntry where
  layouts : List Layout
  visibility : Nat

inductive Binding where
  | buffer (handle offset : Nat) (size : Option Nat)
  | sampler (handle : Nat)
  | view (handle : Nat)

structure GroupOptions where
  layout : Nat
  entries : List Binding

structure Target where
  format : String
  writeMask : Nat

structure Fragment where
  module : Nat
  targets : List (Option Target)

structure RenderOptions where
  layout : Option Nat
  vertex : Nat
  fragment : Option Fragment
  depthStencil : Option String

structure ComputeOptions where
  layout : Option Nat
  module : Nat

structure GetLayout where
  pipeline : Nat
  kind : String
  index : Nat

def Layout.native (native : Native) : Layout → Except GpuError Unit
  | .buffer kind => Texture.named ["uniform", "storage", "read-only-storage"] "GPUBufferBindingType" kind
  | .sampler kind =>
    Texture.named ["filtering", "non-filtering", "comparison"] "GPUSamplerBindingType" kind
  | .texture sampleType viewDimension => do
    Texture.named ["float", "unfilterable-float", "depth", "sint", "uint"] "GPUTextureSampleType"
      sampleType
    Texture.viewDimension viewDimension
  | .storageTexture access format viewDimension => do
    Texture.named ["write-only", "read-only", "read-write"] "GPUStorageTextureAccess" access
    let _ ← Texture.format native format
    Texture.viewDimension viewDimension

def LayoutEntry.native (native : Native) (self : LayoutEntry) : Except GpuError Unit := do
  let [layout] := self.layouts
    | throw (.validation "a binding must have exactly one resource type")
  layout.native native
  let some _ := fromBits native.shaderStages self.visibility
    | throw (.validation "invalid GPUShaderStage")

def Binding.native (self : Binding) (resources : Resources) : Except GpuError Unit := do
  match self with
  | .buffer handle offset size =>
    let buffer ← get resources.buffers handle "GPUBuffer"
    let size := size.getD (buffer.size - offset)
    if size = 0 ∨ offset + size ≥ 2 ^ 64 ∨ offset + size > buffer.size then
      throw (.validation "invalid GPUBufferBinding range")
  | .sampler handle =>
    let _ ← get resources.samplers handle "GPUSampler"
  | .view handle =>
    let _ ← get resources.views handle "GPUTextureView"

def Target.native (native : Native) (self : Target) : Except GpuError Unit := do
  let _ ← Texture.format native self.format
  let some _ := fromBits native.colorWrites self.writeMask
    | throw (.validation "invalid GPUColorWrite")

end Pipeline

/-- The commands of `pipeline_sync`. -/
inductive PipelineOp where
  | createBindGroupLayout (args : Args (List Pipeline.LayoutEntry))
  | createPipelineLayout (args : Args (List (Option Nat)))
  | createBindGroup (args : Args Pipeline.GroupOptions)
  /-- `async` is for the `Async` variants, whose errors reject a promise. -/
  | createRenderPipeline (async : Bool) (args : Args Pipeline.RenderOptions)
  | createComputePipeline (async : Bool) (args : Args Pipeline.ComputeOptions)
  | getBindGroupLayout (args : Args Pipeline.GetLayout)

/-- A stage's module is looked up first, then the layout. -/
def pipelineParts (self : Resources) (module : Nat) (layout : Option Nat) : Except GpuError Unit := do
  let _ ← get self.pipelines.shaders module "GPUShaderModule"
  if let some layout := layout then
    let _ ← get self.pipelines.pipelineLayouts layout "GPUPipelineLayout"

def renderParts (native : Native) (self : Resources) (options : Pipeline.RenderOptions) :
    Except GpuError Unit := do
  pipelineParts self options.vertex options.layout
  if let some fragment := options.fragment then
    for target in fragment.targets do
      if let some target := target then
        target.native native
    let _ ← get self.pipelines.shaders fragment.module "GPUShaderModule"
  if let some format := options.depthStencil then
    let _ ← Texture.format native format

/-- `get_bind_group_layout` of a pipeline. -/
def layoutOf (native : Native) (self : Resources) (options : Pipeline.GetLayout) :
    Except GpuError Unit := do
  if options.index ≥ native.maxBindGroups then
    throw (.validation "invalid bind group layout index")
  match options.kind with
  | "render" =>
    let _ ← get self.pipelines.render options.pipeline "GPURenderPipeline"
  | "compute" =>
    let _ ← get self.pipelines.compute options.pipeline "GPUComputePipeline"
  | _ => throw (.validation "invalid GPU pipeline type")

/-- The checks of `pipeline_sync`. They answer with the tables that have the new object. -/
def pipelineObject (native : Native) (handle : Nat) (self : Resources) :
    PipelineOp → Except GpuError Pipeline.Objects
  | .createBindGroupLayout args => do
    for entry in ← decode args do
      entry.native native
    return { self.pipelines with layouts := self.pipelines.layouts.insert handle () }
  | .createPipelineLayout args => do
    for layout in ← decode args do
      if let some layout := layout then
        let _ ← get self.pipelines.layouts layout "GPUBindGroupLayout"
    return { self.pipelines with pipelineLayouts := self.pipelines.pipelineLayouts.insert handle () }
  | .createBindGroup args => do
    let options ← decode args
    let _ ← get self.pipelines.layouts options.layout "GPUBindGroupLayout"
    for entry in options.entries do
      entry.native self
    return { self.pipelines with groups := self.pipelines.groups.insert handle () }
  | .createRenderPipeline _ args => do
    let options ← decode args
    renderParts native self options
    return { self.pipelines with render := self.pipelines.render.insert handle () }
  | .createComputePipeline _ args => do
    let options ← decode args
    pipelineParts self options.module options.layout
    return { self.pipelines with compute := self.pipelines.compute.insert handle () }
  | .getBindGroupLayout args => do
    let options ← decode args
    layoutOf native self options
    return { self.pipelines with layouts := self.pipelines.layouts.insert handle () }

def pipelineSync (native : Native) (handle : Nat) (op : PipelineOp) : Task Unit := do
  let pipelines ← reading fun self => pipelineObject native handle self op
  modify fun self => { self with pipelines }

/-- The native errors are only known once `pipeline_sync` has returned; they come before its own. -/
def checked (native : Native) (work : Task Unit) : Task Unit := fun self =>
  match native.raised with
  | none => work self
  | some error => .error error (left work self)

/-- A task, and what is left when it fails. -/
def orElse (task : Task Unit) (cleanup : Resources → Resources) : Task Unit := fun self =>
  match task self with
  | .ok _ after => .ok () after
  | .error error after => .error error (cleanup after)

def executePipeline (native : Native) (handle : Nat) (op : PipelineOp) : Task Value := do
  reading fun self => self.reserve handle 0
  orElse (checked native (pipelineSync native handle op)) fun self =>
    { self with pipelines := self.pipelines.remove handle }
  return .null

/-- `messages` that the compiler itself gives are not of interest here. -/
def compilationInfo (handle : Nat) : Task Value :=
  reading fun self => do
    let shader ← get self.pipelines.shaders handle "GPUShaderModule"
    return .messages shader.error

/-- An invalid shader is still a `GPUShaderModule`. The result is the error that is to be reported. -/
def createShader (native : Native) (handle : Nat) (args : Args Pipeline.ShaderOptions) :
    Task (Option GpuError) := do
  let source ← reading fun self => do
    let options ← decode args
    if options.code.utf8ByteSize > allocationLimit then
      throw (.validation "WebGPU shader source limit reached in chuzz")
    self.reserve handle 0
    return options.code
  let shader : Pipeline.Shader := { source, error := native.raised.map GpuError.message }
  modify fun self =>
    { self with pipelines := { self.pipelines with
      shaders := self.pipelines.shaders.insert handle shader } }
  return native.raised

/-- The end of `create_shader`, after the report. -/
def describeShader (native : Native) (handle : Nat) : Task Value := do
  let _ ← compilationInfo handle
  reading fun _ => native.described
  return .null

end Chuzz.Gpu
