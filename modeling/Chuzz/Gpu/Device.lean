import Chuzz.Gpu.Storage
import Chuzz.Gpu.Encoding

/-! The commands of a canvas context. The pixels of a presented texture go to the document and are not
of interest here. -/
namespace Chuzz.Gpu
open Std Library.Throwing

namespace Canvas

structure Current where
  canvas : Nat
  generation : Nat
  width : Nat
  height : Nat

structure Present where
  canvas : Nat
  generation : Nat

end Canvas

/-- The configuration of a canvas in this generation. -/
def Resources.configured (self : Resources) (canvas generation : Nat) :
    Option Canvas.Configuration :=
  (self.canvases[canvas]?).filter (·.generation = generation)

def configureCanvas (canvas : Nat) (args : Args Canvas.Configuration) : Task Value := do
  let configuration ← reading fun self => do
    let configuration ← decode args
    if configuration.format ∉ ["rgba8unorm", "bgra8unorm"] then
      throw (.validation
        ("not implemented in chuzz: GPUCanvasConfiguration.format." ++ configuration.format))
    if configuration.alphaMode ∉ ["opaque", "premultiplied"] then
      throw (.validation "invalid GPUCanvasAlphaMode")
    if configuration.usage = 0 ∨ ¬ contains 31 configuration.usage then
      throw (.validation "invalid GPUTextureUsage")
    if configuration.viewFormats.any fun view =>
        view ≠ configuration.format && view ≠ configuration.format ++ "-srgb" then
      throw (.validation "invalid canvas viewFormats")
    if configuration.width * configuration.height * 4 % 2 ^ 64 > allocationLimit then
      throw (.validation "WebGPU canvas allocation limit reached in chuzz")
    if canvas ∉ self.canvases ∧ self.canvases.size ≥ 64 then
      throw (.validation "WebGPU canvas limit reached in chuzz")
    return configuration
  modify fun self => self.releaseCanvas canvas
  modify fun self => { self with canvases := self.canvases.insert canvas configuration }
  return .null

def unconfigureCanvas (canvas : Nat) (args : Args Nat) : Task Value := do
  let _ ← reading fun _ => decode args
  modify fun self => self.releaseCanvas canvas
  return .null

def currentTexture (native : Native) (handle : Nat) (args : Args Canvas.Current) : Task Value := do
  let (current, configuration) ← reading fun self => do
    let current ← decode args
    let some configuration := self.configured current.canvas current.generation
      | throw (.validation "GPUCanvasContext is not configured")
    if current.width ≠ configuration.width ∨ current.height ≠ configuration.height then
      throw (.validation "canvas drawing buffer was resized")
    return (current, configuration)
  createTextureOptions native handle {
      width := current.width, height := current.height, layers := 1
      mipLevelCount := 1, sampleCount := 1, dimension := "2d"
      format := configuration.format
      usage := configuration.usage ||| 1
      viewFormats := configuration.viewFormats }
    (some (current.canvas, current.generation))

/-- The configured canvas of a present, with the texture that the handle names. -/
def presented (handle : Nat) (args : Args Canvas.Present) (self : Resources) :
    Except GpuError (Canvas.Present × Option Texture.Entry) := do
  let present ← decode args
  let some _ := self.configured present.canvas present.generation
    | throw (.validation "GPUCanvasContext is not configured")
  return (present, self.textures[handle]?)

def presentCanvas (native : Native) (handle : Nat) (args : Args Canvas.Present) : Task Value := do
  let (present, found) ← reading (presented handle args)
  -- The texture is taken out before it is known to be the canvas's own.
  modify fun self => self.removeTexture handle
  reading fun _ => do
    let some entry := found.filter (·.canvas = some (present.canvas, present.generation))
      | throw (.validation "invalid canvas current texture")
    let texture := entry.texture
    if texture.width * 4 ≥ 2 ^ 32 then
      throw (.validation "canvas row overflow")
    let bytes := Texture.divCeil (texture.width * 4) 256 * 256 * texture.height
    if bytes = 0 ∨ bytes > allocationLimit then
      throw (.validation "WebGPU canvas readback limit reached in chuzz")
    native.checked
    let _ ← native.read
    return .null

/-! A WebGPU device of a page: its objects, its error scopes, and the commands that it runs one after
the other. -/

/-- `GPUErrorFilter`, and the kinds of errors. -/
inductive Filter where
  | validation | outOfMemory | internal
deriving DecidableEq, Repr

def GpuError.kind : GpuError → Filter
  | .validation _ => .validation
  | .outOfMemory _ => .outOfMemory
  | .internal _ => .internal

def Filter.parse : String → Option Filter
  | "validation" => some .validation
  | "out-of-memory" => some .outOfMemory
  | "internal" => some .internal
  | _ => none

structure ErrorScope where
  filter : Filter
  error : Option GpuError
deriving DecidableEq, Repr

/-- The first error of a scope is the one it keeps. -/
def ErrorScope.keep (self : ErrorScope) (error : GpuError) : ErrorScope :=
  { self with error := self.error <|> some error }

/-- Records an error in the innermost scope of its kind, which is the first one here. -/
def record (error : GpuError) : List ErrorScope → Option (List ErrorScope)
  | [] => none
  | scope :: outer =>
    if scope.filter = error.kind then some (scope.keep error :: outer)
    else (record error outer).map (scope :: ·)

/-- The scopes of a device, the innermost one first. `uncaptured` are the error events that it has
posted, the latest one first. -/
structure Connection where
  resources : Resources := {}
  lost : Bool := false
  scopes : List ErrorScope := []
  uncaptured : List GpuError := []

namespace Connection

def report (self : Connection) (error : GpuError) : Connection :=
  match record error self.scopes with
  | some scopes => { self with scopes }
  | none => { self with uncaptured := error :: self.uncaptured }

end Connection

abbrev DeviceTask := EStateM GpuError Connection

def onResources (task : Task α) : DeviceTask α := fun self =>
  match task self.resources with
  | .ok value resources => .ok value { self with resources }
  | .error error resources => .error error { self with resources }

inductive ResourceOp where
  | createBuffer (args : Args Buffer.Options)
  | writeBuffer (args : Args Buffer.Write)
  | mapRead (args : Args Buffer.Mapping)
  | unmap (args : Args (List Buffer.Write))
  | destroyBuffer
  | createTexture (args : Args Texture.Options)
  | createView (args : Args Texture.View)
  | writeTexture (args : Args Texture.Write)
  | copyExternalImageToTexture (args : Args Texture.Copy)
  | destroyTexture
  | createQuerySet (args : Args QueryOptions)
  | destroyQuerySet
  | createSampler (args : Args Texture.SamplerOptions)
  | configure (args : Args Canvas.Configuration)
  | unconfigure (args : Args Nat)
  | currentTexture (args : Args Canvas.Current)
  | present (args : Args Canvas.Present)
  | encoding (op : EncodingOp)
  | onSubmittedWorkDone
  | createShaderModule (args : Args Pipeline.ShaderOptions)
  | getCompilationInfo
  | pipeline (op : PipelineOp)
  | other (op : String)

def createShaderModule (native : Native) (handle : Nat) (args : Args Pipeline.ShaderOptions) :
    DeviceTask Value := do
  let error ← onResources (createShader native handle args)
  modify fun self => error.elim self self.report
  onResources (describeShader native handle)

def executeResource (native : Native) (handle : Nat) : ResourceOp → DeviceTask Value
  | .createBuffer args => onResources (createBuffer native handle args)
  | .writeBuffer args => onResources (writeBuffer native handle args)
  | .mapRead args => onResources (mapBuffer native handle args)
  | .unmap args => onResources (unmapBuffer native handle args)
  | .destroyBuffer => onResources (destroyBuffer handle)
  | .createTexture args => onResources (createTexture native handle args)
  | .createView args => onResources (createView native handle args)
  | .writeTexture args => onResources (writeTexture native args)
  | .copyExternalImageToTexture args => onResources (copyExternalImage native args)
  | .destroyTexture => onResources (destroyTexture handle)
  | .createQuerySet args => onResources (createQuerySet native handle args)
  | .destroyQuerySet => onResources (destroyQuerySet handle)
  | .createSampler args => onResources (createSampler native handle args)
  | .configure args => onResources (configureCanvas handle args)
  | .unconfigure args => onResources (unconfigureCanvas handle args)
  | .currentTexture args => onResources (currentTexture native handle args)
  | .present args => onResources (presentCanvas native handle args)
  | .encoding op => onResources (executeEncoding native handle op)
  | .onSubmittedWorkDone => onResources (submittedWorkDone native)
  | .createShaderModule args => createShaderModule native handle args
  | .getCompilationInfo => onResources (compilationInfo handle)
  | .pipeline op => onResources (executePipeline native handle op)
  | .other op => throw (.validation ("not implemented in chuzz: " ++ op))

/-- An argument that should be a string is `none` where it is not one. -/
inductive DeviceOp where
  | setLabel (label : Option String)
  | setCanvasId (name : Option String)
  | inspectionFlush
  | destroy
  | pushErrorScope (filter : Option String)
  | popErrorScope
  | resource (op : ResourceOp)

structure DeviceCommand where
  handle : Nat
  op : DeviceOp

def pushErrorScope (filter : Option String) : DeviceTask Value := fun self =>
  match filter.bind Filter.parse with
  | none => .error (.validation "invalid GPUErrorFilter") self
  | some filter =>
    if self.scopes.length ≥ 256 then
      .error (.validation "WebGPU error scope limit reached in chuzz") self
    else .ok .null { self with scopes := { filter, error := none } :: self.scopes }

def popErrorScope : DeviceTask Value := fun self =>
  match self.scopes with
  | [] => .error (.validation "GPUDevice has no error scope") self
  | scope :: scopes => .ok (scope.error.elim .null .error) { self with scopes }

/-- `DeviceConnection::execute`. Labels and names are the inspector's. -/
def execute (native : Native) (command : DeviceCommand) : DeviceTask Value :=
  match command.op with
  | .setLabel label =>
    if label.isSome then pure .null else throw (.validation "invalid GPUObjectBase.label")
  | .setCanvasId name =>
    if name.isSome then pure .null else throw (.validation "invalid canvas inspector id")
  | .inspectionFlush => pure .null
  | .destroy => do
    modify fun self => { self with resources := {}, lost := true }
    return .null
  | .pushErrorScope filter => pushErrorScope filter
  | .popErrorScope => popErrorScope
  | .resource op => fun self =>
    if self.lost then .error (.validation "GPUDevice is lost or destroyed") self
    else executeResource native command.handle op self

namespace Connection

/-- A device as `request_device` makes it. -/
def new : Connection := { resources := { emptyBinding := true } }

/-- Commands run one after the other. Between them, native code can report an error or the loss of the
device. -/
inductive Label where
  | run (native : Native) (command : DeviceCommand)
  | uncaptured (error : GpuError)
  | lose

def perform (self : Connection) : Label → Connection
  | .run native command => left (execute native command) self
  | .uncaptured error => self.report error
  | .lose => { self with lost := true }

def step (before : Connection) (label : Label) (after : Connection) : Prop :=
  before.perform label = after

abbrev Reached : Connection → Prop := Library.Transition.Reachable (· = new) step

end Connection
end Chuzz.Gpu
