import Chuzz.Gpu.ByteTable
import Chuzz.Library.Throwing

/-! The objects of a WebGPU device. One table for each kind of object is keyed by the handles that the
page has chosen; the page is not trusted to choose well. Native objects are not of interest beyond
what the commands ask of them. -/
namespace Chuzz.Gpu
open Std Library.TreeMapValues Library.Throwing

def deviceBytesLimit : Nat := 512 * 1024 * 1024

def GpuError.message : GpuError → String
  | .internal message | .outOfMemory message | .validation message => message

/-- `from_bits` of a set of flags. -/
def fromBits (known bits : Nat) : Option Nat := if bits &&& known = bits then some bits else none

/-- `self.contains(flags)` -/
def contains (self flags : Nat) : Bool := self &&& flags = flags

namespace Buffer

structure Range where
  start : Nat
  stop : Nat
deriving DecidableEq, Repr

structure Entry where
  size : Nat
  usage : Nat
  mapped : Option Range
  writable : Bool
deriving DecidableEq, Repr

end Buffer

namespace Texture

/-- A format as `wgpu` knows it. -/
structure Format where
  name : String
  blockWidth : Nat
  blockHeight : Nat
  blockBytes : Nat
deriving DecidableEq, Repr

/-- What a native texture answers. -/
structure Native where
  width : Nat
  height : Nat
  layers : Nat
  mipLevelCount : Nat
  sampleCount : Nat
  dimension : String
  format : Format
  usage : Nat
deriving DecidableEq, Repr

structure Entry where
  texture : Native
  bytes : Nat
  canvas : Option (Nat × Nat)
deriving DecidableEq, Repr

end Texture

namespace Canvas

structure Configuration where
  generation : Nat
  format : String
  usage : Nat
  alphaMode : String
  viewFormats : List String
  width : Nat
  height : Nat
deriving DecidableEq, Repr

end Canvas

namespace Pipeline

structure Shader where
  source : String
  error : Option String
deriving DecidableEq, Repr

/-- `pipeline::Objects` -/
structure Objects where
  shaders : ExtTreeMap Nat Shader := ∅
  layouts : ExtTreeMap Nat Unit := ∅
  pipelineLayouts : ExtTreeMap Nat Unit := ∅
  groups : ExtTreeMap Nat Unit := ∅
  render : ExtTreeMap Nat Unit := ∅
  compute : ExtTreeMap Nat Unit := ∅

namespace Objects

def contains (self : Objects) (handle : Nat) : Bool :=
  self.shaders.contains handle || self.layouts.contains handle ||
    self.pipelineLayouts.contains handle || self.groups.contains handle ||
    self.render.contains handle || self.compute.contains handle

def count (self : Objects) : Nat :=
  self.shaders.size + self.layouts.size + self.pipelineLayouts.size + self.groups.size +
    self.render.size + self.compute.size

def remove (self : Objects) (handle : Nat) : Objects :=
  { self with
    layouts := self.layouts.erase handle
    pipelineLayouts := self.pipelineLayouts.erase handle
    groups := self.groups.erase handle
    render := self.render.erase handle
    compute := self.compute.erase handle }

end Objects
end Pipeline

namespace Encoder

structure BundleDescriptor where
  colorFormats : List (Option Texture.Format)
  depthStencil : Option Texture.Format
  sampleCount : Nat
deriving DecidableEq, Repr

structure Bundle where
  commandCount : Nat
deriving DecidableEq, Repr

/-- `encoder::Objects` without the inspections. -/
structure Objects where
  encoders : ExtTreeMap Nat Unit := ∅
  commands : ExtTreeMap Nat Unit := ∅
  bundleEncoders : ExtTreeMap Nat BundleDescriptor := ∅
  bundles : ExtTreeMap Nat Bundle := ∅

namespace Objects

def contains (self : Objects) (handle : Nat) : Bool :=
  self.encoders.contains handle || self.commands.contains handle ||
    self.bundleEncoders.contains handle || self.bundles.contains handle

def count (self : Objects) : Nat :=
  self.encoders.size + self.commands.size + self.bundleEncoders.size + self.bundles.size

end Objects
end Encoder

/-- A view is kept with the handle of its texture, a query set with its count. -/
structure Resources where
  buffers : ExtTreeMap Nat Buffer.Entry := ∅
  textures : ExtTreeMap Nat Texture.Entry := ∅
  views : ExtTreeMap Nat Nat := ∅
  samplers : ExtTreeMap Nat Unit := ∅
  queries : ExtTreeMap Nat Nat := ∅
  canvases : ExtTreeMap Nat Canvas.Configuration := ∅
  pipelines : Pipeline.Objects := {}
  encoding : Encoder.Objects := {}
  /-- The stand-in for an empty vertex or index binding. -/
  emptyBinding : Bool := false

namespace Resources

def live (self : Resources) (handle : Nat) : Bool :=
  self.buffers.contains handle || self.textures.contains handle || self.views.contains handle ||
    self.samplers.contains handle || self.queries.contains handle ||
    self.pipelines.contains handle || self.encoding.contains handle

def count (self : Resources) : Nat :=
  self.buffers.size + self.textures.size + self.views.size + self.samplers.size +
    self.queries.size + self.pipelines.count + self.encoding.count

/-- The bytes of the buffers and the textures. -/
def allocated (self : Resources) : Nat :=
  total Buffer.Entry.size self.buffers + total Texture.Entry.bytes self.textures

def reserve (self : Resources) (handle bytes : Nat) : Except GpuError Unit := do
  if handle = 0 ∨ self.live handle then
    throw (.validation "invalid or reused WebGPU handle")
  if self.count ≥ resourceLimit then
    throw (.validation "WebGPU resource limit reached in chuzz")
  if bytes > allocationLimit ∨ self.allocated + bytes > deviceBytesLimit then
    throw (.outOfMemory "WebGPU allocation limit reached in chuzz")

def removeTexture (self : Resources) (handle : Nat) : Resources :=
  { self with
    views := self.views.filter fun _ texture => texture ≠ handle
    textures := self.textures.erase handle }

/-- The textures that are tagged with a canvas. -/
def texturesOf (self : Resources) (canvas : Nat) : List Nat :=
  (self.textures.toList.filter fun (_, entry) => entry.canvas.any (·.1 = canvas)).map (·.1)

def releaseCanvas (self : Resources) (canvas : Nat) : Resources :=
  let released := (self.texturesOf canvas).foldl removeTexture self
  { released with canvases := released.canvases.erase canvas }

end Resources

/-! What a command meets outside the tables. -/

structure Image where
  width : Nat
  height : Nat
deriving DecidableEq, Repr

/-- The answers of `wgpu`, of the byte table and of the inspector during one command. `raised` is what
the error filters around its native operation catch. -/
structure Native where
  inspecting : Bool
  raised : Option GpuError
  /-- `map_read` -/
  read : Except GpuError (List UInt8)
  input : Nat → Except GpuError (List UInt8)
  /-- `export_bytes` -/
  exported : Except GpuError Nat
  image : Except GpuError Image
  /-- The loop of `submitted_work_done` -/
  submitted : Except GpuError Unit
  /-- Whether the inspector takes the messages of a shader compiler. -/
  described : Except GpuError Unit
  textureFormat : String → Except String Texture.Format
  bufferUsages : Nat
  textureUsages : Nat
  shaderStages : Nat
  colorWrites : Nat
  maxBindGroups : Nat
  maxColorAttachments : Nat

inductive Value where
  | null
  | byteId (id : Nat)
  | error (error : GpuError)
  | messages (error : Option String)
deriving DecidableEq, Repr

/-- The arguments of a command, or why they could not be decoded. -/
abbrev Args (α : Type) := Except String α

def decode (args : Args α) : Except GpuError α :=
  args.mapError fun error => .validation ("invalid WebGPU descriptor: " ++ error)

def Native.checked (self : Native) : Except GpuError Unit :=
  match self.raised with
  | none => .ok ()
  | some error => .error error

/-- A command at work. What it has done to the tables stays when it fails. -/
abbrev Task := EStateM GpuError Resources

def get (objects : ExtTreeMap Nat V) (handle : Nat) (member : String) : Except GpuError V :=
  match objects[handle]? with
  | some found => .ok found
  | none => .error (.validation ("invalid or destroyed " ++ member))

end Chuzz.Gpu
