import Chuzz.Gpu.Resources

/-! The commands on buffers, textures, views, samplers and query sets. Arguments that only `wgpu` reads
are left out. -/
namespace Chuzz.Gpu
open Std Library.Throwing

namespace Buffer

structure Options where
  label : String
  size : Nat
  usage : Nat
  mappedAtCreation : Bool

/-- `data` is a handle of the byte table. -/
structure Write where
  offset : Nat
  data : Nat

structure Mapping where
  offset : Nat
  size : Nat

structure Transfer where
  offset : Nat
  data : List UInt8

def range (offset size limit : Nat) : Except GpuError Range :=
  if offset + size < 2 ^ 64 ∧ offset + size ≤ limit then .ok ⟨offset, offset + size⟩
  else .error (.validation "GPUBuffer range is out of bounds")

/-- The ranges of an `unmap`, checked one after the other. -/
def checkWrites (mapped : Range) : (ranges : List Range) → (transferred : Nat) → List Transfer →
    Except GpuError Unit
  | _, _, [] => .ok ()
  | ranges, transferred, write :: rest => do
    let current ← range write.offset write.data.length mapped.stop
    if current.start < mapped.start ∨ current.start % 8 ≠ 0 ∨ write.data.length % 4 ≠ 0 ∨
        ranges.any (fun previous => current.start < previous.stop && previous.start < current.stop) then
      throw (.validation "invalid GPUBuffer mapped range")
    if transferred + write.data.length > allocationLimit then
      throw (.validation "WebGPU transfer limit reached in chuzz")
    checkWrites mapped (ranges ++ [current]) (transferred + write.data.length) rest

end Buffer

def createBuffer (native : Native) (handle : Nat) (args : Args Buffer.Options) : Task Value := do
  let entry ← reading fun self => do
    let options ← decode args
    if options.usage = 0 ∨ ¬ contains 1023 options.usage then
      throw (.validation "invalid GPUBufferUsage")
    let some usage := fromBits native.bufferUsages options.usage
      | throw (.validation "invalid GPUBufferUsage")
    if options.mappedAtCreation ∧ options.size % 4 ≠ 0 then
      throw (.validation "mappedAtCreation buffer size must be a multiple of 4")
    -- `MAP_READ`, `MAP_WRITE`, `COPY_SRC` and `COPY_DST` are the first four flags.
    if native.inspecting ∧ options.label ≠ "" ∧
        ((contains usage 1 ∧ ¬ contains 9 usage) ∨ (contains usage 2 ∧ ¬ contains 6 usage)) then
      throw (.validation "invalid mappable GPUBufferUsage combination")
    self.reserve handle options.size
    native.checked
    return ({
      size := options.size, usage
      mapped := if options.mappedAtCreation then some ⟨0, options.size⟩ else none
      writable := options.mappedAtCreation } : Buffer.Entry)
  modify fun self => { self with buffers := self.buffers.insert handle entry }
  return .null

def writeBuffer (native : Native) (handle : Nat) (args : Args Buffer.Write) : Task Value :=
  reading fun self => do
    let write ← decode args
    let data ← native.input write.data
    let some entry := self.buffers[handle]?
      | throw (.validation "invalid or destroyed GPUBuffer")
    if entry.mapped.isSome ∨ ¬ contains entry.usage 8 then
      throw (.validation "GPUQueue.writeBuffer requires an unmapped COPY_DST buffer")
    let _ ← Buffer.range write.offset data.length entry.size
    if write.offset % 4 ≠ 0 ∨ data.length % 4 ≠ 0 then
      throw (.validation "GPUQueue.writeBuffer offset and size must be multiples of 4")
    if data.length > allocationLimit then
      throw (.validation "WebGPU transfer limit reached in chuzz")
    native.checked
    return .null

/-- The change of an entry that is still there. -/
def Resources.adjust (self : Resources) (handle : Nat) (change : Buffer.Entry → Buffer.Entry) :
    Resources :=
  match self.buffers[handle]? with
  | some entry => { self with buffers := self.buffers.insert handle (change entry) }
  | none => self

def mapBuffer (native : Native) (handle : Nat) (args : Args Buffer.Mapping) : Task Value := do
  let (mapped, id) ← reading fun self => do
    let mapping ← decode args
    let some entry := self.buffers[handle]?
      | throw (.validation "invalid or destroyed GPUBuffer")
    if entry.mapped.isSome ∨ ¬ contains entry.usage 1 then
      throw (.validation "GPUBuffer.mapAsync READ requires an unmapped MAP_READ buffer")
    let mapped ← Buffer.range mapping.offset mapping.size entry.size
    if mapping.offset % 8 ≠ 0 ∨ mapping.size = 0 ∨ mapping.size % 4 ≠ 0 then
      throw (.validation
        "GPUBuffer.mapAsync requires an 8-byte offset and a nonempty 4-byte size")
    let _ ← native.read
    let id ← native.exported
    return (mapped, id)
  modify fun self => self.adjust handle fun entry => { entry with
    mapped := some mapped, writable := false }
  return .byteId id

def unmapBuffer (native : Native) (handle : Nat) (args : Args (List Buffer.Write)) : Task Value := do
  reading fun self => do
    let ranges ← decode args
    let writes ← ranges.mapM fun write => do
      return ({ offset := write.offset, data := ← native.input write.data } : Buffer.Transfer)
    let some entry := self.buffers[handle]?
      | throw (.validation "invalid or destroyed GPUBuffer")
    if entry.writable then
      let some mapped := entry.mapped
        | throw (.validation "GPUBuffer is not mapped")
      Buffer.checkWrites mapped [] 0 writes
    else if writes ≠ [] then
      throw (.validation "cannot write a READ mapping")
    native.checked
  modify fun self => self.adjust handle fun entry => { entry with
    mapped := none, writable := false }
  return .null

def destroyBuffer (handle : Nat) : Task Value := do
  modify fun self => { self with buffers := self.buffers.erase handle }
  return .null

namespace Texture

structure Options where
  width : Nat
  height : Nat
  layers : Nat
  mipLevelCount : Nat
  sampleCount : Nat
  dimension : String
  format : String
  usage : Nat
  viewFormats : List String

structure ViewOptions where
  format : Option String
  dimension : Option String
  aspect : String

structure View where
  texture : Nat
  descriptor : ViewOptions

structure Write where
  texture : Nat
  aspect : String
  data : Nat

structure SamplerOptions where
  addressModeU : String
  addressModeV : String
  addressModeW : String
  magFilter : String
  minFilter : String
  mipmapFilter : String
  compare : Option String

/-- The sub-image of a `copyExternalImageToTexture`. -/
structure Copy where
  sourceX : Nat
  sourceY : Nat
  flipY : Bool
  texture : Nat
  mipLevel : Nat
  originX : Nat
  originY : Nat
  originLayer : Nat
  aspect : String
  premultipliedAlpha : Bool
  colorSpace : String
  width : Nat
  height : Nat
  depth : Nat

def isInfix (text : String) (name : String) : Bool := text.toList <:+: name.toList

def format (native : Gpu.Native) (name : String) : Except GpuError Format :=
  if name ∈ ["r64uint", "nv12", "p010", "r16unorm", "r16snorm", "rg16unorm", "rg16snorm",
      "rgba16unorm", "rgba16snorm"] ∨
      (isInfix "astc" name ∧ ¬ name.endsWith "-unorm" ∧ ¬ name.endsWith "-unorm-srgb") then
    .error (.validation ("not implemented in chuzz: GPUTextureFormat." ++ name))
  else decode (native.textureFormat name)

/-- A name of an enumeration, or an error that names the enumeration. -/
def named (names : List String) (enumeration name : String) : Except GpuError Unit :=
  if name ∈ names then .ok () else .error (.validation ("invalid " ++ enumeration))

def dimension : String → Except GpuError Unit := named ["1d", "2d", "3d"] "GPUTextureDimension"

def viewDimension : String → Except GpuError Unit :=
  named ["1d", "2d", "2d-array", "cube", "cube-array", "3d"] "GPUTextureViewDimension"

def aspect : String → Except GpuError Unit :=
  named ["all", "depth-only", "stencil-only"] "GPUTextureAspect"

def address : String → Except GpuError Unit :=
  named ["clamp-to-edge", "repeat", "mirror-repeat"] "GPUAddressMode"

def filter : String → Except GpuError Unit := named ["nearest", "linear"] "GPUFilterMode"

def mipmapFilter : String → Except GpuError Unit :=
  named ["nearest", "linear"] "GPUMipmapFilterMode"

def compare : String → Except GpuError Unit :=
  named ["never", "less", "equal", "less-equal", "greater", "not-equal", "greater-equal", "always"]
    "GPUCompareFunction"

def divCeil (a b : Nat) : Nat := (a + (b - 1)) / b

/-- `u64` -/
def checkedMul (a b : Nat) : Option Nat := if a * b < 2 ^ 64 then some (a * b) else none

def levelBytes (options : Options) (format : Format) (level : Nat) : Option Nat := do
  let width := divCeil (max (options.width >>> level) 1) format.blockWidth
  let height := divCeil (max (options.height >>> level) 1) format.blockHeight
  let depth := if options.dimension = "3d" then max (options.layers >>> level) 1 else options.layers
  let bytes ← checkedMul width height
  let bytes ← checkedMul bytes depth
  let bytes ← checkedMul bytes format.blockBytes
  checkedMul bytes options.sampleCount

def allocation (options : Options) (format : Format) : Except GpuError Nat :=
  if options.width = 0 ∨ options.height = 0 ∨ options.layers = 0 ∨ options.mipLevelCount = 0 ∨
      options.mipLevelCount > 32 ∨ options.sampleCount ∉ [1, 4] then
    .error (.validation "invalid GPUTexture size, mips or samples")
  else
    (List.range options.mipLevelCount).foldlM (fun total level =>
      match levelBytes options format level with
      | some bytes =>
        if total + bytes < 2 ^ 64 then .ok (total + bytes)
        else .error (.validation "GPUTexture allocation overflow")
      | none => .error (.validation "GPUTexture allocation overflow")) 0

end Texture

def createTextureOptions (native : Native) (handle : Nat) (options : Texture.Options)
    (canvas : Option (Nat × Nat)) : Task Value := do
  let entry ← reading fun self => do
    let format ← Texture.format native options.format
    Texture.dimension options.dimension
    if options.usage = 0 ∨ ¬ contains 31 options.usage then
      throw (.validation "invalid GPUTextureUsage")
    let some usage := fromBits native.textureUsages options.usage
      | throw (.validation "invalid GPUTextureUsage")
    let _ ← options.viewFormats.mapM (Texture.format native)
    let bytes ← Texture.allocation options format
    self.reserve handle bytes
    native.checked
    let texture : Texture.Native := {
      width := options.width, height := options.height, layers := options.layers
      mipLevelCount := options.mipLevelCount, sampleCount := options.sampleCount
      dimension := options.dimension, format, usage }
    return ({ texture, bytes, canvas } : Texture.Entry)
  modify fun self => { self with textures := self.textures.insert handle entry }
  return .null

def createTexture (native : Native) (handle : Nat) (args : Args Texture.Options) : Task Value := do
  let options ← reading fun _ => decode args
  createTextureOptions native handle options none

def createView (native : Native) (handle : Nat) (args : Args Texture.View) : Task Value := do
  let view ← reading fun _ => decode args
  reading fun self => do
    self.reserve handle 0
    let some _ := self.textures[view.texture]?
      | throw (.validation "invalid or destroyed GPUTexture")
    if let some name := view.descriptor.format then
      let _ ← Texture.format native name
    if let some name := view.descriptor.dimension then
      Texture.viewDimension name
    Texture.aspect view.descriptor.aspect
    native.checked
  modify fun self => { self with views := self.views.insert handle view.texture }
  return .null

def writeTexture (native : Native) (args : Args Texture.Write) : Task Value :=
  reading fun self => do
    let write ← decode args
    let data ← native.input write.data
    if data.length > allocationLimit then
      throw (.validation "WebGPU transfer limit reached in chuzz")
    let some entry := self.textures[write.texture]?
      | throw (.validation "invalid or destroyed GPUTexture")
    if ¬ contains entry.texture.usage 2 ∨ entry.texture.sampleCount ≠ 1 then
      throw (.validation "GPUQueue.writeTexture requires a single-sample COPY_DST texture")
    Texture.aspect write.aspect
    native.checked
    return .null

def copyExternalImage (native : Native) (args : Args Texture.Copy) : Task Value :=
  reading fun self => do
    let copy ← decode args
    if copy.colorSpace ≠ "srgb" then
      throw (.validation
        ("not implemented in chuzz: GPUImageCopyTextureTagged.colorSpace." ++ copy.colorSpace))
    if copy.aspect ≠ "all" ∨ copy.depth ≠ 1 then
      throw (.validation "invalid external image aspect or depth")
    let image ← native.image
    if copy.sourceX > image.width ∨ copy.sourceY > image.height ∨
        copy.width > image.width - copy.sourceX ∨ copy.height > image.height - copy.sourceY then
      throw (.validation "external image source range is out of bounds")
    let some entry := self.textures[copy.texture]?
      | throw (.validation "invalid or destroyed GPUTexture")
    let texture := entry.texture
    if texture.format.name ∉ ["Rgba8Unorm", "Rgba8UnormSrgb", "Bgra8Unorm", "Bgra8UnormSrgb"] then
      throw (.validation ("not implemented in chuzz: GPUQueue.copyExternalImageToTexture.format." ++
        texture.format.name))
    -- `COPY_DST` and `RENDER_ATTACHMENT`
    if texture.dimension ≠ "2d" ∨ texture.sampleCount ≠ 1 ∨ ¬ contains texture.usage 18 ∨
        copy.mipLevel ≥ texture.mipLevelCount then
      throw (.validation "invalid external image destination")
    let targetWidth := max (texture.width >>> copy.mipLevel) 1
    let targetHeight := max (texture.height >>> copy.mipLevel) 1
    if copy.originX > targetWidth ∨ copy.originY > targetHeight ∨
        copy.width > targetWidth - copy.originX ∨ copy.height > targetHeight - copy.originY ∨
        copy.originLayer ≥ texture.layers then
      throw (.validation "external image destination range is out of bounds")
    if copy.width = 0 ∨ copy.height = 0 then
      return .null
    let bgra : Bool := texture.format.name ∈ ["Bgra8Unorm", "Bgra8UnormSrgb"]
    -- Only a conversion allocates another image.
    if (copy.flipY || copy.premultipliedAlpha || bgra) ∧
        copy.width * copy.height * 4 > allocationLimit then
      throw (.validation "invalid or oversized image in chuzz")
    native.checked
    return .null

def destroyTexture (handle : Nat) : Task Value := do
  modify fun self => self.removeTexture handle
  return .null

def createSampler (native : Native) (handle : Nat) (args : Args Texture.SamplerOptions) :
    Task Value := do
  reading fun self => do
    let options ← decode args
    self.reserve handle 0
    Texture.address options.addressModeU
    Texture.address options.addressModeV
    Texture.address options.addressModeW
    Texture.filter options.magFilter
    Texture.filter options.minFilter
    Texture.mipmapFilter options.mipmapFilter
    if let some name := options.compare then
      Texture.compare name
    native.checked
  modify fun self => { self with samplers := self.samplers.insert handle () }
  return .null

structure QueryOptions where
  kind : String
  count : Nat

def createQuerySet (native : Native) (handle : Nat) (args : Args QueryOptions) : Task Value := do
  let count ← reading fun self => do
    let options ← decode args
    if options.kind ≠ "occlusion" then
      throw (.validation ("not implemented in chuzz: GPUQuerySet.type." ++ options.kind))
    if options.count = 0 ∨ options.count > 4096 then
      throw (.validation "invalid GPUQuerySet count")
    self.reserve handle 0
    native.checked
    return options.count
  modify fun self => { self with queries := self.queries.insert handle count }
  return .null

def destroyQuerySet (handle : Nat) : Task Value := do
  modify fun self => { self with queries := self.queries.erase handle }
  return .null

end Chuzz.Gpu
