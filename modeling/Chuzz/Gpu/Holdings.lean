import Chuzz.Gpu.Device
import Chuzz.Library.Fallible

/-! What the tables of a device hold, over all kinds of objects: how one object more or less changes
them, and the invariant that every such change keeps. -/
namespace Chuzz.Gpu
open Std Library.TreeMapValues Library.Fallible Library.Throwing Option ExtTreeMap

inductive Kind where
  | buffer | texture | view | sampler | query | shader | layout | pipelineLayout | group | render
  | compute | encoder | command | bundleEncoder | bundle
deriving DecidableEq, Repr

/-- The tables of `encoder::Objects`. -/
def Kind.isEncoding : Kind → Bool
  | .encoder | .command | .bundleEncoder | .bundle => true
  | _ => false

/-- An object of any kind, with what its table keeps for it. -/
inductive Object where
  | plain
  | buffer (entry : Buffer.Entry)
  | texture (entry : Texture.Entry)
  | view (texture : Nat)
  | query (count : Nat)
  | shader (shader : Pipeline.Shader)
  | bundleEncoder (descriptor : Encoder.BundleDescriptor)
  | bundle (bundle : Encoder.Bundle)
deriving DecidableEq, Repr

namespace Resources

/-- The object of a kind that a handle names. -/
def object (self : Resources) : Kind → Nat → Option Object
  | .buffer, handle => (self.buffers[handle]?).map .buffer
  | .texture, handle => (self.textures[handle]?).map .texture
  | .view, handle => (self.views[handle]?).map .view
  | .sampler, handle => (self.samplers[handle]?).map fun _ => .plain
  | .query, handle => (self.queries[handle]?).map .query
  | .shader, handle => (self.pipelines.shaders[handle]?).map .shader
  | .layout, handle => (self.pipelines.layouts[handle]?).map fun _ => .plain
  | .pipelineLayout, handle => (self.pipelines.pipelineLayouts[handle]?).map fun _ => .plain
  | .group, handle => (self.pipelines.groups[handle]?).map fun _ => .plain
  | .render, handle => (self.pipelines.render[handle]?).map fun _ => .plain
  | .compute, handle => (self.pipelines.compute[handle]?).map fun _ => .plain
  | .encoder, handle => (self.encoding.encoders[handle]?).map fun _ => .plain
  | .command, handle => (self.encoding.commands[handle]?).map fun _ => .plain
  | .bundleEncoder, handle => (self.encoding.bundleEncoders[handle]?).map .bundleEncoder
  | .bundle, handle => (self.encoding.bundles[handle]?).map .bundle

def holds (self : Resources) (kind : Kind) (handle : Nat) : Bool := (self.object kind handle).isSome

/-- A handle names at most one object over all kinds, the limits are kept, views have their textures,
and tagged textures their canvases. -/
structure Sound (state : Resources) : Prop where
  alone : ∀ kind kind' handle, state.holds kind handle = true → state.holds kind' handle = true →
    kind = kind'
  few : state.count ≤ resourceLimit
  bytes : state.allocated ≤ deviceBytesLimit
  viewed : ∀ (view texture : Nat), state.views[view]? = some texture → texture ∈ state.textures
  tagged : ∀ (handle : Nat) entry canvas generation, state.textures[handle]? = some entry →
    entry.canvas = some (canvas, generation) → ∃ configuration,
      state.canvases[canvas]? = some configuration ∧ configuration.generation = generation

/-- A handle that names nothing, and room for one more object of this size. -/
def Room (state : Resources) (handle bytes : Nat) : Prop :=
  (∀ kind, state.object kind handle = none) ∧ state.count < resourceLimit ∧
    state.allocated + bytes ≤ deviceBytesLimit

/-- One object more. -/
structure Adds (state after : Resources) (kind : Kind) (handle bytes : Nat) : Prop where
  rest : ∀ kind' handle', kind' ≠ kind ∨ handle ≠ handle' →
    after.object kind' handle' = state.object kind' handle'
  count : after.count = state.count + 1
  allocated : after.allocated = state.allocated + bytes
  canvases : after.canvases = state.canvases

/-- Some objects less. -/
structure Loses (state after : Resources) : Prop where
  rest : ∀ kind handle object, after.object kind handle = some object →
    state.object kind handle = some object
  count : after.count ≤ state.count
  allocated : after.allocated ≤ state.allocated

/-- The objects are still there, apart from some that may go. -/
def Spared (may : Kind → Nat → Prop) (self after : Resources) : Prop :=
  ∀ kind handle object, self.object kind handle = some object → ¬ may kind handle →
    after.object kind handle = some object

section
variable {self after next : Resources} {kind : Kind} {handle bytes : Nat}

theorem live_eq : self.live handle = (self.holds .buffer handle || self.holds .texture handle ||
    self.holds .view handle || self.holds .sampler handle || self.holds .query handle ||
    (self.holds .shader handle || self.holds .layout handle || self.holds .pipelineLayout handle ||
      self.holds .group handle || self.holds .render handle || self.holds .compute handle) ||
    (self.holds .encoder handle || self.holds .command handle || self.holds .bundleEncoder handle ||
      self.holds .bundle handle)) := by
  simp only [live, Pipeline.Objects.contains, Encoder.Objects.contains, holds, object,
    isSome_map, isSome_getElem?_eq_contains]

theorem object_none (dead : self.live handle = false) (kind : Kind) :
    self.object kind handle = none := by
  simp only [live_eq, Bool.or_eq_false_iff] at dead
  cases kind <;> simp_all [holds]

theorem reserve_ok (reserved : self.reserve handle bytes = .ok ()) : Room self handle bytes := by
  obtain ⟨fresh, reserved⟩ := guard_ok reserved
  obtain ⟨few, reserved⟩ := guard_ok reserved
  have room : ¬ (bytes > allocationLimit ∨ self.allocated + bytes > deviceBytesLimit) := by
    intro large
    rw [if_pos large] at reserved
    contradiction
  exact ⟨object_none (by simpa using (not_or.mp fresh).2), Nat.lt_of_not_le few,
    Nat.le_of_not_lt (not_or.mp room).2⟩

theorem texture_object {entry : Texture.Entry} : self.object .texture handle = some (.texture entry) ↔
    self.textures[handle]? = some entry := by simp [object]

theorem view_object {texture : Nat} : self.object .view handle = some (.view texture) ↔
    self.views[handle]? = some texture := by simp [object]

theorem no_texture (fresh : ∀ kind, self.object kind handle = none) :
    self.textures[handle]? = none := by simpa [object] using fresh .texture

theorem no_view (fresh : ∀ kind, self.object kind handle = none) :
    self.views[handle]? = none := by simpa [object] using fresh .view

section
variable (sound : self.Sound) (free : Room self handle bytes)
  (adds : Adds self after kind handle bytes)
include sound free adds

/-- An object under a reserved handle. What is new about it has to be sound by itself. -/
theorem Sound.add (viewed : ∀ texture, after.views[handle]? = some texture → texture ∈ self.textures)
    (tagged : ∀ entry canvas generation, after.textures[handle]? = some entry →
      entry.canvas = some (canvas, generation) → ∃ configuration,
        self.canvases[canvas]? = some configuration ∧ configuration.generation = generation) :
    after.Sound := by
  obtain ⟨fresh, few, room⟩ := free
  have same (kind' : Kind) (handle' : Nat) (other : handle' ≠ handle) :
      after.object kind' handle' = self.object kind' handle' := adds.rest kind' handle' (.inr (Ne.symm other))
  have only (kind' : Kind) (held : after.holds kind' handle = true) : kind' = kind := by
    by_contra other
    rw [holds, adds.rest kind' handle (.inl other), fresh] at held
    contradiction
  refine ⟨fun kind' kind'' handle' one two => ?_, ?_, ?_, fun view texture found => ?_,
    fun handle' entry canvas generation found tag => ?_⟩
  · by_cases here : handle' = handle
    · subst here
      exact (only _ one).trans (only _ two).symm
    · unfold holds at one two
      rw [same _ _ here] at one two
      exact sound.alone _ _ handle' one two
  · rw [adds.count]
    exact few
  · rw [adds.allocated]
    exact room
  · have known : texture ∈ self.textures := by
      by_cases here : view = handle
      · subst here
        exact viewed texture found
      · rw [← view_object, same _ _ here, view_object] at found
        exact sound.viewed view texture found
    have other : texture ≠ handle := by
      rintro rfl
      have held := isSome_iff_exists.mp (mem_iff_isSome_getElem?.mp known)
      obtain ⟨entry, found⟩ := held
      have none := fresh .texture
      rw [texture_object.mpr found] at none
      contradiction
    obtain ⟨entry, found⟩ := isSome_iff_exists.mp (mem_iff_isSome_getElem?.mp known)
    rw [← texture_object, ← same _ _ other, texture_object] at found
    rw [mem_iff_isSome_getElem?, found]
    rfl
  · rw [adds.canvases]
    by_cases here : handle' = handle
    · subst here
      exact tagged entry canvas generation found tag
    · rw [← texture_object, same _ _ here, texture_object] at found
      exact sound.tagged handle' entry canvas generation found tag

theorem Sound.add_other (notView : kind ≠ .view) (notTexture : kind ≠ .texture) : after.Sound := by
  obtain ⟨fresh, _⟩ := free
  refine sound.add ⟨fresh, ‹_›⟩ adds (fun texture found => ?_) fun entry canvas generation found => ?_
  · rw [← view_object, adds.rest .view handle (.inl (Ne.symm notView)), fresh] at found
    contradiction
  · rw [← texture_object, adds.rest .texture handle (.inl (Ne.symm notTexture)), fresh] at found
    contradiction

end

theorem Sound.lose (sound : self.Sound) (loses : Loses self after)
    (viewed : ∀ (view texture : Nat), after.views[view]? = some texture →
      texture ∈ self.textures → texture ∈ after.textures)
    (tagged : ∀ (handle : Nat) entry canvas generation, after.textures[handle]? = some entry →
      entry.canvas = some (canvas, generation) → after.canvases[canvas]? = self.canvases[canvas]?) :
    after.Sound := by
  have held (kind : Kind) (handle : Nat) (here : after.holds kind handle = true) :
      self.holds kind handle = true := by
    obtain ⟨object, found⟩ := isSome_iff_exists.mp here
    rw [holds, loses.rest kind handle object found]
    rfl
  refine ⟨fun kind kind' handle one two => sound.alone kind kind' handle (held _ _ one) (held _ _ two),
    loses.count.trans sound.few, loses.allocated.trans sound.bytes, fun view texture found => ?_,
    fun handle entry canvas generation found tag => ?_⟩
  · have before := view_object.mp (loses.rest .view view _ (view_object.mpr found))
    exact viewed view texture found (sound.viewed view texture before)
  · have before := texture_object.mp (loses.rest .texture handle _ (texture_object.mpr found))
    rw [tagged handle entry canvas generation found tag]
    exact sound.tagged handle entry canvas generation before tag

theorem Sound.adjusted (sound : self.Sound) {change : Buffer.Entry → Buffer.Entry}
    (same : ∀ entry, (change entry).size = entry.size) : (self.adjust handle change).Sound := by
  unfold adjust
  split
  · next entry found =>
    have held (kind : Kind) (handle' : Nat) : ({ self with
        buffers := self.buffers.insert handle (change entry) } : Resources).holds kind handle' =
        self.holds kind handle' := by
      cases kind with
      | buffer =>
        simp only [holds, object, getElem?_insert, isSome_map]
        split
        · next here =>
          cases Std.compare_eq_iff_eq.mp here
          rw [found]
          rfl
        · rfl
      | _ => rfl
    refine ⟨fun kind kind' handle' one two => ?_, ?_, ?_, sound.viewed, sound.tagged⟩
    · rw [held] at one two
      exact sound.alone kind kind' handle' one two
    · have size : (self.buffers.insert handle (change entry)).size = self.buffers.size := by
        rw [size_insert, contains_eq_isSome_getElem?, found]
        rfl
      simpa only [count, size] using sound.few
    · have bytes : total Buffer.Entry.size (self.buffers.insert handle (change entry)) =
          total Buffer.Entry.size self.buffers := by
        rw [total_insert, total_erase _ found, same]
      simpa only [allocated, bytes] using sound.bytes
  · exact sound

theorem Loses.trans (first : Loses self after) (second : Loses after next) : Loses self next where
  rest kind handle object found := first.rest kind handle object (second.rest kind handle object found)
  count := second.count.trans first.count
  allocated := second.allocated.trans first.allocated

theorem Room.lose (free : Room self handle bytes) (loses : Loses self after) :
    Room after handle bytes := by
  obtain ⟨fresh, few, room⟩ := free
  refine ⟨fun kind => ?_, loses.count.trans_lt few, (Nat.add_le_add_right loses.allocated _).trans room⟩
  cases found : after.object kind handle with
  | none => rfl
  | some object => exact absurd ((fresh kind).symm.trans (loses.rest kind handle object found)) nofun

variable {may : Kind → Nat → Prop}

theorem Spared.refl : Spared may self self := fun _ _ _ found _ => found

theorem Spared.trans (first : Spared may self after)
    (second : Spared may after next) : Spared may self next :=
  fun kind handle object found kept =>
    second kind handle object (first kind handle object found kept) kept

end

theorem size_insert {V : Type} {m : ExtTreeMap Nat V} {k : Nat} {named : V → Object}
    (absent : (m[k]?).map named = none) (v : V) : (m.insert k v).size = m.size + 1 := by
  rw [ExtTreeMap.size_insert, ExtTreeMap.contains_eq_isSome_getElem?,
    Option.map_eq_none_iff.mp absent]
  rfl

/-! One object more in each of the tables. -/

section
variable {self : Resources} {handle : Nat} (fresh : ∀ kind, self.object kind handle = none)
include fresh

theorem adds_buffer (entry : Buffer.Entry) : Adds self { self with buffers := self.buffers.insert handle entry } .buffer handle entry.size where
  rest kind' handle' other := by
    cases kind' <;> simp_all [object, getElem?_insert]
  count := by
    simp only [count, size_insert (fresh .buffer)]
    omega
  allocated := by
    have absent := map_eq_none_iff.mp (fresh .buffer)
    simp only [allocated, total_insert, erase_of_absent absent]
    omega
  canvases := rfl

theorem adds_texture (entry : Texture.Entry) : Adds self { self with textures := self.textures.insert handle entry } .texture handle entry.bytes where
  rest kind' handle' other := by
    cases kind' <;> simp_all [object, getElem?_insert]
  count := by
    simp only [count, size_insert (fresh .texture)]
    omega
  allocated := by
    have absent := map_eq_none_iff.mp (fresh .texture)
    simp only [allocated, total_insert, erase_of_absent absent]
    omega
  canvases := rfl

theorem adds_view (texture : Nat) : Adds self { self with views := self.views.insert handle texture } .view handle 0 where
  rest kind' handle' other := by
    cases kind' <;> simp_all [object, getElem?_insert]
  count := by
    simp only [count, size_insert (fresh .view)]
    omega
  allocated := rfl
  canvases := rfl

theorem adds_sampler : Adds self { self with samplers := self.samplers.insert handle () } .sampler handle 0 where
  rest kind' handle' other := by
    cases kind' <;> simp_all [object, getElem?_insert]
  count := by
    simp only [count, size_insert (fresh .sampler)]
    omega
  allocated := rfl
  canvases := rfl

theorem adds_query (count : Nat) : Adds self { self with queries := self.queries.insert handle count } .query handle 0 where
  rest kind' handle' other := by
    cases kind' <;> simp_all [object, getElem?_insert]
  count := by
    simp only [Resources.count, size_insert (fresh .query)]
    omega
  allocated := rfl
  canvases := rfl

theorem adds_shader (shader : Pipeline.Shader) : Adds self { self with pipelines := { self.pipelines with
      shaders := self.pipelines.shaders.insert handle shader } } .shader handle 0 where
  rest kind' handle' other := by
    cases kind' <;> simp_all [object, getElem?_insert]
  count := by
    simp only [count, Pipeline.Objects.count, size_insert (fresh .shader)]
    omega
  allocated := rfl
  canvases := rfl

theorem adds_layout : Adds self { self with pipelines := { self.pipelines with
      layouts := self.pipelines.layouts.insert handle () } } .layout handle 0 where
  rest kind' handle' other := by
    cases kind' <;> simp_all [object, getElem?_insert]
  count := by
    simp only [count, Pipeline.Objects.count, size_insert (fresh .layout)]
    omega
  allocated := rfl
  canvases := rfl

theorem adds_pipelineLayout : Adds self { self with pipelines := { self.pipelines with
      pipelineLayouts := self.pipelines.pipelineLayouts.insert handle () } } .pipelineLayout handle 0 where
  rest kind' handle' other := by
    cases kind' <;> simp_all [object, getElem?_insert]
  count := by
    simp only [count, Pipeline.Objects.count, size_insert (fresh .pipelineLayout)]
    omega
  allocated := rfl
  canvases := rfl

theorem adds_group : Adds self { self with pipelines := { self.pipelines with
      groups := self.pipelines.groups.insert handle () } } .group handle 0 where
  rest kind' handle' other := by
    cases kind' <;> simp_all [object, getElem?_insert]
  count := by
    simp only [count, Pipeline.Objects.count, size_insert (fresh .group)]
    omega
  allocated := rfl
  canvases := rfl

theorem adds_render : Adds self { self with pipelines := { self.pipelines with
      render := self.pipelines.render.insert handle () } } .render handle 0 where
  rest kind' handle' other := by
    cases kind' <;> simp_all [object, getElem?_insert]
  count := by
    simp only [count, Pipeline.Objects.count, size_insert (fresh .render)]
    omega
  allocated := rfl
  canvases := rfl

theorem adds_compute : Adds self { self with pipelines := { self.pipelines with
      compute := self.pipelines.compute.insert handle () } } .compute handle 0 where
  rest kind' handle' other := by
    cases kind' <;> simp_all [object, getElem?_insert]
  count := by
    simp only [count, Pipeline.Objects.count, size_insert (fresh .compute)]
    omega
  allocated := rfl
  canvases := rfl

theorem adds_encoder : Adds self { self with encoding := { self.encoding with
      encoders := self.encoding.encoders.insert handle () } } .encoder handle 0 where
  rest kind' handle' other := by
    cases kind' <;> simp_all [object, getElem?_insert]
  count := by
    simp only [count, Encoder.Objects.count, size_insert (fresh .encoder)]
    omega
  allocated := rfl
  canvases := rfl

theorem adds_command : Adds self { self with encoding := { self.encoding with
      commands := self.encoding.commands.insert handle () } } .command handle 0 where
  rest kind' handle' other := by
    cases kind' <;> simp_all [object, getElem?_insert]
  count := by
    simp only [count, Encoder.Objects.count, size_insert (fresh .command)]
    omega
  allocated := rfl
  canvases := rfl

theorem adds_bundleEncoder (descriptor : Encoder.BundleDescriptor) : Adds self { self with encoding := { self.encoding with
      bundleEncoders := self.encoding.bundleEncoders.insert handle descriptor } } .bundleEncoder handle 0 where
  rest kind' handle' other := by
    cases kind' <;> simp_all [object, getElem?_insert]
  count := by
    simp only [count, Encoder.Objects.count, size_insert (fresh .bundleEncoder)]
    omega
  allocated := rfl
  canvases := rfl

theorem adds_bundle (bundle : Encoder.Bundle) : Adds self { self with encoding := { self.encoding with
      bundles := self.encoding.bundles.insert handle bundle } } .bundle handle 0 where
  rest kind' handle' other := by
    cases kind' <;> simp_all [object, getElem?_insert]
  count := by
    simp only [count, Encoder.Objects.count, size_insert (fresh .bundle)]
    omega
  allocated := rfl
  canvases := rfl

end

/-! Some objects less in each of the tables. -/

section
variable {self : Resources} {handle : Nat}

theorem erased {V : Type} {m : ExtTreeMap Nat V} {k : Nat} {named : V → Object} {object : Object}
    (found : ((m.erase k)[handle]?).map named = some object) :
    (m[handle]?).map named = some object := by
  rw [getElem?_erase] at found
  split at found
  · contradiction
  · exact found

theorem filtered {V : Type} {m : ExtTreeMap Nat V} {keep : Nat → V → Bool} {named : V → Object}
    {object : Object} (found : ((m.filter keep)[handle]?).map named = some object) :
    (m[handle]?).map named = some object := by
  rw [getElem?_filter'] at found
  obtain ⟨value, kept, rfl⟩ := map_eq_some_iff.mp found
  rw [(filter_eq_some_iff.mp kept).1]
  rfl

theorem loses_buffer : Loses self { self with buffers := self.buffers.erase handle } where
  rest kind handle' object found := by
    cases kind <;> first | exact found | exact erased found
  count := by
    have fewer := size_erase_le (t := self.buffers) (k := handle)
    simp only [count]
    omega
  allocated := Nat.add_le_add_right (total_erase_le _ _ _) _

theorem loses_query : Loses self { self with queries := self.queries.erase handle } where
  rest kind handle' object found := by
    cases kind <;> first | exact found | exact erased found
  count := by
    have fewer := size_erase_le (t := self.queries) (k := handle)
    simp only [Resources.count]
    omega
  allocated := Nat.le_refl _

theorem loses_pipelines : Loses self { self with pipelines := self.pipelines.remove handle } where
  rest kind handle' object found := by
    cases kind <;> first | exact found | exact erased found
  count := by
    have one := size_erase_le (t := self.pipelines.layouts) (k := handle)
    have two := size_erase_le (t := self.pipelines.pipelineLayouts) (k := handle)
    have three := size_erase_le (t := self.pipelines.groups) (k := handle)
    have four := size_erase_le (t := self.pipelines.render) (k := handle)
    have five := size_erase_le (t := self.pipelines.compute) (k := handle)
    simp only [count, Pipeline.Objects.count, Pipeline.Objects.remove]
    omega
  allocated := Nat.le_refl _

theorem loses_encoder : Loses self { self with encoding := { self.encoding with
    encoders := self.encoding.encoders.erase handle } } where
  rest kind handle' object found := by
    cases kind <;> first | exact found | exact erased found
  count := by
    have fewer := size_erase_le (t := self.encoding.encoders) (k := handle)
    simp only [count, Encoder.Objects.count]
    omega
  allocated := Nat.le_refl _

theorem loses_command : Loses self { self with encoding := { self.encoding with
    commands := self.encoding.commands.erase handle } } where
  rest kind handle' object found := by
    cases kind <;> first | exact found | exact erased found
  count := by
    have fewer := size_erase_le (t := self.encoding.commands) (k := handle)
    simp only [count, Encoder.Objects.count]
    omega
  allocated := Nat.le_refl _

theorem loses_bundleEncoder : Loses self { self with encoding := { self.encoding with
    bundleEncoders := self.encoding.bundleEncoders.erase handle } } where
  rest kind handle' object found := by
    cases kind <;> first | exact found | exact erased found
  count := by
    have fewer := size_erase_le (t := self.encoding.bundleEncoders) (k := handle)
    simp only [count, Encoder.Objects.count]
    omega
  allocated := Nat.le_refl _

theorem loses_bundle : Loses self { self with encoding := { self.encoding with
    bundles := self.encoding.bundles.erase handle } } where
  rest kind handle' object found := by
    cases kind <;> first | exact found | exact erased found
  count := by
    have fewer := size_erase_le (t := self.encoding.bundles) (k := handle)
    simp only [count, Encoder.Objects.count]
    omega
  allocated := Nat.le_refl _

theorem loses_encoding :
    Loses self { self with encoding := self.encoding.forget handle } :=
  ((loses_encoder.trans loses_command).trans loses_bundleEncoder).trans loses_bundle

theorem loses_texture : Loses self (self.removeTexture handle) where
  rest kind handle' object found := by
    cases kind <;> first | exact found | exact erased found | exact filtered found
  count := by
    have one := size_erase_le (t := self.textures) (k := handle)
    have two := size_filter_le_size (t := self.views) (f := fun _ texture => texture ≠ handle)
    simp only [count, removeTexture]
    omega
  allocated := Nat.add_le_add_left (total_erase_le _ _ _) _

variable {after : Resources}

theorem Sound.lose_other (sound : self.Sound) (loses : Loses self after)
    (textures : after.textures = self.textures) (canvases : after.canvases = self.canvases) :
    after.Sound :=
  sound.lose loses (fun _ _ _ known => textures ▸ known) fun _ _ _ _ _ _ => by rw [canvases]

theorem Sound.removeTexture (sound : self.Sound) : (self.removeTexture handle).Sound := by
  refine sound.lose loses_texture (fun view texture found known => ?_) fun _ _ _ _ _ _ => rfl
  simp only [Resources.removeTexture, getElem?_filter', filter_eq_some_iff,
    decide_eq_true_eq] at found
  exact mem_erase.mpr ⟨by simpa [Nat.compare_eq_eq] using Ne.symm found.2, known⟩

/-- No texture belongs to the canvas. -/
def Untagged (self : Resources) (canvas : Nat) : Prop :=
  ∀ (handle : Nat) entry generation, self.textures[handle]? = some entry →
    entry.canvas ≠ some (canvas, generation)

theorem removeTextures (handles : List Nat) (sound : self.Sound) :
    (handles.foldl Resources.removeTexture self).Sound ∧
      (handles.foldl Resources.removeTexture self).canvases = self.canvases ∧
      ∀ (handle : Nat) entry, (handles.foldl Resources.removeTexture self).textures[handle]? = some entry →
        self.textures[handle]? = some entry ∧ handle ∉ handles := by
  induction handles generalizing self with
  | nil => exact ⟨sound, rfl, fun _ _ found => ⟨found, nofun⟩⟩
  | cons first rest ih =>
    obtain ⟨sound', canvases, left⟩ := ih (@Sound.removeTexture self first sound)
    refine ⟨sound', canvases, fun handle entry found => ?_⟩
    obtain ⟨found, other⟩ := left handle entry found
    simp only [Resources.removeTexture, getElem?_erase] at found
    split at found
    · contradiction
    · next apart =>
      refine ⟨found, fun member => ?_⟩
      rcases List.mem_cons.mp member with rfl | later
      · exact apart (Std.compare_eq_iff_eq.mpr rfl)
      · exact other later

theorem mem_texturesOf {canvas generation : Nat} {entry : Texture.Entry}
    (found : self.textures[handle]? = some entry) (tag : entry.canvas = some (canvas, generation)) :
    handle ∈ self.texturesOf canvas := by
  refine List.mem_map.mpr ⟨(handle, entry), List.mem_filter.mpr ⟨?_, by simp [tag]⟩, rfl⟩
  exact mem_toList_iff_getElem?_eq_some.mpr found

/-- A canvas that no texture belongs to may be configured or forgotten. -/
theorem Sound.recanvas (sound : self.Sound) {canvas : Nat} (untagged : self.Untagged canvas)
    (canvases : ExtTreeMap Nat Canvas.Configuration)
    (others : ∀ other, other ≠ canvas → canvases[other]? = self.canvases[other]?) :
    ({ self with canvases } : Resources).Sound := by
  refine sound.lose ⟨fun kind _ _ found => by cases kind <;> exact found, Nat.le_refl _,
    Nat.le_refl _⟩ (fun _ _ _ known => known) fun handle entry canvas' generation found tag => ?_
  refine others canvas' ?_
  rintro rfl
  exact untagged handle entry generation found tag

theorem releaseCanvas_sound (sound : self.Sound) (canvas : Nat) :
    (self.releaseCanvas canvas).Sound ∧ (self.releaseCanvas canvas).Untagged canvas := by
  obtain ⟨sound', _, left⟩ := removeTextures (self.texturesOf canvas) sound
  have untagged : ((self.texturesOf canvas).foldl Resources.removeTexture self).Untagged canvas := by
    intro handle entry generation found tag
    obtain ⟨found, absent⟩ := left handle entry found
    exact absent (mem_texturesOf found tag)
  refine ⟨sound'.recanvas untagged _ fun other apart => ?_, untagged⟩
  rw [getElem?_erase, if_neg]
  simpa [Nat.compare_eq_eq] using Ne.symm apart

/-- The texture of a handle, and its views. -/
def ofTexture (self : Resources) (handle : Nat) (kind : Kind) (handle' : Nat) : Prop :=
  (kind = .texture ∧ handle' = handle) ∨ (kind = .view ∧ self.views[handle']? = some handle)

theorem spared_removeTexture : Spared (self.ofTexture handle) self (self.removeTexture handle) := by
  intro kind handle' object found kept
  cases kind with
  | texture =>
    have other : handle ≠ handle' := fun same => kept (.inl ⟨rfl, same.symm⟩)
    simpa [Resources.object, Resources.removeTexture, getElem?_erase, other] using found
  | view =>
    obtain ⟨texture, view, rfl⟩ := map_eq_some_iff.mp found
    have other : texture ≠ handle := by
      rintro rfl
      exact kept (.inr ⟨rfl, view⟩)
    simp [Resources.object, Resources.removeTexture, view, other]
  | _ => exact found

variable {kind : Kind}

theorem object_pipelines {handle' : Nat} (other : handle' ≠ handle) :
    ({ self with pipelines := self.pipelines.remove handle } : Resources).object kind handle' =
      self.object kind handle' := by
  cases kind <;>
    simp [Resources.object, Pipeline.Objects.remove, getElem?_erase, Ne.symm other]

theorem object_encoding {handle' : Nat} (other : ¬ (kind.isEncoding = true ∧ handle' = handle)) :
    ({ self with encoding := self.encoding.forget handle } : Resources).object kind handle' =
      self.object kind handle' := by
  by_cases here : handle' = handle
  · cases kind <;> first | rfl | exact absurd ⟨rfl, here⟩ other
  · cases kind <;>
      simp [Resources.object, Encoder.Objects.forget, getElem?_erase, Ne.symm here]

theorem object_forgotten (encoding : kind.isEncoding = true) :
    ({ self with encoding := self.encoding.forget handle } : Resources).object kind handle = none := by
  cases kind <;> simp_all [Resources.object, Encoder.Objects.forget, Kind.isEncoding]

theorem spared_encoder : Spared (fun kind handle' => kind = .encoder ∧ handle' = handle) self
    { self with encoding := { self.encoding with
      encoders := self.encoding.encoders.erase handle } } := by
  intro kind handle' object found kept
  cases kind with
  | encoder =>
    have other : handle ≠ handle' := fun same => kept ⟨rfl, same.symm⟩
    simpa [Resources.object, getElem?_erase, other] using found
  | _ => exact found

theorem spared_command : Spared (fun kind handle' => kind = .command ∧ handle' = handle) self
    { self with encoding := { self.encoding with
      commands := self.encoding.commands.erase handle } } := by
  intro kind handle' object found kept
  cases kind with
  | command =>
    have other : handle ≠ handle' := fun same => kept ⟨rfl, same.symm⟩
    simpa [Resources.object, getElem?_erase, other] using found
  | _ => exact found

theorem spared_bundleEncoder : Spared (fun kind handle' => kind = .bundleEncoder ∧ handle' = handle) self
    { self with encoding := { self.encoding with
      bundleEncoders := self.encoding.bundleEncoders.erase handle } } := by
  intro kind handle' object found kept
  cases kind with
  | bundleEncoder =>
    have other : handle ≠ handle' := fun same => kept ⟨rfl, same.symm⟩
    simpa [Resources.object, getElem?_erase, other] using found
  | _ => exact found

theorem Adds.spared {may : Kind → Nat → Prop} {bytes : Nat}
    (adds : Adds self after kind handle bytes) (fresh : ∀ kind, self.object kind handle = none) :
    Spared may self after := by
  intro kind' handle' object found _
  rw [adds.rest kind' handle' (.inr ?_), found]
  rintro rfl
  rw [fresh] at found
  contradiction

theorem Spared.mono {may may' : Kind → Nat → Prop} (spared : Spared may self after)
    (wider : ∀ kind handle, may kind handle → may' kind handle) : Spared may' self after :=
  fun kind handle object found kept => spared kind handle object found fun may =>
    kept (wider kind handle may)

end
end Resources
end Chuzz.Gpu
