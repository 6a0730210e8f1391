import Chuzz.Gpu.Holdings

/-! What each command does to the tables: it keeps them sound, and when it fails it spares what it is
not about. -/
namespace Chuzz.Gpu
open Std Library.TreeMapValues Library.Fallible Library.Throwing Resources

/-- Started in this state, the task leaves sound tables; if it fails, it spares what is not in `may`. -/
def Careful (may : Kind → Nat → Prop) (self : Resources) (task : Task α) : Prop :=
  Triple (· = self) task (fun _ after => after.Sound) fun after => after.Sound ∧ Spared may self after

section
variable {may : Kind → Nat → Prop} {self : Resources} {native : Native} {handle : Nat}
  {check : Resources → Except GpuError α}

theorem Careful.read (sound : self.Sound) : Careful may self (reading check) :=
  Triple.read (fun _ _ => ⟨sound, .refl⟩) fun _ _ => sound

theorem Careful.read_modify {change : α → Resources → Resources}
    {value : Value} (sound : self.Sound)
    (changed : ∀ value, check self = .ok value → (change value self).Sound) :
    Careful may self (do
      let found ← reading check
      modify (change found)
      return value) :=
  Triple.read_next (fun _ _ => ⟨sound, .refl⟩) fun found passed =>
    Triple.changed (Triple.returned fun _ same => same ▸ changed found passed)

section
variable (sound : self.Sound)
include sound

theorem createBuffer_careful {args : Args Buffer.Options} :
    Careful may self (createBuffer native handle args) := by
  refine Careful.read_modify sound fun entry found => ?_
  obtain ⟨options, _, found⟩ := bind_ok found
  obtain ⟨_, found⟩ := guard_ok found
  split at found
  · obtain ⟨_, found⟩ := guard_ok found
    obtain ⟨_, found⟩ := guard_ok found
    obtain ⟨_, reserved, found⟩ := bind_ok found
    obtain ⟨_, _, found⟩ := bind_ok found
    cases found
    have free := reserve_ok reserved
    have fresh := free.1
    exact sound.add_other free (adds_buffer fresh _) nofun nofun
  · contradiction

theorem writeBuffer_careful {args : Args Buffer.Write} :
    Careful may self (writeBuffer native handle args) := .read sound

theorem mapBuffer_careful {args : Args Buffer.Mapping} :
    Careful may self (mapBuffer native handle args) :=
  Triple.read_next (fun _ _ => ⟨sound, .refl⟩) fun (mapped, id) _ =>
    Triple.changed (Triple.returned fun _ same => same ▸ sound.adjusted fun _ => rfl)

theorem unmapBuffer_careful {args : Args (List Buffer.Write)} :
    Careful may self (unmapBuffer native handle args) :=
  Careful.read_modify sound fun _ _ => sound.adjusted fun _ => rfl

theorem createTextureOptions_careful {options : Texture.Options} {canvas : Option (Nat × Nat)}
    (tagged : ∀ canvas' generation, canvas = some (canvas', generation) → ∃ configuration,
      self.canvases[canvas']? = some configuration ∧ configuration.generation = generation) :
    Careful may self (createTextureOptions native handle options canvas) := by
  refine Careful.read_modify sound fun entry found => ?_
  obtain ⟨format, _, found⟩ := bind_ok found
  obtain ⟨_, _, found⟩ := bind_ok found
  obtain ⟨_, found⟩ := guard_ok found
  split at found
  · obtain ⟨_, _, found⟩ := bind_ok found
    obtain ⟨bytes, _, found⟩ := bind_ok found
    obtain ⟨_, reserved, found⟩ := bind_ok found
    obtain ⟨_, _, found⟩ := bind_ok found
    cases found
    have free := reserve_ok reserved
    have fresh := free.1
    refine sound.add free (adds_texture fresh _) (fun texture found => ?_)
      fun entry canvas' generation found tag => ?_
    · exact absurd ((no_view fresh).symm.trans found) nofun
    · simp only [ExtTreeMap.getElem?_insert_self, Option.some.injEq] at found
      subst found
      exact tagged canvas' generation tag
  · contradiction

theorem createTexture_careful {args : Args Texture.Options} :
    Careful may self (createTexture native handle args) :=
  Triple.read_next (fun _ _ => ⟨sound, .refl⟩) fun _ _ =>
    createTextureOptions_careful sound nofun

theorem createView_careful {args : Args Texture.View} :
    Careful may self (createView native handle args) := by
  refine Triple.read_next (fun _ _ => ⟨sound, .refl⟩) fun view _ => ?_
  refine Careful.read_modify sound fun _ found => ?_
  obtain ⟨_, reserved, found⟩ := bind_ok found
  split at found
  · next entry known =>
    have free := reserve_ok reserved
    have fresh := free.1
    refine sound.add free (adds_view fresh _) (fun texture found => ?_)
      fun entry canvas generation found => ?_
    · simp only [ExtTreeMap.getElem?_insert_self, Option.some.injEq] at found
      subst found
      rw [ExtTreeMap.mem_iff_isSome_getElem?, known]
      rfl
    · exact absurd ((no_texture fresh).symm.trans found) nofun
  · contradiction

theorem createSampler_careful {args : Args Texture.SamplerOptions} :
    Careful may self (createSampler native handle args) := by
  refine Careful.read_modify sound fun _ found => ?_
  obtain ⟨_, _, found⟩ := bind_ok found
  obtain ⟨_, reserved, _⟩ := bind_ok found
  have free := reserve_ok reserved
  have fresh := free.1
  exact sound.add_other free (adds_sampler fresh) nofun nofun

theorem createQuerySet_careful {args : Args QueryOptions} :
    Careful may self (createQuerySet native handle args) := by
  refine Careful.read_modify sound fun count found => ?_
  obtain ⟨_, _, found⟩ := bind_ok found
  obtain ⟨_, found⟩ := guard_ok found
  obtain ⟨_, found⟩ := guard_ok found
  obtain ⟨_, reserved, _⟩ := bind_ok found
  have free := reserve_ok reserved
  have fresh := free.1
  exact sound.add_other free (adds_query fresh _) nofun nofun

end

theorem Careful.always {change : Resources → Resources} {value : Value}
    (changed : (change self).Sound) : Careful may self (do
      modify change
      return value) :=
  Triple.changed (Triple.returned fun _ same => same ▸ changed)

theorem destroyBuffer_careful (sound : self.Sound) : Careful may self (destroyBuffer handle) :=
  .always (sound.lose_other loses_buffer rfl rfl)

theorem destroyTexture_careful (sound : self.Sound) : Careful may self (destroyTexture handle) :=
  .always sound.removeTexture

theorem destroyQuerySet_careful (sound : self.Sound) : Careful may self (destroyQuerySet handle) :=
  .always (sound.lose_other loses_query rfl rfl)

theorem configureCanvas_careful (sound : self.Sound) {args : Args Canvas.Configuration} :
    Careful may self (configureCanvas handle args) := by
  refine Triple.read_next (fun _ _ => ⟨sound, .refl⟩) fun configuration _ => ?_
  obtain ⟨released, untagged⟩ := releaseCanvas_sound sound handle
  refine Triple.changed (Triple.changed (Triple.returned ?_))
  rintro _ rfl
  refine released.recanvas untagged _ fun other apart => ?_
  rw [ExtTreeMap.getElem?_insert, if_neg]
  simpa [Nat.compare_eq_eq] using Ne.symm apart

theorem unconfigureCanvas_careful (sound : self.Sound) {args : Args Nat} :
    Careful may self (unconfigureCanvas handle args) :=
  Careful.read_modify sound fun _ _ => (releaseCanvas_sound sound handle).1

theorem configured_ok {canvas generation : Nat} {configuration : Canvas.Configuration}
    (found : self.configured canvas generation = some configuration) :
    self.canvases[canvas]? = some configuration ∧ configuration.generation = generation := by
  simpa [configured, Option.filter_eq_some_iff] using found

theorem currentTexture_careful (sound : self.Sound) {args : Args Canvas.Current} :
    Careful may self (currentTexture native handle args) := by
  refine Triple.read_next (fun _ _ => ⟨sound, .refl⟩) fun (current, configuration) found => ?_
  obtain ⟨_, _, found⟩ := bind_ok found
  split at found
  · next known =>
    obtain ⟨_, found⟩ := guard_ok found
    cases found
    refine createTextureOptions_careful sound fun canvas generation same => ?_
    cases same
    exact ⟨configuration, configured_ok known⟩
  · contradiction

/-- A present of a configured canvas. -/
def Presents (self : Resources) (args : Args Canvas.Present) (present : Canvas.Present) : Prop :=
  args = .ok present ∧ (self.configured present.canvas present.generation).isSome = true

variable {args : Args Canvas.Present}

/-- Presenting takes the texture of its handle out, whether it is the canvas's or not. -/
theorem presentCanvas_failed (sound : self.Sound) :
    Triple (· = self) (presentCanvas native handle args) (fun _ => Sound) fun after =>
      after = self ∨ (∃ present, Presents self args present) ∧ after = self.removeTexture handle := by
  refine Triple.read_next (fun _ _ => .inl rfl) fun (present, texture) found => Triple.changed ?_
  refine Triple.read (fun _ _ => .inr ⟨⟨present, ?_⟩, rfl⟩) fun _ _ => sound.removeTexture
  obtain ⟨present', decoded, found⟩ := bind_ok found
  split at found
  · next configuration known =>
    cases found
    exact ⟨mapError_ok decoded, by rw [known]; rfl⟩
  · contradiction

theorem presentCanvas_careful (sound : self.Sound) :
    Careful (fun kind handle' => (∃ present, Presents self args present) ∧
      self.ofTexture handle kind handle') self (presentCanvas native handle args) := by
  refine (presentCanvas_failed sound).weaken (fun _ => id) (fun _ _ => id) ?_
  rintro _ (rfl | ⟨presents, rfl⟩)
  · exact ⟨sound, .refl⟩
  · exact ⟨sound.removeTexture, spared_removeTexture.mono fun _ _ here => ⟨presents, here⟩⟩

theorem presentCanvas_loses {present : Canvas.Present} {entry : Texture.Entry}
    (presents : Presents self (.ok present) present) (found : self.textures[handle]? = some entry)
    (other : entry.canvas ≠ some (present.canvas, present.generation)) :
    presentCanvas native handle (.ok present) self =
      .error (.validation "invalid canvas current texture") (self.removeTexture handle) := by
  obtain ⟨configuration, known⟩ := Option.isSome_iff_exists.mp presents.2
  have filtered : (some entry).filter (fun entry =>
      decide (entry.canvas = some (present.canvas, present.generation))) = none := by
    simp [Option.filter, other]
  have looked : presented handle (.ok present) self = .ok (present, some entry) := by
    simp [presented, decode, Except.mapError, known, found, bind, Except.bind, pure, Except.pure]
  unfold presentCanvas
  rw [reading_bind looked]
  refine Library.Throwing.modify_bind.trans ?_
  simp only [reading, filtered]
  rfl

/-- With an error of the native filters, the work fails after all that it has done. -/
theorem Careful.checked {work : Task Unit} {P : Resources → Prop}
    (works : Triple (· = self) work (fun _ => P) P) :
    Triple (· = self) (Gpu.checked native work) (fun _ => P) P := by
  rintro t rfl
  have ended := works t rfl
  unfold Gpu.checked
  cases native.raised with
  | none => exact ended
  | some error => exact Triple.left works rfl (fun _ _ => id) fun _ => id

theorem Careful.orElse {task : Task Unit} {cleanup : Resources → Resources}
    {P Q E : Resources → Prop} (works : Triple (· = self) task (fun _ => P) Q)
    (cleans : ∀ after, Q after → E (cleanup after)) :
    Triple (· = self) (Gpu.orElse task cleanup) (fun _ => P) E := by
  rintro t rfl
  have ended := works t rfl
  unfold Gpu.orElse
  split at ended
  · next ran => rwa [ran]
  · next ran =>
    rw [ran]
    exact cleans _ ended

variable {op : PipelineOp}

theorem pipelineObject_adds (fresh : ∀ kind, self.object kind handle = none)
    {pipelines : Pipeline.Objects} (created : pipelineObject native handle self op = .ok pipelines) :
    ∃ kind, Adds self { self with pipelines } kind handle 0 ∧ kind ≠ .view ∧ kind ≠ .texture := by
  cases op with
  | createBindGroupLayout args =>
    obtain ⟨_, _, created⟩ := bind_ok created
    obtain ⟨_, _, created⟩ := bind_ok created
    cases created
    exact ⟨.layout, adds_layout fresh, nofun, nofun⟩
  | createPipelineLayout args =>
    obtain ⟨_, _, created⟩ := bind_ok created
    obtain ⟨_, _, created⟩ := bind_ok created
    cases created
    exact ⟨.pipelineLayout, adds_pipelineLayout fresh, nofun, nofun⟩
  | createBindGroup args =>
    obtain ⟨_, _, created⟩ := bind_ok created
    obtain ⟨_, _, created⟩ := bind_ok created
    obtain ⟨_, _, created⟩ := bind_ok created
    cases created
    exact ⟨.group, adds_group fresh, nofun, nofun⟩
  | createRenderPipeline async args =>
    obtain ⟨_, _, created⟩ := bind_ok created
    obtain ⟨_, _, created⟩ := bind_ok created
    cases created
    exact ⟨.render, adds_render fresh, nofun, nofun⟩
  | createComputePipeline async args =>
    obtain ⟨_, _, created⟩ := bind_ok created
    obtain ⟨_, _, created⟩ := bind_ok created
    cases created
    exact ⟨.compute, adds_compute fresh, nofun, nofun⟩
  | getBindGroupLayout args =>
    obtain ⟨_, _, created⟩ := bind_ok created
    obtain ⟨_, _, created⟩ := bind_ok created
    cases created
    exact ⟨.layout, adds_layout fresh, nofun, nofun⟩

theorem pipelineSync_leaves (may : Kind → Nat → Prop) (sound : self.Sound) (reserved : self.reserve handle 0 = .ok ())
    : Triple (· = self) (pipelineSync native handle op)
      (fun _ after => after.Sound ∧ Spared may self after)
      fun after => after.Sound ∧ Spared may self after := by
  have free := reserve_ok reserved
  have fresh := free.1
  refine Triple.read_next (fun _ _ => ⟨sound, .refl⟩) fun pipelines created =>
    Triple.modified ?_
  rintro _ rfl
  obtain ⟨kind, adds, notView, notTexture⟩ := pipelineObject_adds fresh created
  exact ⟨sound.add_other free adds notView notTexture, adds.spared fresh⟩

theorem executePipeline_careful (sound : self.Sound) :
    Careful may self (executePipeline native handle op) := by
  refine Triple.read_next (fun _ _ => ⟨sound, .refl⟩) fun _ reserved => ?_
  have free := reserve_ok reserved
  have fresh := free.1
  refine Triple.next (Careful.orElse (Careful.checked (pipelineSync_leaves may sound reserved)) ?_)
    fun _ => Triple.returned fun _ left => left.1
  rintro after ⟨sound', spared⟩
  refine ⟨sound'.lose_other loses_pipelines rfl rfl, fun kind handle' object found kept => ?_⟩
  have other : handle' ≠ handle := by
    rintro rfl
    rw [fresh] at found
    contradiction
  rw [object_pipelines other]
  exact spared kind handle' object found kept

theorem compilationInfo_careful (sound : self.Sound) : Careful may self (compilationInfo handle) :=
  .read sound

theorem createShader_leaves (sound : self.Sound) {args : Args Pipeline.ShaderOptions} :
    Triple (· = self) (createShader native handle args)
      (fun _ after => after.Sound ∧ Spared may self after)
      fun after => after.Sound ∧ Spared may self after := by
  refine Triple.read_next (fun _ _ => ⟨sound, .refl⟩) fun source found => ?_
  obtain ⟨_, _, found⟩ := bind_ok found
  obtain ⟨_, found⟩ := guard_ok found
  obtain ⟨_, reserved, _⟩ := bind_ok found
  have free := reserve_ok reserved
  have fresh := free.1
  refine Triple.changed (Triple.returned ?_)
  rintro _ rfl
  have adds := adds_shader fresh { source, error := native.raised.map GpuError.message }
  exact ⟨sound.add_other free adds nofun nofun, adds.spared fresh⟩

theorem describeShader_careful (sound : self.Sound) :
    Careful may self (describeShader native handle) :=
  Triple.read_next (fun _ _ => ⟨sound, .refl⟩) fun _ _ =>
    Triple.read_next (fun _ _ => ⟨sound, .refl⟩) fun _ _ => Triple.returned fun _ same => same ▸ sound

end

/-- What an encoding command names besides its own handle, to be used up. -/
def EncodingOp.Consumes : EncodingOp → Kind → Nat → Prop
  | .finishRenderBundle (.ok taken), .bundleEncoder, handle => handle = taken.encoder
  | .finish (.ok taken), .encoder, handle => handle = taken.encoder
  | .submit (.ok handles), .command, handle => handle ∈ handles
  | _, _, _ => False

section
variable {self : Resources} {native : Native} {handle : Nat}

/-- Sound tables in which some objects are as before. -/
def Leaves (may : Kind → Nat → Prop) (self after : Resources) : Prop :=
  after.Sound ∧ Spared may self after

theorem takeCommands_leaves {may : Kind → Nat → Prop} (handles : List Nat)
    (within : ∀ handle ∈ handles, may .command handle) :
    Keeps (Leaves may self) (takeCommands handles) := by
  induction handles with
  | nil => exact Keeps.returned
  | cons first rest ih =>
    refine Triple.from_state fun before leaves => ?_
    refine Triple.read_next (fun _ _ => leaves) fun _ _ => ?_
    refine Triple.changed ((ih fun handle member => within handle (List.mem_cons_of_mem _ member)).started
      ⟨leaves.1.lose_other loses_command rfl rfl, leaves.2.trans (spared_command.mono ?_)⟩)
    rintro _ _ ⟨rfl, rfl⟩
    exact within _ List.mem_cons_self

variable {op : EncodingOp}

theorem encodingSync_leaves (sound : self.Sound) :
    Triple (· = self) (encodingSync native handle op) (fun _ => Leaves op.Consumes self)
      (Leaves op.Consumes self) := by
  have unchanged : Leaves op.Consumes self self := ⟨sound, .refl⟩
  cases op with
  | createCommandEncoder args =>
    refine Triple.read_next (fun _ _ => unchanged) fun _ found => Triple.modified ?_
    rintro _ rfl
    obtain ⟨_, _, reserved⟩ := bind_ok found
    have free := reserve_ok reserved
    have fresh := free.1
    have adds := adds_encoder fresh
    exact ⟨sound.add_other free adds nofun nofun, adds.spared fresh⟩
  | createRenderBundleEncoder args =>
    refine Triple.read_next (fun _ _ => unchanged) fun descriptor found => Triple.modified ?_
    rintro _ rfl
    obtain ⟨_, reserved, _⟩ := bind_ok found
    have free := reserve_ok reserved
    have fresh := free.1
    have adds := adds_bundleEncoder fresh descriptor
    exact ⟨sound.add_other free adds nofun nofun, adds.spared fresh⟩
  | finishRenderBundle args =>
    refine Triple.read_next (fun _ _ => unchanged) fun taken found => ?_
    obtain ⟨taken', decoded, found⟩ := bind_ok found
    obtain ⟨_, found⟩ := guard_ok found
    cases found
    cases mapError_ok decoded
    have erased : Leaves (EncodingOp.finishRenderBundle (.ok taken)).Consumes self
        { self with encoding := { self.encoding with
          bundleEncoders := self.encoding.bundleEncoders.erase taken.encoder } } :=
      ⟨sound.lose_other loses_bundleEncoder rfl rfl, spared_bundleEncoder.mono (by
        rintro _ _ ⟨rfl, rfl⟩
        rfl)⟩
    refine Triple.changed (Triple.read_next (fun _ _ => erased) fun _ found => Triple.modified ?_)
    rintro _ rfl
    obtain ⟨_, reserved, _⟩ := bind_ok found
    have free := reserve_ok reserved
    have fresh := free.1
    have adds := adds_bundle fresh ⟨taken.commands.length⟩
    exact ⟨erased.1.add_other free adds nofun nofun, erased.2.trans (adds.spared fresh)⟩
  | finish args =>
    refine Triple.read_next (fun _ _ => unchanged) fun taken found => ?_
    obtain ⟨taken', decoded, found⟩ := bind_ok found
    obtain ⟨_, reserved, found⟩ := bind_ok found
    obtain ⟨_, _, found⟩ := bind_ok found
    obtain ⟨_, found⟩ := guard_ok found
    obtain ⟨_, found⟩ := guard_ok found
    cases found
    cases mapError_ok decoded
    have erased : Leaves (EncodingOp.finish (.ok taken)).Consumes self
        { self with encoding := { self.encoding with
          encoders := self.encoding.encoders.erase taken.encoder } } :=
      ⟨sound.lose_other loses_encoder rfl rfl, spared_encoder.mono (by
        rintro _ _ ⟨rfl, rfl⟩
        rfl)⟩
    refine Triple.changed (Triple.read_next (fun _ _ => erased) fun _ _ => Triple.modified ?_)
    rintro _ rfl
    have free := (reserve_ok reserved).lose (@loses_encoder self taken.encoder)
    have adds := adds_command free.1
    exact ⟨erased.1.add_other free adds nofun nofun, erased.2.trans (adds.spared free.1)⟩
  | submit args =>
    refine Triple.read_next (fun _ _ => unchanged) fun handles found => ?_
    obtain ⟨handles', decoded, found⟩ := bind_ok found
    obtain ⟨_, found⟩ := guard_ok found
    obtain ⟨_, found⟩ := guard_ok found
    cases found
    cases mapError_ok decoded
    exact (takeCommands_leaves handles fun _ member => by exact member).started unchanged

/-- A failed encoding command also forgets every encoding object of its own handle. -/
theorem executeEncoding_careful (sound : self.Sound) :
    Careful (fun kind handle' => op.Consumes kind handle' ∨ (kind.isEncoding = true ∧ handle' = handle))
      self (executeEncoding native handle op) := by
  refine Triple.next (Careful.orElse (Careful.checked (encodingSync_leaves sound)) ?_)
    fun _ => Triple.returned fun _ leaves => leaves.1
  rintro after ⟨sound', spared⟩
  refine ⟨sound'.lose_other loses_encoding rfl rfl, fun kind handle' object found kept => ?_⟩
  rw [object_encoding fun here => kept (.inr here)]
  exact spared kind handle' object found fun consumed => kept (.inl consumed)

theorem executeEncoding_forgets {error : GpuError} (raised : native.raised = some error) : ∃ after,
      executeEncoding native handle op self = .error error after ∧
      ∀ kind, kind.isEncoding = true → after.object kind handle = none := by
  have work : checked native (encodingSync native handle op) self =
      .error error (left (encodingSync native handle op) self) := by
    unfold checked
    rw [raised]
  have failed : orElse (checked native (encodingSync native handle op)) (fun self =>
      { self with encoding := self.encoding.forget handle }) self = .error error
        { left (encodingSync native handle op) self with
          encoding := (left (encodingSync native handle op) self).encoding.forget handle } := by
    unfold orElse
    rw [work]
  exact ⟨_, Library.Throwing.bind_error failed, fun kind encoding => object_forgotten encoding⟩

section
variable {may : Kind → Nat → Prop} (sound : self.Sound)
include sound

theorem submittedWorkDone_careful : Careful may self (submittedWorkDone native) :=
  Triple.read_next (fun _ _ => ⟨sound, .refl⟩) fun _ _ => Triple.returned fun _ same => same ▸ sound

theorem writeTexture_careful {args : Args Texture.Write} : Careful may self (writeTexture native args) := .read sound

theorem copyExternalImage_careful {args : Args Texture.Copy} : Careful may self (copyExternalImage native args) := .read sound

end

end
end Chuzz.Gpu
