import Chuzz.Gpu.Effects

/-! Every state of a device is sound, and a failed command takes away only what it is about, exactly
where its handle does not name something else. -/
namespace Chuzz.Gpu
open Library.Throwing Library.Transition Resources

/-- What a failed command may have taken away: the encoders and command buffers that it names to be
used up, or the texture of the canvas generation that it presents, with the views of that texture. -/
def MayGo (self : Resources) (command : DeviceCommand) (kind : Kind) (handle : Nat) : Prop :=
  match command.op with
  | .resource (.encoding op) => op.Consumes kind handle
  | .resource (.present args) => ∃ present entry, Presents self args present ∧
      self.textures[command.handle]? = some entry ∧
      entry.canvas = some (present.canvas, present.generation) ∧
      self.ofTexture command.handle kind handle
  | _ => False

/-- The handle of an encoding command names an encoding object that the command is not to use up, or
the handle of a present names a texture that is not the canvas's own. -/
def Misnames (self : Resources) (command : DeviceCommand) : Prop :=
  match command.op with
  | .resource (.encoding op) => ∃ kind, kind.isEncoding = true ∧
      self.holds kind command.handle = true ∧ ¬ op.Consumes kind command.handle
  | .resource (.present args) => ∃ present entry, Presents self args present ∧
      self.textures[command.handle]? = some entry ∧
      entry.canvas ≠ some (present.canvas, present.generation)
  | _ => False

/-- What a failed command can take away at all. -/
def InReach (self : Resources) (command : DeviceCommand) (kind : Kind) (handle : Nat) : Prop :=
  match command.op with
  | .resource (.encoding op) =>
    op.Consumes kind handle ∨ (kind.isEncoding = true ∧ handle = command.handle)
  | .resource (.present args) =>
    (∃ present, Presents self args present) ∧ self.ofTexture command.handle kind handle
  | _ => False

/-- Started in this state, the task leaves sound tables; if it fails, it spares what is not in `may`. -/
def DeviceCareful (may : Kind → Nat → Prop) (self : Connection) (task : DeviceTask α) : Prop :=
  Triple (· = self) task (fun _ after => after.resources.Sound) fun after =>
    after.resources.Sound ∧ Spared may self.resources after.resources

section
variable {may : Kind → Nat → Prop} {self : Connection} {native : Native} {handle : Nat}

theorem onResources_triple {task : Task α} {Q : α → Resources → Prop} {E : Resources → Prop}
    (holds : Triple (· = self.resources) task Q E) :
    Triple (· = self) (onResources task) (fun value after => Q value after.resources)
      fun after => E after.resources := by
  rintro t rfl
  have ended := holds t.resources rfl
  unfold onResources
  split at ended
  · next ran => rwa [ran]
  · next ran => rwa [ran]

theorem Careful.on {task : Task α} (careful : Careful may self.resources task) :
    DeviceCareful may self (onResources task) := onResources_triple careful

theorem report_resources (error : GpuError) : (self.report error).resources = self.resources := by
  unfold Connection.report
  split <;> rfl

theorem createShaderModule_careful (sound : self.resources.Sound) {args : Args Pipeline.ShaderOptions} :
    DeviceCareful may self (createShaderModule native handle args) := by
  refine Triple.next (onResources_triple (createShader_leaves sound)) fun error => ?_
  refine Triple.from_state fun before leaves => Triple.changed ?_
  have same : (error.elim before before.report).resources = before.resources := by
    cases error with
    | none => rfl
    | some error => exact report_resources error
  have described : Careful may (error.elim before before.report).resources
      (describeShader native handle) := by
    rw [same]
    exact describeShader_careful leaves.1
  refine (onResources_triple described).weaken (fun _ => id) (fun _ _ => id) ?_
  rintro after ⟨sound', spared⟩
  rw [same] at spared
  exact ⟨sound', leaves.2.trans spared⟩

theorem executeResource_careful (sound : self.resources.Sound) (op : ResourceOp) :
    DeviceCareful (InReach self.resources ⟨handle, .resource op⟩) self
      (executeResource native handle op) := by
  cases op with
  | createBuffer args => exact (createBuffer_careful sound).on
  | writeBuffer args => exact (writeBuffer_careful sound).on
  | mapRead args => exact (mapBuffer_careful sound).on
  | unmap args => exact (unmapBuffer_careful sound).on
  | destroyBuffer => exact (destroyBuffer_careful sound).on
  | createTexture args => exact (createTexture_careful sound).on
  | createView args => exact (createView_careful sound).on
  | writeTexture args => exact (writeTexture_careful sound).on
  | copyExternalImageToTexture args => exact (copyExternalImage_careful sound).on
  | destroyTexture => exact (destroyTexture_careful sound).on
  | createQuerySet args => exact (createQuerySet_careful sound).on
  | destroyQuerySet => exact (destroyQuerySet_careful sound).on
  | createSampler args => exact (createSampler_careful sound).on
  | configure args => exact (configureCanvas_careful sound).on
  | unconfigure args => exact (unconfigureCanvas_careful sound).on
  | currentTexture args => exact (currentTexture_careful sound).on
  | present args => exact (presentCanvas_careful sound).on
  | encoding op => exact (executeEncoding_careful sound).on
  | onSubmittedWorkDone => exact (submittedWorkDone_careful sound).on
  | createShaderModule args => exact createShaderModule_careful sound
  | getCompilationInfo => exact (compilationInfo_careful sound).on
  | pipeline op => exact (executePipeline_careful sound).on
  | other op =>
    refine Triple.thrown ?_
    rintro _ rfl
    exact ⟨sound, .refl⟩

theorem empty_sound (emptyBinding : Bool) : Sound { emptyBinding } where
  alone kind kind' handle one := by cases kind <;> simp [holds, object] at one
  few := by simp [count, Pipeline.Objects.count, Encoder.Objects.count]
  bytes := Nat.zero_le _
  viewed := by simp
  tagged := by simp

theorem execute_careful (sound : self.resources.Sound) (command : DeviceCommand) :
    DeviceCareful (InReach self.resources command) self (execute native command) := by
  have unchanged : ∀ after, after = self → after.resources.Sound ∧
      Spared (InReach self.resources command) self.resources after.resources := by
    rintro _ rfl
    exact ⟨sound, .refl⟩
  obtain ⟨handle, op⟩ := command
  cases op with
  | setLabel label =>
    dsimp only [execute]
    split
    · exact Triple.returned fun after same => (unchanged after same).1
    · exact Triple.thrown unchanged
  | setCanvasId name =>
    dsimp only [execute]
    split
    · exact Triple.returned fun after same => (unchanged after same).1
    · exact Triple.thrown unchanged
  | inspectionFlush => exact Triple.returned fun after same => (unchanged after same).1
  | destroy =>
    refine Triple.changed (Triple.returned ?_)
    rintro _ rfl
    exact empty_sound false
  | pushErrorScope filter =>
    rintro device rfl
    cases parsed : filter.bind Filter.parse with
    | none =>
      simp only [execute, pushErrorScope, parsed]
      exact unchanged _ rfl
    | some filter =>
      by_cases full : device.scopes.length ≥ 256
      · simp only [execute, pushErrorScope, parsed, if_pos full]
        exact unchanged _ rfl
      · simp only [execute, pushErrorScope, parsed, if_neg full]
        exact sound
  | popErrorScope =>
    rintro device rfl
    cases open' : device.scopes with
    | nil =>
      simp only [execute, popErrorScope, open']
      exact unchanged _ rfl
    | cons scope scopes =>
      simp only [execute, popErrorScope, open']
      exact sound
  | resource op =>
    rintro device rfl
    cases gone : device.lost with
    | true =>
      simp only [execute, gone, if_true]
      exact unchanged _ rfl
    | false =>
      simp only [execute, gone]
      exact executeResource_careful sound op _ rfl

theorem reached_sound (run : Connection.Reached self) : self.resources.Sound := by
  refine run.invariant (P := fun self => self.resources.Sound) ?_ ?_
  · rintro _ rfl
    exact empty_sound true
  · rintro before label _ _ sound rfl
    cases label with
    | run native command => exact (execute_careful sound command).left rfl (fun _ _ => id) fun _ => And.left
    | uncaptured error =>
      rw [Connection.perform, report_resources]
      exact sound
    | lose => exact sound

variable {command : DeviceCommand}

/-- Without a misnomer, the objects in reach of a failure are those that may go. -/
theorem mayGo_of_inReach {resources : Resources} (sound : resources.Sound)
    (named : ¬ Misnames resources command) {kind : Kind} {handle : Nat} {object : Object}
    (found : resources.object kind handle = some object)
    (reach : InReach resources command kind handle) : MayGo resources command kind handle := by
  obtain ⟨handle', op⟩ := command
  cases op with
  | resource op =>
    cases op with
    | encoding op =>
      rcases reach with consumed | ⟨encoding, rfl⟩
      · exact consumed
      · by_contra kept
        refine named ⟨kind, encoding, ?_, kept⟩
        rw [holds, found]
        rfl
    | present args =>
      obtain ⟨⟨present, presents⟩, texture⟩ := reach
      have known : ∃ entry, resources.textures[handle']? = some entry := by
        rcases texture with ⟨rfl, rfl⟩ | ⟨rfl, view⟩
        · obtain ⟨entry, known, _⟩ := Option.map_eq_some_iff.mp found
          exact ⟨entry, known⟩
        · exact Option.isSome_iff_exists.mp
            (Std.ExtTreeMap.mem_iff_isSome_getElem?.mp (sound.viewed handle handle' view))
      obtain ⟨entry, known⟩ := known
      refine ⟨present, entry, presents, known, ?_, texture⟩
      by_contra other
      exact named ⟨present, entry, presents, known, other⟩
    | _ => exact reach.elim
  | _ => exact reach.elim

theorem execute_spares (sound : self.resources.Sound)
    (named : self.lost = true ∨ ¬ Misnames self.resources command) {error : GpuError}
    {after : Connection} (failed : execute native command self = .error error after) :
    Spared (MayGo self.resources command) self.resources after.resources := by
  have careful := @execute_careful self native sound command self rfl
  rw [failed] at careful
  rcases named with lost | named
  · obtain ⟨handle, op⟩ := command
    cases op with
    | resource op =>
      simp only [execute, lost, if_true] at failed
      cases failed
      exact .refl
    | _ => exact careful.2.mono fun _ _ reach => reach.elim
  · intro kind handle object found kept
    exact careful.2 kind handle object found fun reach =>
      kept (mayGo_of_inReach sound named found reach)

/-- Native code that fails. -/
def Native.failing : Native where
  inspecting := false
  raised := some (.internal "")
  read := .error (.internal "")
  input := fun _ => .error (.internal "")
  exported := .error (.internal "")
  image := .error (.internal "")
  submitted := .error (.internal "")
  described := .error (.internal "")
  textureFormat := fun name => .ok ⟨name, 1, 1, 4⟩
  bufferUsages := 1023
  textureUsages := 31
  shaderStages := 7
  colorWrites := 15
  maxBindGroups := 4
  maxColorAttachments := 8

theorem execute_misnamed (alive : self.lost = false) (misnames : Misnames self.resources command) :
    ∃ error after,
      execute .failing command self = .error error after ∧
        ¬ Spared (MayGo self.resources command) self.resources after.resources := by
  obtain ⟨handle, op⟩ := command
  cases op with
  | resource op =>
    cases op with
    | encoding op =>
      obtain ⟨kind, encoding, held, kept⟩ := misnames
      obtain ⟨object, found⟩ := Option.isSome_iff_exists.mp held
      obtain ⟨after, failed, forgotten⟩ :=
        @executeEncoding_forgets self.resources .failing handle op (.internal "") rfl
      refine ⟨.internal "", { self with resources := after }, ?_, fun spared => ?_⟩
      · simp only [execute, alive, executeResource, onResources, failed]
        rfl
      · have still := spared kind handle object found kept
        rw [forgotten kind encoding] at still
        contradiction
    | present args =>
      obtain ⟨present, entry, presents, found, other⟩ := misnames
      cases presents.1
      have failed := @presentCanvas_loses self.resources .failing handle present entry presents found
        other
      refine ⟨.validation "invalid canvas current texture",
        { self with resources := self.resources.removeTexture handle }, ?_, fun spared => ?_⟩
      · simp only [execute, alive, executeResource, onResources, failed]
        rfl
      · have still := spared .texture handle (.texture entry) (texture_object.mpr found) ?_
        · simp [object, removeTexture] at still
        · rintro ⟨present', entry', presents', found', own, _⟩
          cases presents'.1
          rw [found] at found'
          cases found'
          exact other own
    | _ => exact misnames.elim
  | _ => exact misnames.elim

/-- Every reachable state of a device is sound. A failed command takes away nothing but what it names
to be used up or presented, whatever native code does, exactly where its own handle names nothing
else that it would forget or take out. -/
theorem device_owned (run : Connection.Reached self) : self.resources.Sound ∧
    ∀ command, (∀ native error after, execute native command self = .error error after →
        Spared (MayGo self.resources command) self.resources after.resources) ↔
      self.lost = true ∨ ¬ Misnames self.resources command := by
  refine ⟨reached_sound run, fun command => ⟨fun spares => ?_, fun named native error after failed =>
    execute_spares (reached_sound run) named failed⟩⟩
  by_contra refuted
  obtain ⟨alive, misnames⟩ := not_or.mp refuted
  obtain ⟨error, after, failed, lost⟩ := execute_misnamed (by simpa using alive) (not_not.mp misnames)
  exact lost (spares _ _ _ failed)

end

/-- Native code that works. -/
def Native.working : Native where
  inspecting := false
  raised := none
  read := .ok []
  input := fun _ => .ok []
  exported := .ok 1
  image := .ok ⟨1, 1⟩
  submitted := .ok ()
  described := .ok ()
  textureFormat := fun name => .ok ⟨name, 1, 1, 4⟩
  bufferUsages := 1023
  textureUsages := 31
  shaderStages := 7
  colorWrites := 15
  maxBindGroups := 4
  maxColorAttachments := 8

example : Connection.new.lost = false := by decide +kernel

/-- A page with a texture of its own and a configured canvas. -/
def texturePage : Connection :=
  [.run .working ⟨5, .resource (.createTexture (.ok {
      width := 1, height := 1, layers := 1, mipLevelCount := 1, sampleCount := 1
      dimension := "2d", format := "rgba8unorm", usage := 16, viewFormats := [] }))⟩,
    .run .working ⟨1, .resource (.configure (.ok {
      generation := 1, format := "rgba8unorm", usage := 16, alphaMode := "opaque"
      viewFormats := [], width := 1, height := 1 }))⟩].foldl Connection.perform .new

theorem reached_texturePage : Connection.Reached texturePage :=
  Reachable.run _ (.start rfl)

/-- A present with the wrong handle. -/
def presentOther : DeviceCommand := ⟨5, .resource (.present (.ok ⟨1, 1⟩))⟩

theorem texturePage_texture : ∃ entry, texturePage.resources.textures[5]? = some entry ∧
    entry.canvas = none := by
  have found : (texturePage.resources.textures[5]?).map (·.canvas) = some none := by decide +kernel
  exact Option.map_eq_some_iff.mp found

theorem texturePage_configured : (texturePage.resources.configured 1 1).isSome = true := by
  decide +kernel

example : Connection.new.resources.configured 1 1 = none := by decide +kernel

/-- The texture of the page is lost to a present that fails. -/
theorem present_loses_texture : ¬ ∀ self, Connection.Reached self → ∀ native command error after,
    execute native command self = .error error after →
      Spared (MayGo self.resources command) self.resources after.resources := by
  intro claim
  obtain ⟨entry, found, own⟩ := texturePage_texture
  have failed := @presentCanvas_loses texturePage.resources .working 5 ⟨1, 1⟩ entry
    ⟨rfl, texturePage_configured⟩ found (by simp [own])
  have alive : texturePage.lost = false := by decide +kernel
  have spared := claim texturePage reached_texturePage .working presentOther _
    { texturePage with resources := texturePage.resources.removeTexture 5 } (by
      simp only [execute, presentOther, alive, executeResource, onResources, failed]
      rfl)
  have still := spared .texture 5 (.texture entry) (texture_object.mpr found) ?_
  · simp [object, removeTexture] at still
  · rintro ⟨present, entry', presents, found', tagged, _⟩
    cases found.symm.trans found'
    exact absurd (own.symm.trans tagged) (by rintro ⟨⟩)

/-- A device with one texture and one configured canvas. -/
theorem device_owned_texturePage : texturePage.resources.Sound ∧
    ∀ command, (∀ native error after, execute native command texturePage = .error error after →
        Spared (MayGo texturePage.resources command) texturePage.resources after.resources) ↔
      texturePage.lost = true ∨ ¬ Misnames texturePage.resources command :=
  device_owned reached_texturePage

end Chuzz.Gpu
