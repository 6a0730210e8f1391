import Chuzz.Gpu.Host

/-! What the page expects of the error scopes of a device: its commands one after the other, each
with what it has done to the scopes. -/
namespace Chuzz.Gpu
open Library.Throwing

/-- The scopes, the innermost first, with the uncaptured errors and what the pops have given, the
latest first. -/
structure Ledger where
  scopes : List ErrorScope := []
  uncaptured : List GpuError := []
  popped : List (Option GpuError) := []
deriving DecidableEq, Repr

namespace Ledger

def touch (self : Ledger) : Touch → Ledger
  | .push filter => { self with scopes := { filter, error := none } :: self.scopes }
  | .pop _ =>
    match self.scopes with
    | [] => self
    | scope :: outer => { self with scopes := outer, popped := scope.error :: self.popped }
  | .report error =>
    match self.scopes.findIdx? (·.filter = error.kind) with
    | some innermost => { self with scopes := self.scopes.modify innermost (·.keep error) }
    | none => { self with uncaptured := error :: self.uncaptured }

def run (touches : List Touch) : Ledger := touches.foldl touch {}

@[simp] theorem run_append (touches more : List Touch) :
    run (touches ++ more) = more.foldl touch (run touches) :=
  List.foldl_append

end Ledger

/-- What a pop has given to the page. -/
def Touch.given : Touch → Option (Option GpuError)
  | .pop error => some error
  | _ => none

/-- What has happened to the scopes of a device, seen from outside. -/
def Connection.ledger (self : Connection) (touches : List Touch) : Ledger where
  scopes := self.scopes
  uncaptured := self.uncaptured
  popped := (touches.filterMap Touch.given).reverse

section
variable {self : Connection} {touches : List Touch} {native : Native}

theorem record_eq (error : GpuError) (scopes : List ErrorScope) :
    record error scopes = (scopes.findIdx? (·.filter = error.kind)).map
      fun innermost => scopes.modify innermost (·.keep error) := by
  induction scopes with
  | nil => rfl
  | cons scope outer ih =>
    rw [record, List.findIdx?_cons]
    split
    · next same => simp [same]
    · next other =>
      simp only [other, decide_false, Bool.false_eq_true, if_false, ih, Option.map_map]
      rfl

theorem report_ledger (error : GpuError) :
    (self.report error).ledger (touches ++ [.report error]) =
      (self.ledger touches).touch (.report error) := by
  rw [Connection.report, record_eq]
  cases found : self.scopes.findIdx? (·.filter = error.kind) <;>
    simp [Connection.ledger, Ledger.touch, Touch.given, found]

theorem onResources_ledger (task : Task α) :
    (left (onResources task) self).ledger touches = self.ledger touches := by
  unfold left onResources
  cases task self.resources <;> rfl

theorem executeResource_ledger {handle : Nat} {op : ResourceOp}
    (other : ∀ args, op ≠ .createShaderModule args) :
    (left (executeResource native handle op) self).ledger touches = self.ledger touches := by
  cases op with
  | createShaderModule args => exact absurd rfl (other args)
  | other op => rfl
  | destroyBuffer => exact onResources_ledger (destroyBuffer handle)
  | destroyTexture => exact onResources_ledger (destroyTexture handle)
  | destroyQuerySet => exact onResources_ledger (destroyQuerySet handle)
  | _ => exact onResources_ledger _

theorem createShaderModule_ledger {handle : Nat} {args : Args Pipeline.ShaderOptions} :
    (left (createShaderModule native handle args) self).ledger
        (touches ++ touched native ⟨handle, .resource (.createShaderModule args)⟩
          { self with lost := false }) =
      (touched native ⟨handle, .resource (.createShaderModule args)⟩
        { self with lost := false }).foldl Ledger.touch (self.ledger touches) := by
  cases created : createShader native handle args self.resources with
  | error error resources =>
    have failed : createShaderModule native handle args self = .error error { self with resources } :=
      bind_error (by rw [onResources, created])
    simp [touched, created, left, failed]
    rfl
  | ok error resources =>
    have ran : createShaderModule native handle args self =
        onResources (describeShader native handle)
          (error.elim { self with resources } (Connection.report { self with resources })) :=
      bind_ok (by rw [onResources, created])
    have rest : left (createShaderModule native handle args) self =
        left (onResources (describeShader native handle))
          (error.elim { self with resources } (Connection.report { self with resources })) := by
      unfold left
      rw [ran]
    rw [rest, onResources_ledger]
    cases error with
    | none => simp [touched, created]; rfl
    | some error =>
      simp only [touched, created, Option.elim]
      exact report_ledger error

theorem execute_ledger (command : DeviceCommand) :
    (left (execute native command) self).ledger (touches ++ touched native command self) =
      (touched native command self).foldl Ledger.touch (self.ledger touches) := by
  obtain ⟨handle, op⟩ := command
  cases op with
  | setLabel label | setCanvasId label =>
    cases label <;> simp [touched] <;> rfl
  | inspectionFlush | destroy => simp [touched]; rfl
  | pushErrorScope filter =>
    cases parsed : filter.bind Filter.parse with
    | none => 
      simp [touched, pushErrorScope, parsed, execute, left]
    | some filter =>
      by_cases full : self.scopes.length ≥ 256
      · simp [touched, pushErrorScope, parsed, execute, left, full]
      · simp [touched, pushErrorScope, parsed, execute, left, full, Connection.ledger, Ledger.touch, Touch.given]
  | popErrorScope =>
    cases scopes : self.scopes with
    | nil => simp [touched, popErrorScope, scopes, execute, left]
    | cons scope outer =>
      simp [touched, popErrorScope, scopes, execute, left, Connection.ledger, Ledger.touch, Touch.given]
  | resource op =>
    by_cases lost : self.lost
    · have refused : execute native ⟨handle, .resource op⟩ self =
          .error (.validation "GPUDevice is lost or destroyed") self := by simp [execute, lost]
      have none : touched native ⟨handle, .resource op⟩ self = [] := by
        cases op <;> simp [touched, lost]
      simp [none, left, refused]
    · have alive : { self with lost := false } = self := by
        rw [← Bool.eq_false_iff.mpr lost]
      have ran : left (execute native ⟨handle, .resource op⟩) self =
          left (executeResource native handle op) self := by
        simp [execute, left, lost]
      rw [ran]
      by_cases shader : ∃ args, op = .createShaderModule args
      · obtain ⟨args, rfl⟩ := shader
        have created := @createShaderModule_ledger self touches native handle args
        rwa [alive] at created
      · have other : ∀ args, op ≠ .createShaderModule args := fun args same => shader ⟨args, same⟩
        have none : touched native ⟨handle, .resource op⟩ self = [] := by
          cases op <;> first | rfl | exact absurd rfl (other _)
        rw [none, List.append_nil, executeResource_ledger other]
        rfl

end
end Chuzz.Gpu
