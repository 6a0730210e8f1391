import Chuzz.Video.Operations
import Chuzz.Video.Writing

/-! A failed request changes nothing but the upload that it names, unless it
ends a stream with an unknown error: that check stands behind the writes. -/
namespace Chuzz.Video
open Std Library.TreeMapValues

namespace Presentation

/-- An accepted end of stream whose error is then refused. -/
def misends (self : Presentation) (request : Request) : Prop :=
  request.op = .end ∧ self.ended = false ∧ self.ready = true ∧ self.incomplete = false ∧
    request.error ∉ ["", "network", "decode"]

instance (self : Presentation) (request : Request) : Decidable (self.misends request) :=
  inferInstanceAs (Decidable (_ ∧ _))

theorem endOfStreamError_fails_iff (text : String) :
    (∃ error, endOfStreamError text = .error error) ↔ text ∉ ["", "network", "decode"] := by
  simp only [endOfStreamError, List.mem_cons, List.not_mem_nil, or_false, not_or]
  by_cases none' : text = ""
  · simp [none']
  · by_cases network : text = "network"
    · simp [network]
    · by_cases decode : text = "decode" <;> simp [none', network, decode]

theorem operate_unchanged {self : Presentation} {bytes : Option Block} {request : Request}
    {error : Error} (proper : ¬ self.misends request)
    (failed : (self.operate readMp4 bytes request).2 = .error error) :
    (self.operate readMp4 bytes request).1 = self := by
  generalize result : self.operate readMp4 bytes request = final at failed ⊢
  have outcome := operated readMp4 self bytes request
  rw [result] at outcome
  cases outcome with
  | refused => rfl
  | misended error op notEnded ready complete refused =>
    exact absurd ⟨op, notEnded, ready, complete,
      (endOfStreamError_fails_iff _).mp ⟨_, refused⟩⟩ proper
  | _ => contradiction

theorem misends_operate (readMp4 : ReadMp4) {self : Presentation} {request : Request} (bytes : Option Block)
    (misended : self.misends request) :
    ∃ error, self.operate readMp4 bytes request =
      ({ self with ended := true, duration := self.endTime }, .error error) := by
  obtain ⟨op, notEnded, ready, complete, unknown⟩ := misended
  obtain ⟨error, refused⟩ := (endOfStreamError_fails_iff _).mpr unknown
  refine ⟨error, ?_⟩
  simp only [operate, op, endOfStream, notEnded, ready, complete, refused]
  simp

end Presentation

namespace Store

/-- After a failure, the store is as before, less the upload of the request. -/
def FailsCleanly (readMp4 : ReadMp4) (self : Store) (request : Request) : Prop :=
  ∀ error, (self.control readMp4 request).2 = .error error →
    (self.control readMp4 request).1 = self.consume request.handle

theorem misends_not_clean {self : Store} {request : Request} {source : Presentation}
    (present : self.sources[request.source]? = some source) (misended : source.misends request) :
    ¬ self.FailsCleanly readMp4 request := by
  intro clean
  obtain ⟨error, operated⟩ := source.misends_operate readMp4
    (self.staged request.handle) misended
  have op := misended.1
  have controlled : self.control readMp4 request =
      ({ self.consume request.handle with
          sources := self.sources.insert request.source
            { source with ended := true, duration := source.endTime } }, .error error) := by
    simp only [control, op, consume_sources, present, operated]
    rfl
  have same := congrArg Store.sources (clean error (by rw [controlled]))
  rw [controlled, consume_sources] at same
  have stored := congrArg (fun sources => sources[request.source]?) same
  simp only [ExtTreeMap.getElem?_insert_self, present, Option.some.injEq] at stored
  have flag := congrArg Presentation.ended stored
  rw [misended.2.1] at flag
  contradiction

theorem failsCleanly_iff (readMp4 : ReadMp4) (self : Store) (request : Request) :
    self.FailsCleanly readMp4 request ↔
      ¬ ∃ source, self.sources[request.source]? = some source ∧ source.misends request := by
  constructor
  · rintro clean ⟨source, present, misended⟩
    exact misends_not_clean present misended clean
  · intro proper error failed
    generalize result : self.control readMp4 request = final at failed ⊢
    have outcome := controlled readMp4 self request
    rw [result] at outcome
    cases outcome with
    | refused => rfl
    | opened => contradiction
    | closed => contradiction
    | operated source found =>
      have unchanged : (source.operate readMp4 (self.staged request.handle) request).1 = source := by
        cases operation : (source.operate readMp4 (self.staged request.handle) request).2 with
        | error error' =>
          exact Presentation.operate_unchanged (fun misended => proper ⟨source, found, misended⟩)
            operation
        | ok _ =>
          rw [operation] at failed
          contradiction
      simp only [unchanged, insert_same found]
      rw [← consume_sources self request.handle]

set_option maxRecDepth 20000 in
/-- A complete, initialized stream is ended with an error that does not exist. -/
theorem failed_end_ends :
    ¬ ∀ (readMp4 : ReadMp4) (store : Store) (request : Request),
      Reached readMp4 store → store.FailsCleanly readMp4 request := by
  intro clean
  have reached := run_reached readClip (attachClip ++ appendClip 1 clipInit) (.start rfl)
  have found : (Store.run readClip {} (attachClip ++ appendClip 1 clipInit)).sources[1]?.any
      (fun source => source.misends { op := .end, source := 1, error := "aborted" }) = true := by
    decide
  obtain ⟨source, present, misended⟩ := (Option.any_eq_true _ _).mp found
  exact misends_not_clean present (of_decide_eq_true misended) (clean _ _ _ reached)

end Store
end Chuzz.Video
