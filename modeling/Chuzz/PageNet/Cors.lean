import Chuzz.Library.Fallible
import Chuzz.PageNet.Request

/-! The gate between a page and the responses of other origins, set against the Fetch standard.
The code takes some headers for safelisted that are not, compares methods without regard to
case, reads the first of several values and does not know every forbidden header; in every
other case it does what the standard asks. -/
namespace Chuzz.PageNet
open Library.Fetch Library.Fallible List

variable {Url : Type}

/-- What the code does not ask of a header that it takes for safelisted. -/
def Harmless (field : Field) : Prop :=
  if (texts ["accept-language", "content-language"]).contains field.1 then
    ∀ c ∈ field.2, languageByte c = true
  else field.2.length ≤ 128 ∧ ∀ c ∈ field.2, delimiter c = false

/-- Every header is harmless, and so are all of them together. -/
def Plain (kept : List Field) : Prop :=
  (∀ field ∈ kept, Harmless field) ∧ (kept = [] ∨ safelistSize kept ≤ 1024)

section Safelist

theorem controlByte_visible {c : Char} (shown : visible c = true) : controlByte c = false := by
  simp only [visible, Bool.or_eq_true, decide_eq_true_eq, Bool.and_eq_true] at shown
  rcases shown with rfl | ⟨low, high⟩
  · decide
  · simp only [controlByte, Bool.or_eq_false_iff, Bool.and_eq_false_iff, decide_eq_false_iff_not]
    omega

theorem any_unsafeByte {value : Text} (plain : value.any controlByte = false) :
    value.any unsafeByte = false ↔ ∀ c ∈ value, delimiter c = false := by
  simp only [any_eq_false, Bool.not_eq_true] at plain ⊢
  constructor
  · intro safe c member
    exact (Bool.or_eq_false_iff.mp (safe c member)).2
  · intro free c member
    exact Bool.or_eq_false_iff.mpr ⟨plain c member, free c member⟩

theorem formType_essence {value : Text} (form : formType value = true) :
    value.any controlByte = false ∧ formTypes.contains (essence value) = true := by
  simp only [formType, toStr] at form
  split at form
  · rename_i text shown
    split at shown
    · cases shown
      rename_i every
      constructor
      · apply any_eq_false.mpr
        intro c member
        exact Bool.not_eq_true _ ▸ controlByte_visible (all_eq_true.mp every c member)
      · have fixed : ∀ kind ∈ formTypes, lower kind = kind := by decide
        have member : strip (value.takeWhile (· ≠ ';')) ∈ formTypes :=
          contains_iff_mem.mp form
        rw [essence, fixed _ member]
        exact form
    · cases shown
  · cases form

theorem safelistedHeader_name {field : Field} (listed : safelistedHeader field = true) :
    field.1 ∈ texts ["accept", "accept-language", "content-language", "content-type"] := by
  unfold safelistedHeader at listed
  split at listed
  · rename_i known
    have found := contains_iff_mem.mp known
    simp only [texts, map_cons, map_nil, mem_cons, not_mem_nil, or_false]
      at found ⊢
    rcases found with name | name | name
    · exact .inl name
    · exact .inr (.inl name)
    · exact .inr (.inr (.inl name))
  · split at listed
    · rename_i name
      rw [name]
      decide
    · cases listed

/-- Of a header that the code takes for safelisted, the standard asks nothing else. -/
theorem safelisted_iff {field : Field} (listed : safelistedHeader field = true) :
    safelisted field = true ↔ Harmless field := by
  have name := safelistedHeader_name listed
  obtain ⟨name', value⟩ := field
  simp only [texts, map_cons, map_nil, mem_cons, not_mem_nil, or_false] at name
  rcases name with rfl | rfl | rfl | rfl
  · have form : (decide (value.length ≤ 128) && !value.any controlByte) = true := listed
    have shape : safelisted ("accept".toList, value) =
      (decide (value.length ≤ 128) && !value.any unsafeByte) := rfl
    have wanted : Harmless ("accept".toList, value) ↔
      value.length ≤ 128 ∧ ∀ c ∈ value, delimiter c = false := Iff.rfl
    simp only [Bool.and_eq_true, decide_eq_true_eq, Bool.not_eq_true'] at form
    rw [shape, wanted, ← any_unsafeByte form.2]
    simp
  · have form : (decide (value.length ≤ 128) && !value.any controlByte) = true := listed
    have shape : safelisted ("accept-language".toList, value) =
      (decide (value.length ≤ 128) && value.all languageByte) := rfl
    have wanted : Harmless ("accept-language".toList, value) ↔
      ∀ c ∈ value, languageByte c = true := Iff.rfl
    simp only [Bool.and_eq_true, decide_eq_true_eq, Bool.not_eq_true'] at form
    rw [shape, wanted]
    simp [form.1]
  · have form : (decide (value.length ≤ 128) && !value.any controlByte) = true := listed
    have shape : safelisted ("content-language".toList, value) =
      (decide (value.length ≤ 128) && value.all languageByte) := rfl
    have wanted : Harmless ("content-language".toList, value) ↔
      ∀ c ∈ value, languageByte c = true := Iff.rfl
    simp only [Bool.and_eq_true, decide_eq_true_eq, Bool.not_eq_true'] at form
    rw [shape, wanted]
    simp [form.1]
  · have form : formType value = true := listed
    have shape : safelisted ("content-type".toList, value) =
      (decide (value.length ≤ 128) &&
        (!value.any unsafeByte && formTypes.contains (essence value))) := rfl
    have wanted : Harmless ("content-type".toList, value) ↔
      value.length ≤ 128 ∧ ∀ c ∈ value, delimiter c = false := Iff.rfl
    obtain ⟨plain, known⟩ := formType_essence form
    rw [shape, wanted, ← any_unsafeByte plain, known]
    simp

end Safelist

section Supplied

theorem forbidden_iff {field : Field} (kept : forbiddenHeader field.1 = false) :
    forbidden field = false ↔
      field.1 ≠ "set-cookie".toList ∧ overridesMethod field = false := by
  have names : forbiddenNames.contains field.1 =
      ("set-cookie".toList :: droppedNames).contains field.1 := by
    have same : forbiddenNames.Perm ("set-cookie".toList :: droppedNames) := by decide
    simp [same.mem_iff]
  simp only [forbiddenHeader, Bool.or_eq_false_iff] at kept
  simp only [forbidden, names, contains_cons, kept, Bool.or_false,
    Bool.or_eq_false_iff, beq_eq_false_iff_ne]

theorem keep_forbidden {headers : List (Text × Text)} {kept : List Field}
    (success : keep headers = .ok kept) : ∀ field ∈ kept, forbiddenHeader field.1 = false := by
  induction headers generalizing kept with
  | nil =>
    cases success
    intro field member
    cases member
  | cons header rest ih =>
    obtain ⟨name, value⟩ := header
    obtain ⟨name, _, success⟩ := bind_ok success
    split at success
    · exact ih success
    · rename_i known
      obtain ⟨value, _, success⟩ := bind_ok success
      obtain ⟨others, found, success⟩ := bind_ok success
      cases success
      intro field member
      rcases mem_cons.mp member with rfl | member
      · exact Bool.eq_false_iff.mpr known
      · exact ih found field member

def supplied (headers : List Header) : List Field :=
  (headers.filter Header.page).map Header.field

def FetchRequest.supplied (request : FetchRequest Url) : List Field :=
  PageNet.supplied request.headers

theorem supplied_insert {headers : List Header} {name : Text} (value : Text)
    (others : ∀ field ∈ supplied headers, field.1 ≠ name) :
    supplied (insert headers name value) = supplied headers := by
  have same :
      (headers.filter (·.name ≠ name)).filter Header.page = headers.filter Header.page := by
    rw [filter_filter]
    apply filter_congr
    intro header member
    cases page : header.page with
    | false => rfl
    | true =>
      have other := others header.field
        (mem_map_of_mem (mem_filter.mpr ⟨member, page⟩))
      simpa [Header.field] using other
  simp only [supplied, insert, filter_append, same]
  simp

theorem supplied_orInsert (headers : List Header) (field : Field) :
    supplied (orInsert headers field) = supplied headers := by
  unfold orInsert
  split
  · rfl
  · simp [supplied]

theorem supplied_stamped (stamps : List Field) (headers : List Header) :
    supplied (stamps.foldl orInsert headers) = supplied headers := by
  induction stamps generalizing headers with
  | nil => rfl
  | cons field rest ih =>
    rw [foldl_cons, ih, supplied_orInsert]

theorem supplied_page (kept : List Field) :
    supplied (kept.map fun field => ⟨field.1, field.2, true⟩) = kept := by
  induction kept with
  | nil => rfl
  | cons field rest ih =>
    simp only [supplied, map_cons, filter_cons] at ih ⊢
    simp [ih, Header.field]

end Supplied

namespace ScriptHost
variable (host : ScriptHost Url)

theorem wireHeaders_supplied (url : Url) {kept : List Field}
    (allowed : ∀ field ∈ kept, forbiddenHeader field.1 = false) :
    supplied (host.wireHeaders url kept) = kept := by
  have referrer (headers : List Header) (same : supplied headers = kept) :
      supplied (host.insertReferrer url headers) = kept := by
    unfold insertReferrer
    split
    · split
      · rw [supplied_insert _ ?_, same]
        intro field member name
        rw [same] at member
        have dropped := allowed field member
        rw [name] at dropped
        exact absurd dropped (by decide)
      · exact same
    · exact same
  rw [wireHeaders, supplied_stamped]
  apply referrer
  rw [supplied_orInsert, supplied_page]

/-- What the page has supplied of a request that is ready for the network. -/
theorem prepare_supplied {request : NetRequest} {prepared : Prepared Url}
    (success : host.prepare request = .ok prepared) :
    prepared.wire.supplied = prepared.kept ∧
      ∀ field ∈ prepared.kept, forbiddenHeader field.1 = false := by
  obtain ⟨url, _, success⟩ := bind_ok success
  obtain ⟨method, _, success⟩ := bind_ok success
  obtain ⟨credentials, _, success⟩ := bind_ok success
  obtain ⟨kept, found, success⟩ := bind_ok success
  have allowed := keep_forbidden found
  have same := host.wireHeaders_supplied url allowed
  by_cases cross : host.crossOrigin url = true
  · rw [if_pos cross] at success
    obtain ⟨origin, _, success⟩ := bind_ok success
    cases success
    refine ⟨?_, allowed⟩
    apply (supplied_insert _ ?_).trans same
    intro field member name
    rw [same] at member
    have dropped := allowed field member
    rw [name] at dropped
    exact absurd dropped (by decide)
  · rw [if_neg cross] at success
    cases success
    exact ⟨same, allowed⟩

theorem preflight_supplied (prepared : Prepared Url) :
    (prepared.preflight host).supplied = [] := by
  have inserted (headers : List Header) (name value : Text) (none : supplied headers = []) :
      supplied (insert headers name value) = [] := by
    rw [supplied_insert value (fun field member => ?_), none]
    rw [none] at member
    cases member
  rw [FetchRequest.supplied, Prepared.preflight, supplied_orInsert]
  have basic := inserted _ "access-control-request-method".toList prepared.wire.method
    (inserted [] "origin".toList (Forms.latin host.requestOrigin) rfl)
  split
  · exact basic
  · exact inserted _ _ _ basic

def includes (request : NetRequest) : Bool := request.credentials = "include".toList

/-- The preflight's response allows the request that follows it. -/
structure Allows (request : NetRequest) (wire : FetchRequest Url)
    (response : FetchResponse Url) : Prop where
  success : 200 ≤ response.status ∧ response.status ≤ 299
  origin : Permits response.headers host.requestOrigin (includes request)
  method : AllowsMethod response.headers wire.method (includes request)
  headers : ∀ name ∈ unsafeNames wire.supplied,
    AllowsHeader response.headers (includes request) name

/-- What the gate promises of one exchange. -/
structure Guarded (network : Network Url) (request : NetRequest)
    (exchange : Exchange Url) : Prop where
  preflighted : ∀ wire ∈ exchange.wire, host.crossOrigin wire.url = true →
    (wire.method ∈ simpleMethods ∧ unsafeNames wire.supplied = []) ∨
      ∃ preflight ∈ exchange.preflight, preflight.url = wire.url ∧
        ∃ response, network 0 preflight = .ok response ∧ host.Allows request wire response
  permitted : ∀ reply, exchange.result = .ok reply → host.crossOrigin reply.url = true →
    ∃ wire ∈ exchange.wire, ∃ response,
      network exchange.preflight.toList.length wire = .ok response ∧ reply.url = response.url ∧
        Permits response.headers host.requestOrigin (includes request) ∧
        ∀ field ∈ reply.headers, field ∈ response.headers ∧
          Exposed response.headers (includes request) field.1 ∧ field.1 ≠ "set-cookie".toList
  forbidden : ∀ sent ∈ exchange.preflight.toList ++ exchange.wire.toList,
    ∀ field ∈ sent.supplied, forbidden field = false

/-- The header has one value at most, or none. -/
def Single (fields : List Field) (name : String) : Prop :=
  (values fields name.toList).length ≤ 1

/-- The values that an accepted response's check has read are all there are. -/
def SingleGrant (fields : List Field) (credentials : Bool) : Prop :=
  Single fields "access-control-allow-origin" ∧
    (credentials = true → Single fields "access-control-allow-credentials")

/-- The preflight of a request has been answered as the code wants it. -/
def Passes (network : Network Url) (request : NetRequest) (prepared : Prepared Url)
    (response : FetchResponse Url) : Prop :=
  prepared.needsPreflight host = true ∧ network 0 (prepared.preflight host) = .ok response ∧
    preflightAccepted response host.requestOrigin request.credentials prepared.wire.method
      prepared.unsafeHeaders = true

/-- The request itself is handed to the provider, the `count`-th. -/
def Sends (network : Network Url) (request : NetRequest) (prepared : Prepared Url) : Nat → Prop
  | 0 => prepared.needsPreflight host = false
  | 1 => ∃ response, host.Passes network request prepared response
  | _ => False

section Grants

theorem get_values {fields : List Field} {name : String} {value : Text}
    (found : get fields name = some value) :
    ∃ rest, values fields name.toList = value :: rest := by
  obtain ⟨first, head, shown⟩ := Option.bind_eq_some_iff.mp found
  obtain ⟨rest, listed⟩ := head?_eq_some_iff.mp head
  unfold toStr at shown
  split at shown
  · cases shown
    exact ⟨rest, listed⟩
  · cases shown

theorem requestOrigin_head : ∃ c rest, host.requestOrigin = c :: rest ∧ c ≠ '*' := by
  unfold requestOrigin
  cases host.base.bind host.origin with
  | none => exact ⟨'n', "ull".toList, rfl, by decide⟩
  | some origin =>
    obtain ⟨scheme, name, port⟩ := origin
    cases scheme with
    | http | https | ws | wss | ftp => exact ⟨_, _, rfl, by decide⟩

/-- Of the two values that are accepted, neither begins with the other. -/
theorem origin_apart {first whole : Text} (one : first = host.requestOrigin ∨ first = star)
    (other : whole = host.requestOrigin ∨ whole = star) (begins : first <+: whole) :
    first = whole := by
  obtain ⟨c, rest, origin, notStar⟩ := host.requestOrigin_head
  obtain ⟨tail, begins⟩ := begins
  rw [origin] at one other
  rcases one with rfl | rfl <;> rcases other with rfl | rfl
  · rfl
  · exact absurd (List.cons.inj begins).1 notStar
  · exact absurd (List.cons.inj begins).1.symm notStar
  · rfl

variable {response : FetchResponse Url}

/-- An accepted response permits the origin when it has no second value to add. -/
theorem permits_iff {request : NetRequest}
    (allowed : corsAllowed response host.requestOrigin request.credentials = true) :
    Permits response.headers host.requestOrigin (includes request) ↔
      SingleGrant response.headers (includes request) := by
  simp only [corsAllowed, Bool.and_eq_true, Bool.or_eq_true, decide_eq_true_eq] at allowed
  obtain ⟨granted, credentialed⟩ := allowed
  obtain ⟨value, found, either⟩ : ∃ value,
      get response.headers "access-control-allow-origin" = some value ∧
        (value = host.requestOrigin ∨ value = star ∧ includes request = false) := by
    rcases granted with origin | ⟨any, without⟩
    · exact ⟨_, origin, .inl rfl⟩
    · exact ⟨_, any, .inr ⟨rfl, decide_eq_false without⟩⟩
  obtain ⟨rest, listed⟩ := get_values found
  have accepted : value = host.requestOrigin ∨ value = star := either.imp_right And.left
  have grants : ∀ whole, (whole = host.requestOrigin ∨ whole = star) →
      combined response.headers "access-control-allow-origin".toList = some whole →
        Single response.headers "access-control-allow-origin" ∧ value = whole := by
    intro whole known joined
    have same := host.origin_apart accepted known (combined_longer listed joined)
    rw [← same] at joined
    exact ⟨(combined_first listed).mp joined, same⟩
  cases including : includes request with
  | false =>
    simp only [Permits, SingleGrant, including, Bool.false_eq_true, false_implies, and_true,
      true_and]
    constructor
    · rintro (joined | joined)
      · exact (grants _ (.inr rfl) joined).1
      · exact (grants _ (.inl rfl) joined).1
    · intro single
      have joined := (combined_first listed).mpr single
      rcases accepted with rfl | rfl
      · exact .inr joined
      · exact .inl joined
  | true =>
    have origin : value = host.requestOrigin := by
      rcases either with same | ⟨_, without⟩
      · exact same
      · exact Bool.noConfusion (including.symm.trans without)
    have credentials : get response.headers "access-control-allow-credentials" =
        some "true".toList := by
      rcases credentialed with without | found
      · exact absurd (of_decide_eq_true including) without
      · exact found
    obtain ⟨others, same⟩ := get_values credentials
    simp only [Permits, SingleGrant, including, Bool.true_eq_false, false_and, false_or,
      true_implies]
    rw [← origin]
    exact and_congr (combined_first listed) (combined_first same)

theorem mem_headerTokens {header : String} {name : Text}
    (listed : name ∈ headerTokens response header) :
    ∃ token ∈ tokens response.headers header.toList, lower token = name := by
  obtain ⟨value, member, listed⟩ := mem_flatMap.mp listed
  obtain ⟨piece, inside, rfl⟩ := mem_map.mp listed
  obtain ⟨raw, found, shown⟩ := mem_filterMap.mp member
  unfold toStr at shown
  split at shown
  · cases shown
    exact ⟨strip piece, mem_flatMap.mpr ⟨_, found, mem_map_of_mem inside⟩, rfl⟩
  · cases shown

theorem lower_star {text : Text} (same : lower text = star) : text = star := by
  have letter (c : Char) (lowered : c.toLower = '*') : c = '*' := by
    unfold Char.toLower at lowered
    split at lowered
    · rename_i upper
      have code : c.val + ('a'.val - 'A'.val) = '*'.val := congrArg Char.val lowered
      obtain ⟨low, high⟩ := upper
      rw [← UInt32.toNat_inj, UInt32.toNat_add] at code
      rw [ge_iff_le, UInt32.le_iff_toNat_le] at low
      rw [UInt32.le_iff_toNat_le] at high
      have bounds : 'A'.val.toNat = 65 ∧ 'Z'.val.toNat = 90 ∧ '*'.val.toNat = 42 ∧
        ('a'.val - 'A'.val).toNat = 32 := by decide
      omega
    · exact lowered
  match text, same with
  | [], same => cases same
  | [c], same => rw [letter c (List.cons.inj same).1]; rfl
  | _ :: _ :: _, same => cases (List.cons.inj same).2

theorem star_headerTokens {header : String} (listed : star ∈ headerTokens response header) :
    star ∈ tokens response.headers header.toList := by
  obtain ⟨token, member, same⟩ := mem_headerTokens listed
  rw [lower_star same] at member
  exact member

end Grants

/-- None of what the code reads otherwise than the Fetch standard decides anything. -/
structure Regular (network : Network Url) (request : NetRequest)
    (prepared : Prepared Url) : Prop where
  safelisted : host.crossOrigin prepared.wire.url = true →
    prepared.needsPreflight host = false → Plain prepared.kept
  spelled : ∀ response, host.Passes network request prepared response →
    (prepared.wire.method ∈ simpleMethods → unsafeNames prepared.kept ≠ []) →
    SingleGrant response.headers (includes request) ∧
      AllowsMethod response.headers prepared.wire.method (includes request) ∧
      ∀ field ∈ prepared.kept, safelistedHeader field = true →
        (Harmless field → 1024 < safelistSize prepared.kept) →
          AllowsHeader response.headers (includes request) field.1
  granted : ∀ count response, host.Sends network request prepared count →
    network count prepared.wire = .ok response → host.crossOrigin response.url = true →
    corsAllowed response host.requestOrigin request.credentials = true →
    SingleGrant response.headers (includes request)
  permitted : ∀ count, host.Sends network request prepared count →
    ∀ field ∈ prepared.kept, field.1 ≠ "set-cookie".toList ∧ overridesMethod field = false

def HoldsWhen (network : Network Url) (request : NetRequest) : Prop :=
  ∀ prepared, host.prepare request = .ok prepared → host.Regular network request prepared

section Preflights
variable {host} {request : NetRequest} {prepared : Prepared Url} {response : FetchResponse Url}

theorem allowsHeader_accepted
    (accepted : preflightAccepted response host.requestOrigin request.credentials
      prepared.wire.method prepared.unsafeHeaders = true) :
    ∀ name ∈ prepared.unsafeHeaders, AllowsHeader response.headers (includes request) name := by
  intro name member
  simp only [preflightAccepted, Bool.and_eq_true, all_eq_true] at accepted
  have allowed := accepted.2 name member
  simp only [Bool.or_eq_true, Bool.and_eq_true, contains_eq_mem, decide_eq_true_eq] at allowed
  rcases allowed with listed | ⟨⟨any, without⟩, other⟩
  · obtain ⟨token, found, same⟩ := mem_headerTokens listed
    exact .inl (mem_map.mpr ⟨token, found, same⟩)
  · exact .inr ⟨decide_eq_false without, other, star_headerTokens any⟩

/-- An accepted preflight allows the request when nothing rests on what the code overlooks. -/
theorem allows_iff (same : prepared.wire.supplied = prepared.kept)
    (accepted : preflightAccepted response host.requestOrigin request.credentials
      prepared.wire.method prepared.unsafeHeaders = true) :
    host.Allows request prepared.wire response ↔
      SingleGrant response.headers (includes request) ∧
        AllowsMethod response.headers prepared.wire.method (includes request) ∧
        ∀ field ∈ prepared.kept, safelistedHeader field = true →
          (Harmless field → 1024 < safelistSize prepared.kept) →
            AllowsHeader response.headers (includes request) field.1 := by
  have headers := allowsHeader_accepted accepted
  simp only [preflightAccepted, Bool.and_eq_true] at accepted
  obtain ⟨⟨⟨success, origin⟩, _⟩, _⟩ := accepted
  have grant := host.permits_iff origin
  constructor
  · intro allows
    refine ⟨grant.mp allows.origin, allows.method, ?_⟩
    intro field member listed large
    apply allows.headers
    rw [same]
    apply mem_unsafeNames.mpr
    refine ⟨field, member, rfl, ?_⟩
    cases harmless : safelisted field with
    | false => exact .inl rfl
    | true => exact .inr (large ((safelisted_iff listed).mp harmless))
  · rintro ⟨single, method, allowed⟩
    refine ⟨?_, grant.mpr single, method, ?_⟩
    · simp only [isSuccess, Bool.and_eq_true, decide_eq_true_eq] at success
      omega
    · intro name member
      rw [same] at member
      obtain ⟨field, found, rfl, listed⟩ := mem_unsafeNames.mp member
      cases known : safelistedHeader field with
      | false =>
        apply headers
        exact mem_map_of_mem (mem_filter.mpr ⟨found, by rw [known]; rfl⟩)
      | true =>
        apply allowed field found known
        intro harmless
        rcases listed with unlisted | large
        · rw [(safelisted_iff known).mpr harmless] at unlisted
          cases unlisted
        · exact large

theorem plain_iff (cross : host.crossOrigin prepared.wire.url = true)
    (unneeded : prepared.needsPreflight host = false) :
    prepared.wire.method ∈ simpleMethods ∧
      (unsafeNames prepared.kept = [] ↔ Plain prepared.kept) := by
  simp only [Prepared.needsPreflight, cross, Bool.true_and, Bool.or_eq_false_iff,
    Bool.not_eq_false', decide_eq_false_iff_not, not_not] at unneeded
  obtain ⟨method, none⟩ := unneeded
  refine ⟨contains_iff_mem.mp method, ?_⟩
  have listed : ∀ field ∈ prepared.kept, safelistedHeader field = true := by
    intro field member
    have empty := filter_eq_nil_iff.mp (map_eq_nil_iff.mp none) field member
    simpa using empty
  rw [unsafeNames_nil, Plain]
  apply and_congr_left'
  constructor
  · exact fun safe field member => (safelisted_iff (listed field member)).mp (safe field member)
  · exact fun plain field member => (safelisted_iff (listed field member)).mpr (plain field member)

end Preflights

section Replies
variable {host} {request : NetRequest} {response : FetchResponse Url} {reply : Reply Url}

theorem reply_ok (success : host.reply response request.credentials = .ok reply) :
    (host.crossOrigin response.url = true →
        corsAllowed response host.requestOrigin request.credentials = true) ∧
      reply.url = response.url ∧
      reply.headers = host.replyHeaders response request.credentials := by
  unfold ScriptHost.reply at success
  split at success
  · cases success
  · rename_i allowed
    cases success
    refine ⟨?_, rfl, rfl⟩
    intro cross
    simpa [cross] using allowed

theorem reply_exists (allowed : host.crossOrigin response.url = true →
      corsAllowed response host.requestOrigin request.credentials = true) :
    ∃ reply, host.reply response request.credentials = .ok reply ∧
      reply.url = response.url := by
  unfold ScriptHost.reply
  split
  · rename_i rejected
    simp only [Bool.and_eq_true, Bool.not_eq_true'] at rejected
    rw [allowed rejected.1] at rejected
    cases rejected.2
  · exact ⟨_, rfl, rfl⟩

theorem replyHeaders_exposed {field : Field}
    (member : field ∈ host.replyHeaders response request.credentials) :
    field ∈ response.headers ∧ field.1 ≠ "set-cookie".toList ∧
      (host.crossOrigin response.url = true →
        Exposed response.headers (includes request) field.1) := by
  obtain ⟨original, shown, same⟩ := mem_filterMap.mp member
  obtain ⟨value, text, rfl⟩ := Option.map_eq_some_iff.mp same
  obtain ⟨found, kept⟩ := mem_filter.mp shown
  have unchanged : value = original.2 := by
    unfold toStr at text
    split at text
    · exact (Option.some.inj text).symm
    · cases text
  subst unchanged
  simp only [Bool.and_eq_true, Bool.or_eq_true, Bool.not_eq_true', contains_eq_mem,
    decide_eq_false_iff_not, decide_eq_true_eq] at kept
  refine ⟨found, ?_, ?_⟩
  · intro name
    apply kept.1
    rw [name]
    decide
  · intro cross
    rcases kept.2 with ((sameOrigin | always) | named) | ⟨without, any⟩
    · exact Bool.noConfusion (cross.symm.trans sameOrigin)
    · exact .inl always
    · obtain ⟨token, found, lowered⟩ := mem_headerTokens named
      exact .inr (.inl (mem_map.mpr ⟨token, found, lowered⟩))
    · exact .inr (.inr ⟨decide_eq_false without, star_headerTokens any⟩)

end Replies

section Sending
variable {host} {network : Network Url} {request : NetRequest} {prepared : Prepared Url}
  {preflight : Option (FetchRequest Url)}

theorem send_permitted :
    (∀ reply, (host.send network request prepared preflight).result = .ok reply →
        host.crossOrigin reply.url = true →
        ∃ wire ∈ some prepared.wire, ∃ response,
          network preflight.toList.length wire = .ok response ∧ reply.url = response.url ∧
            Permits response.headers host.requestOrigin (includes request) ∧
            ∀ field ∈ reply.headers, field ∈ response.headers ∧
              Exposed response.headers (includes request) field.1 ∧
              field.1 ≠ "set-cookie".toList) ↔
      ∀ response, network preflight.toList.length prepared.wire = .ok response →
        host.crossOrigin response.url = true →
        corsAllowed response host.requestOrigin request.credentials = true →
        SingleGrant response.headers (includes request) := by
  constructor
  · intro promise response answer cross allowed
    obtain ⟨reply, success, url⟩ := reply_exists (fun _ => allowed)
    have result : (host.send network request prepared preflight).result = .ok reply := by
      rw [send, answer]
      exact success
    rw [← url] at cross
    obtain ⟨wire, same, other, found, _, permits, _⟩ := promise reply result cross
    cases same
    rw [answer] at found
    cases found
    exact (host.permits_iff allowed).mp permits
  · intro single reply result cross
    obtain ⟨response, answer, success⟩ := bind_ok result
    obtain ⟨allowed, url, headers⟩ := reply_ok success
    rw [url] at cross
    refine ⟨prepared.wire, rfl, response, answer, url, ?_, ?_⟩
    · exact (host.permits_iff (allowed cross)).mpr (single response answer cross (allowed cross))
    · intro field member
      rw [headers] at member
      obtain ⟨known, notCookie, exposed⟩ := replyHeaders_exposed member
      exact ⟨known, exposed cross, notCookie⟩

/-- The part of the promise about what the page has put into the requests. -/
theorem send_forbidden (same : prepared.wire.supplied = prepared.kept)
    (allowed : ∀ field ∈ prepared.kept, forbiddenHeader field.1 = false)
    (plain : ∀ sent ∈ preflight, sent.supplied = []) :
    (∀ sent ∈ preflight.toList ++ [prepared.wire], ∀ field ∈ sent.supplied,
        forbidden field = false) ↔
      ∀ field ∈ prepared.kept,
        field.1 ≠ "set-cookie".toList ∧ overridesMethod field = false := by
  constructor
  · intro free field member
    apply (forbidden_iff (allowed field member)).mp
    rw [← same] at member
    exact free prepared.wire (mem_append_right _ (mem_singleton_self _)) field member
  · intro free sent member field inside
    rcases mem_append.mp member with before | last
    · rw [plain sent (Option.mem_toList.mp before)] at inside
      cases inside
    · rw [mem_singleton.mp last, same] at inside
      exact (forbidden_iff (allowed field inside)).mpr (free field inside)

end Sending

theorem guarded_unsent (network : Network Url) (request : NetRequest)
    (preflight : Option (FetchRequest Url)) (error : String)
    (plain : ∀ sent ∈ preflight, sent.supplied = []) :
    host.Guarded network request ⟨preflight, none, .error error⟩ where
  preflighted := by
    intro wire sent
    cases sent
  permitted := by
    intro reply result
    cases result
  forbidden := by
    intro sent member field inside
    rw [Option.toList_none, append_nil] at member
    rw [plain sent (Option.mem_toList.mp member)] at inside
    cases inside

section
variable {network : Network Url} {request : NetRequest} {prepared : Prepared Url}

theorem regular_unsent (needed : prepared.needsPreflight host = true)
    (refused : ∀ response, ¬ host.Passes network request prepared response) :
    host.Regular network request prepared := by
  have unsent : ∀ count, ¬ host.Sends network request prepared count := by
    intro count sends
    match count, sends with
    | 0, unneeded => exact Bool.noConfusion (needed.symm.trans unneeded)
    | 1, ⟨response, passes⟩ => exact refused response passes
  constructor
  · exact fun _ unneeded => Bool.noConfusion (needed.symm.trans unneeded)
  · exact fun response passes => absurd passes (refused response)
  · exact fun count _ sends => absurd sends (unsent count)
  · exact fun count sends => absurd sends (unsent count)

theorem guarded_simple (same : prepared.wire.supplied = prepared.kept)
    (allowed : ∀ field ∈ prepared.kept, forbiddenHeader field.1 = false)
    (unneeded : prepared.needsPreflight host = false) :
    host.Guarded network request (host.send network request prepared none) ↔
      host.Regular network request prepared := by
  have noPreflight : ∀ response, ¬ host.Passes network request prepared response :=
    fun _ passes => Bool.noConfusion (unneeded.symm.trans passes.1)
  have plain : ∀ sent ∈ (none : Option (FetchRequest Url)), sent.supplied = [] := by
    intro sent member
    cases member
  constructor
  · intro guarded
    have kept := (send_forbidden same allowed plain).mp guarded.forbidden
    constructor
    · intro cross _
      rcases guarded.preflighted prepared.wire rfl cross with ⟨_, safe⟩ | ⟨_, member, _⟩
      · rw [same] at safe
        exact (plain_iff cross unneeded).2.mp safe
      · cases member
    · exact fun response passes => absurd passes (noPreflight response)
    · intro count response sends answer
      match count, sends with
      | 0, _ => exact send_permitted.mp guarded.permitted response answer
      | 1, ⟨other, passes⟩ => exact absurd passes (noPreflight other)
    · exact fun _ _ => kept
  · intro regular
    constructor
    · intro wire sent cross
      cases sent
      obtain ⟨method, plain⟩ := plain_iff cross unneeded
      left
      refine ⟨method, ?_⟩
      exact (congrArg unsafeNames same).trans (plain.mpr (regular.safelisted cross unneeded))
    · exact send_permitted.mpr fun response => regular.granted 0 response unneeded
    · exact (send_forbidden same allowed plain).mpr (regular.permitted 0 unneeded)

theorem guarded_preflighted {response : FetchResponse Url}
    (same : prepared.wire.supplied = prepared.kept)
    (allowed : ∀ field ∈ prepared.kept, forbiddenHeader field.1 = false)
    (passes : host.Passes network request prepared response) :
    host.Guarded network request
        (host.send network request prepared (some (prepared.preflight host))) ↔
      host.Regular network request prepared := by
  obtain ⟨needed, answer, accepted⟩ := passes
  have cross : host.crossOrigin prepared.wire.url = true :=
    (Bool.and_eq_true_iff.mp needed).1
  have plain : ∀ sent ∈ some (prepared.preflight host), sent.supplied = [] := by
    rintro sent ⟨⟩
    exact host.preflight_supplied prepared
  constructor
  · intro guarded
    have kept := (send_forbidden same allowed plain).mp guarded.forbidden
    constructor
    · exact fun _ unneeded => Bool.noConfusion (needed.symm.trans unneeded)
    · rintro other ⟨_, found, _⟩ wanted
      rw [answer] at found
      cases found
      have promised := guarded.preflighted prepared.wire rfl cross
      rcases promised with ⟨method, safe⟩ | ⟨_, ⟨⟩, _, found⟩
      · rw [same] at safe
        exact absurd safe (wanted method)
      · obtain ⟨other, found, allows⟩ := found
        rw [answer] at found
        cases found
        exact (allows_iff same accepted).mp allows
    · intro count other sends
      match count, sends with
      | 0, unneeded => exact Bool.noConfusion (needed.symm.trans unneeded)
      | 1, _ => exact send_permitted.mp guarded.permitted other
    · exact fun _ _ => kept
  · intro regular
    constructor
    · rintro wire ⟨⟩ _
      rw [same]
      by_cases safe : prepared.wire.method ∈ simpleMethods ∧ unsafeNames prepared.kept = []
      · exact .inl safe
      · right
        refine ⟨_, rfl, rfl, response, answer, ?_⟩
        apply (allows_iff same accepted).mpr
        apply regular.spelled response ⟨needed, answer, accepted⟩
        exact fun method none => safe ⟨method, none⟩
    · exact send_permitted.mpr fun other =>
        regular.granted 1 other ⟨response, needed, answer, accepted⟩
    · exact (send_forbidden same allowed plain).mpr
        (regular.permitted 1 ⟨response, needed, answer, accepted⟩)

end

/-- The gate keeps its promise exactly when nothing that the code reads otherwise than the
standard decides whether a request is sent or a response is shown. -/
theorem gated_iff (network : Network Url) (request : NetRequest) :
    host.Guarded network request (host.performInner network request) ↔
      host.HoldsWhen network request := by
  cases success : host.prepare request with
  | error error =>
    have unsent : host.performInner network request = ⟨none, none, .error error⟩ := by
      simp only [performInner, success]
    rw [unsent]
    apply iff_of_true
    · apply guarded_unsent
      intro sent member
      cases member
    · intro prepared ready
      rw [success] at ready
      cases ready
  | ok prepared =>
    obtain ⟨same, allowed⟩ := host.prepare_supplied success
    have condition : host.HoldsWhen network request ↔ host.Regular network request prepared := by
      constructor
      · exact fun holds => holds prepared success
      · intro regular other ready
        rw [success] at ready
        cases ready
        exact regular
    rw [condition]
    cases needed : prepared.needsPreflight host with
    | false =>
      have sent : host.performInner network request = host.send network request prepared none := by
        simp [performInner, success, needed]
      rw [sent]
      exact host.guarded_simple same allowed needed
    | true =>
      have plain : ∀ sent ∈ some (prepared.preflight host), sent.supplied = [] := by
        rintro sent ⟨⟩
        exact host.preflight_supplied prepared
      cases answer : network 0 (prepared.preflight host) with
      | error error =>
        have unsent : host.performInner network request =
            ⟨some (prepared.preflight host), none, .error error⟩ := by
          simp [performInner, success, needed, answer]
        rw [unsent]
        apply iff_of_true (host.guarded_unsent network request _ error plain)
        apply host.regular_unsent needed
        rintro response ⟨_, found, _⟩
        rw [answer] at found
        cases found
      | ok response =>
        cases accepted : preflightAccepted response host.requestOrigin request.credentials
            prepared.wire.method prepared.unsafeHeaders with
        | false =>
          have unsent : host.performInner network request =
              ⟨some (prepared.preflight host), none, .error "CORS preflight rejected"⟩ := by
            simp [performInner, success, needed, answer, accepted]
          rw [unsent]
          apply iff_of_true (host.guarded_unsent network request _ _ plain)
          apply host.regular_unsent needed
          rintro other ⟨_, found, passed⟩
          rw [answer] at found
          cases found
          exact Bool.noConfusion (accepted.symm.trans passed)
        | true =>
          have sent : host.performInner network request =
              host.send network request prepared (some (prepared.preflight host)) := by
            simp [performInner, success, needed, answer, accepted]
          rw [sent]
          exact host.guarded_preflighted same allowed ⟨needed, answer, accepted⟩

/-- A document and one other site, both over HTTPS. -/
def twoSites : ScriptHost Bool where
  base := some false
  parse := fun _ _ => .ok true
  scheme := fun _ => "https".toList
  username := fun _ => []
  password := fun _ => none
  origin := fun other => some ⟨.https, if other then "b.test".toList else "a.test".toList, 443⟩
  dropFragment := id
  bare := id
  href := fun _ => "https://a.test/".toList
  blocked := fun _ => none
  acceptLanguage := "en-US,en;q=0.9".toList
  stamps := fun _ => []
  canonicalReason := fun _ => none
  decodeBody := fun _ => []

/-- An `accept` header with parentheses goes to another site without a preflight. -/
theorem not_guarded_accept :
    ∃ network request,
      ¬ twoSites.Guarded network request (twoSites.performInner network request) := by
  refine ⟨fun _ _ => .error "offline",
    { url := "https://b.test/".toList, headers := [("Accept".toList, "text/(x)".toList)] }, ?_⟩
  intro guarded
  have promised := guarded.preflighted _ rfl (by decide)
  rcases promised with ⟨_, safe⟩ | ⟨_, ⟨⟩, _⟩
  exact absurd safe (by decide)

end ScriptHost
end Chuzz.PageNet
