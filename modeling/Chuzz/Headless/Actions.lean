import Chuzz.Headless.Policy

/-! What the bot child may do to a page: the context of an action is gathered on the way
up from its element. The document's parser of relative URLs is a parameter. -/
namespace Chuzz.Headless
open List
open Webrtc (Text text)

structure Element where
  tag : Text
  /-- Local names and values, in order. -/
  attrs : List (Text × Text) := []
deriving DecidableEq, Repr

inductive NodeData where
  | text (content : Text)
  | element (element : Element)
  | other
deriving DecidableEq, Repr

structure Node where
  data : NodeData
  parent : Option Nat := none
  children : List Nat := []
deriving DecidableEq, Repr

/-- The nodes by their number, and how the document's URL joins another. -/
structure Document where
  getNode : Nat → Option Node
  join : Text → Option Url

structure ActionContext where
  targetTag : Option Text := none
  targetType : Text := []
  hasForm : Bool := false
  maySubmit : Bool := false
  sensitive : Bool := false
  download : Bool := false
  newWindow : Bool := false
  href : Option Text := none
  formAction : Option Text := none
deriving DecidableEq, Repr

/-- The loop of `bounded_descendant_text`, over nodes still to visit, the next first. -/
def descendantText (document : Document) (maxChars : Nat) :
    (fuel : Nat) → Text → List (Nat × Nat) → Text
  | 0, sample, _ => sample
  | _ + 1, sample, [] => sample
  | fuel + 1, sample, (id, depth) :: pending =>
    if maxChars ≤ sample.length ∨ 96 ≤ pending.length then sample
    else
      match document.getNode id with
      | none => descendantText document maxChars fuel sample pending
      | some node =>
        match node.data with
        | .text content =>
          descendantText document maxChars fuel
            (sample ++ content.take (maxChars - sample.length)) pending
        | _ =>
          if depth < 3 then
            let children := (node.children.reverse.take 96).reverse
            descendantText document maxChars fuel sample
              (children.map (·, depth + 1) ++ pending)
          else descendantText document maxChars fuel sample pending

/-- A node at some depth brings 96 nodes at most, each one deeper. -/
def workLeft (pending : List (Nat × Nat)) : Nat :=
  (pending.map fun (_, depth) => 97 ^ (3 - depth)).sum

def boundedDescendantText (document : Document) (root maxChars : Nat) : Text :=
  descendantText document maxChars (workLeft [(root, 0)]) [] [(root, 0)]

def restrictedWords : List Text :=
  ["signin", "login", "password", "payment", "checkout", "reserve", "reservation", "purchase",
    "register", "billing", "email", "username", "phone", "telephone", "passport", "otp", "cc",
    "cvv", "cvc", "book"].map text

def restrictedPairs : List (Text × Text) :=
  [("sign", "in"), ("log", "in"), ("pay", "now"), ("place", "order"), ("create", "account"),
    ("account", "creation"), ("sign", "up"), ("current", "password"), ("new", "password"),
    ("cc", "number"), ("credit", "card"), ("card", "number"), ("first", "name"),
    ("last", "name"), ("full", "name"), ("given", "name"), ("family", "name"),
    ("passenger", "name"), ("traveler", "name"), ("traveller", "name"),
    ("birth", "date")].map fun (first, second) => (text first, text second)

def pairIs (first second : Text) (expected : Text × Text) : Bool :=
  first.eqIgnoreAsciiCase expected.1 && second.eqIgnoreAsciiCase expected.2

/-- A word that is restricted, alone or behind the two before it. -/
def restricted (older previous word : Text) : Bool :=
  let restrictedWord := restrictedWords.any word.eqIgnoreAsciiCase ||
    ((text "booking").length ≤ word.length &&
      Text.eqIgnoreAsciiCase (word.take (text "booking").length) (text "booking"))
  let restrictedPair := restrictedPairs.any (pairIs previous word)
  let restrictedTriple :=
    (pairIs older previous (text "one", text "time") && word.eqIgnoreAsciiCase (text "code")) ||
      (pairIs older previous (text "date", text "of") && word.eqIgnoreAsciiCase (text "birth"))
  restrictedWord || restrictedPair || restrictedTriple

def anyRestricted : (older previous : Text) → List Text → Bool
  | _, _, [] => false
  | older, previous, word :: rest =>
    restricted older previous word || anyRestricted previous word rest

def sensitiveSurface (value : Text) : Bool :=
  anyRestricted [] []
    ((value.splitOnP fun c => !Text.isAsciiAlphanumeric c).filter (· ≠ []))

example : ["Sign in", "Pay now", "Book flight", "Search available flights", "Facebook"].map
    (fun label => sensitiveSurface (text label)) = [true, true, true, false, false] := by
  decide

def policyAttributes : List String :=
  ["type", "name", "id", "role", "aria-label", "title", "placeholder", "autocomplete", "href",
    "action", "formaction", "method", "formmethod"]

namespace Element

def attr (element : Element) (name : String) : Option Text :=
  (element.attrs.find? (·.1 = text name)).map (·.2)

def lowerTag (element : Element) : Text := element.tag.toAsciiLowercase

def elementType (element : Element) : Text :=
  ((element.attr "type").getD []).toAsciiLowercase

end Element

/-- The context on the way up, with the three flags that are kept beside it. -/
structure Gathering where
  context : ActionContext := {}
  hasButtonRole : Bool := false
  hasClickHandler : Bool := false
  hasSubmitControl : Bool := false
deriving DecidableEq, Repr

/-- What an element adds to the context. -/
def visit (document : Document) (gathering : Gathering) (depth id : Nat) (element : Element) :
    Gathering :=
  let { context, hasButtonRole, hasClickHandler, hasSubmitControl } := gathering
  let tag := element.lowerTag
  let elementType := element.elementType
  let formAction := context.formAction <|> element.attr "formaction"
  { context :=
      { context with
        targetTag := context.targetTag <|> some tag
        targetType := if depth = 0 then elementType else context.targetType
        sensitive := context.sensitive ||
          (policyAttributes.any fun name => (element.attr name).any sensitiveSurface) ||
          sensitiveSurface (boundedDescendantText document id 192)
        hasForm := context.hasForm || (tag = text "form" || (element.attr "form").isSome)
        formAction :=
          if tag = text "form" ∧ formAction = none then element.attr "action" else formAction
        href := if context.href = none ∧ tag = text "a" then element.attr "href"
          else context.href
        download := context.download || (element.attr "download").isSome
        newWindow := context.newWindow || element.attr "target" = some (text "_blank") }
    hasButtonRole := hasButtonRole || (element.attr "role").any fun role =>
      role.eqIgnoreAsciiCase (text "button") || role.eqIgnoreAsciiCase (text "menuitem")
    hasClickHandler := hasClickHandler || (element.attr "onclick").isSome
    hasSubmitControl := hasSubmitControl ||
      (tag = text "button" &&
        !(elementType = text "button" || elementType = text "reset")) ||
      (tag = text "input" && (elementType = text "submit" || elementType = text "image")) }

/-- The loop of `action_context`, with the levels that it may still look at. -/
def gather (document : Document) :
    (left depth : Nat) → Option Nat → Gathering → Option Gathering
  | _, _, none, gathering => some gathering
  | 0, _, some _, gathering => some gathering
  | left + 1, depth, some id, gathering =>
    match document.getNode id with
    | none => none
    | some node =>
      let gathering := match node.data with
        | .element element => visit document gathering depth id element
        | _ => gathering
      gather document left (depth + 1) node.parent gathering

def maxLevels : Nat := 16

def actionContext (document : Document) (nodeId : Nat) : Option ActionContext :=
  (gather document maxLevels 0 (some nodeId) {}).map fun gathered =>
    { gathered.context with
      maySubmit := gathered.context.hasForm &&
        (gathered.hasSubmitControl || gathered.hasButtonRole || gathered.hasClickHandler) }

structure DebugError where
  code : String
  message : String
deriving DecidableEq, Repr

def policyDenial (message : String) : DebugError := { code := "policyDenied", message }

def submitNeedsPermission (policy : HeadlessPolicy) (context : ActionContext) : Bool :=
  context.maySubmit && !policy.allowFormSubmit

/-- The number counts the calls of the resolver, here and below. -/
def validateActionUrl (policy : HeadlessPolicy) (resolver : Resolver) (document : Document)
    (value : Text) (calls : Nat) : Except DebugError Unit × Nat :=
  match document.join value with
  | none => (.error (policyDenial "the action URL is invalid"), calls)
  | some destination =>
    match policy.validateUrl resolver calls destination with
    | (.ok _, calls) => (.ok (), calls)
    | (.error _, calls) =>
      (.error (policyDenial "the action URL is outside the browser policy"), calls)

def validateOptional (policy : HeadlessPolicy) (resolver : Resolver) (document : Document)
    (value : Option Text) (calls : Nat) : Except DebugError Unit × Nat :=
  match value with
  | none => (.ok (), calls)
  | some value => validateActionUrl policy resolver document value calls

inductive AgentAction where
  | click (nodeId : Nat)
  | setValue (nodeId : Nat) (value : Text)
  | scrollIntoView
  | scrollBy
  /-- Input of another kind. -/
  | other
deriving DecidableEq, Repr

def maxFillBytes : Nat := 512

def authorizeClick (policy : HeadlessPolicy) (resolver : Resolver) (document : Document)
    (nodeId calls : Nat) : Except DebugError Unit × Nat :=
  match actionContext document nodeId with
  | none => (.error (policyDenial "the live target could not be inspected"), calls)
  | some context =>
    if context.sensitive then
      (.error (policyDenial "this control belongs to a restricted action"), calls)
    else if context.download || context.newWindow then
      (.error (policyDenial "downloads and new browsing contexts are disabled"), calls)
    else if submitNeedsPermission policy context then
      (.error (policyDenial "form submission requires explicit permission from the caller"), calls)
    else
      match validateOptional policy resolver document context.href calls with
      | (.error error, calls) => (.error error, calls)
      | (.ok _, calls) =>
        validateOptional policy resolver document
          (if context.maySubmit then context.formAction.filter (· ≠ []) else none) calls

def authorizeSetValue (document : Document) (nodeId : Nat) (value : Text) :
    Except DebugError Unit :=
  if maxFillBytes < value.bytes then
    .error (policyDenial "the field value exceeds the input limit")
  else
    match actionContext document nodeId with
    | none => .error (policyDenial "the live target could not be inspected")
    | some context =>
      if context.sensitive then
        .error (policyDenial "this field belongs to a restricted action")
      else
        let editable := match context.targetTag with
          | some tag =>
            tag = text "textarea" || tag = text "select" ||
              (tag = text "input" && (["", "text", "search", "date", "month", "week", "time",
                "number"].map text).contains context.targetType)
          | none => false
        if editable then .ok ()
        else .error (policyDenial "only ordinary search fields may be filled")

def authorizeAction (policy : HeadlessPolicy) (resolver : Resolver) (document : Document)
    (action : AgentAction) (calls : Nat) : Except DebugError Unit × Nat :=
  if policy.botChild = false then (.ok (), calls)
  else
    match action with
    | .click nodeId => authorizeClick policy resolver document nodeId calls
    | .setValue nodeId value => (authorizeSetValue document nodeId value, calls)
    | .scrollIntoView | .scrollBy => (.ok (), calls)
    | .other =>
      (.error (policyDenial "this action is not part of the bot browser control surface"), calls)

/-- The elements among the first nodes on the way up. -/
def chain (document : Document) : (levels : Nat) → Option Nat → List (Nat × Element)
  | levels + 1, some id =>
    match document.getNode id with
    | none => []
    | some node =>
      match node.data with
      | .element element => (id, element) :: chain document levels node.parent
      | _ => chain document levels node.parent
  | _, _ => []

namespace Element

def SensitiveAttribute (element : Element) : Prop :=
  ∃ name ∈ policyAttributes, ∃ value, element.attr name = some value ∧ sensitiveSurface value

def sensitive (document : Document) (id : Nat) (element : Element) : Bool :=
  (policyAttributes.any fun name => (element.attr name).any sensitiveSurface) ||
    sensitiveSurface (boundedDescendantText document id 192)

def isForm (element : Element) : Bool :=
  element.lowerTag = text "form" || (element.attr "form").isSome

def download (element : Element) : Bool := (element.attr "download").isSome

def newWindow (element : Element) : Bool := element.attr "target" = some (text "_blank")

def buttonRole (element : Element) : Bool :=
  (element.attr "role").any fun role =>
    role.eqIgnoreAsciiCase (text "button") || role.eqIgnoreAsciiCase (text "menuitem")

def clickHandler (element : Element) : Bool := (element.attr "onclick").isSome

def submitControl (element : Element) : Bool :=
  (element.lowerTag = text "button" &&
    !(element.elementType = text "button" || element.elementType = text "reset")) ||
  (element.lowerTag = text "input" &&
    (element.elementType = text "submit" || element.elementType = text "image"))

def submits (element : Element) : Bool :=
  element.submitControl || element.buttonRole || element.clickHandler

def anchorHref (element : Element) : Option Text :=
  if element.lowerTag = text "a" then element.attr "href" else none

def ownFormAction (element : Element) : Option Text :=
  element.attr "formaction" <|>
    if element.lowerTag = text "form" then element.attr "action" else none

end Element

/-- The context after some elements: no flag is lost, and the first entry stays. -/
structure Gathers (document : Document) (before after : Gathering)
    (elements : List (Nat × Element)) : Prop where
  sensitive : after.context.sensitive =
    (before.context.sensitive || elements.any fun (id, element) => element.sensitive document id)
  hasForm : after.context.hasForm = (before.context.hasForm || elements.any (·.2.isForm))
  download : after.context.download = (before.context.download || elements.any (·.2.download))
  newWindow : after.context.newWindow = (before.context.newWindow || elements.any (·.2.newWindow))
  buttonRole : after.hasButtonRole = (before.hasButtonRole || elements.any (·.2.buttonRole))
  clickHandler : after.hasClickHandler =
    (before.hasClickHandler || elements.any (·.2.clickHandler))
  submitControl : after.hasSubmitControl =
    (before.hasSubmitControl || elements.any (·.2.submitControl))
  href : after.context.href = (before.context.href <|> elements.findSome? (·.2.anchorHref))
  formAction : after.context.formAction =
    (before.context.formAction <|> elements.findSome? (·.2.ownFormAction))

variable {document : Document}

theorem Gathers.refl (gathering : Gathering) : Gathers document gathering gathering [] := by
  constructor <;> simp

theorem Gathers.visit {after gathering : Gathering} {depth id : Nat} {element : Element}
    {elements : List (Nat × Element)}
    (later : Gathers document (visit document gathering depth id element) after elements) :
    Gathers document gathering after ((id, element) :: elements) := by
  constructor
  · rw [later.sensitive, any_cons, ← Bool.or_assoc]
    congr 1
    simp [Headless.visit, Element.sensitive, Bool.or_assoc]
  · rw [later.hasForm, any_cons, ← Bool.or_assoc]
    rfl
  · rw [later.download, any_cons, ← Bool.or_assoc]
    rfl
  · rw [later.newWindow, any_cons, ← Bool.or_assoc]
    rfl
  · rw [later.buttonRole, any_cons, ← Bool.or_assoc]
    rfl
  · rw [later.clickHandler, any_cons, ← Bool.or_assoc]
    rfl
  · rw [later.submitControl, any_cons, ← Bool.or_assoc]
    congr 1
    simp [Headless.visit, Element.submitControl, Bool.or_assoc]
  · rw [later.href, findSome?_cons]
    have own : (Headless.visit document gathering depth id element).context.href =
        (gathering.context.href <|> element.anchorHref) := by
      cases nearer : gathering.context.href <;> simp [Headless.visit, nearer, Element.anchorHref]
    rw [own]
    cases gathering.context.href <;> cases element.anchorHref <;> rfl
  · rw [later.formAction, findSome?_cons]
    have own : (Headless.visit document gathering depth id element).context.formAction =
        (gathering.context.formAction <|> element.ownFormAction) := by
      cases nearer : gathering.context.formAction <;>
      cases override : element.attr "formaction" <;>
      simp [Headless.visit, nearer, override, Element.ownFormAction]
    rw [own]
    cases gathering.context.formAction <;> cases element.ownFormAction <;> rfl

theorem gather_chain {left depth : Nat} {current : Option Nat} {gathering after : Gathering}
    (gathered : gather document left depth current gathering = some after) :
    Gathers document gathering after (chain document left current) := by
  induction left generalizing depth current gathering with
  | zero =>
    cases current <;>
    · obtain rfl := Option.some.inj gathered
      exact Gathers.refl _
  | succ left ih =>
    cases current with
    | none =>
      obtain rfl := Option.some.inj gathered
      exact Gathers.refl _
    | some id =>
      rw [gather] at gathered
      rw [chain]
      cases found : document.getNode id with
      | none => simp [found] at gathered
      | some node =>
        rw [found] at gathered
        cases data : node.data with
        | element element =>
          simp only [data] at gathered ⊢
          exact (ih gathered).visit
        | text content =>
          simp only [data] at gathered ⊢
          exact ih gathered
        | other =>
          simp only [data] at gathered ⊢
          exact ih gathered

theorem actionContext_chain {nodeId : Nat} {context : ActionContext}
    (gathered : actionContext document nodeId = some context) :
    let elements := chain document maxLevels (some nodeId)
    context.sensitive = elements.any (fun (id, element) => element.sensitive document id) ∧
      context.download = elements.any (·.2.download) ∧
      context.newWindow = elements.any (·.2.newWindow) ∧
      context.maySubmit = (elements.any (·.2.isForm) && elements.any (·.2.submits)) ∧
      context.href = elements.findSome? (·.2.anchorHref) ∧
      context.formAction = elements.findSome? (·.2.ownFormAction) := by
  obtain ⟨result, walked, rfl⟩ := Option.map_eq_some_iff.mp gathered
  have gathers := gather_chain walked
  refine ⟨by simpa using gathers.sensitive, by simpa using gathers.download,
    by simpa using gathers.newWindow, ?_, by simpa using gathers.href,
    by simpa using gathers.formAction⟩
  have submits : (chain document maxLevels (some nodeId)).any (·.2.submits) =
      (result.hasSubmitControl || result.hasButtonRole || result.hasClickHandler) := by
    rw [gathers.submitControl, gathers.buttonRole, gathers.clickHandler, Bool.false_or,
      Bool.false_or, Bool.false_or]
    generalize chain document maxLevels (some nodeId) = elements
    induction elements with
    | nil => rfl
    | cons entry rest ih =>
      rw [any_cons, ih, any_cons, any_cons, any_cons]
      simp only [Element.submits, Bool.or_assoc, Bool.or_left_comm]
  rw [submits, show result.context.hasForm = _ from gathers.hasForm, Bool.false_or]

/-- The URL cannot be joined, or the policy refuses it when it is asked then. -/
def Refused (policy : HeadlessPolicy) (resolver : Resolver) (document : Document) (value : Text)
    (calls : Nat) : Prop :=
  ∀ url, document.join value = some url →
    ∃ error, (policy.validateUrl resolver calls url).1 = .error error

variable {policy : HeadlessPolicy} {resolver : Resolver}

theorem validateActionUrl_refused {value : Text} {calls : Nat}
    (refused : Refused policy resolver document value calls) :
    ∃ denial, (validateActionUrl policy resolver document value calls).1 = .error denial := by
  rw [validateActionUrl]
  split
  · exact ⟨_, rfl⟩
  · rename_i destination joined
    obtain ⟨error, rejected⟩ := refused destination joined
    split
    · rename_i accepted
      rw [accepted] at rejected
      cases rejected
    · exact ⟨_, rfl⟩

theorem validateUrl_calls (policy : HeadlessPolicy) (resolver : Resolver) (calls : Nat)
    (url : Url) : (policy.validateUrl resolver calls url).2 = calls ∨
      (policy.validateUrl resolver calls url).2 = calls + 1 := by
  have resolved : (policy.resolvePublicAddresses resolver calls url).2 = calls ∨
      (policy.resolvePublicAddresses resolver calls url).2 = calls + 1 := by
    simp only [HeadlessPolicy.resolvePublicAddresses]
    repeat' split
    all_goals first | exact .inl rfl | exact .inr rfl
  rw [HeadlessPolicy.validateUrl]
  split
  · exact .inl rfl
  · split
    · rename_i same
      rwa [same] at resolved
    · rename_i same
      rwa [same] at resolved

theorem validateOptional_calls (policy : HeadlessPolicy) (resolver : Resolver)
    (document : Document) (value : Option Text) (calls : Nat) :
    (validateOptional policy resolver document value calls).2 = calls ∨
      (validateOptional policy resolver document value calls).2 = calls + 1 := by
  cases value with
  | none => exact .inl rfl
  | some value =>
    rw [validateOptional, validateActionUrl]
    split
    · exact .inl rfl
    · rename_i destination _
      have counted := validateUrl_calls policy resolver calls destination
      split
      · rename_i same
        rwa [same] at counted
      · rename_i same
        rwa [same] at counted

theorem validateOptional_refused {value : Text} {calls : Nat}
    (refused : Refused policy resolver document value calls) :
    (validateOptional policy resolver document (some value) calls).1 ≠ .ok () := by
  obtain ⟨denial, denied⟩ := validateActionUrl_refused refused
  rw [validateOptional, denied]
  exact fun same => by cases same

theorem authorizeClick_ok {nodeId calls : Nat} {context : ActionContext}
    (gathered : actionContext document nodeId = some context)
    (allowed : (authorizeClick policy resolver document nodeId calls).1 = .ok ()) :
    context.sensitive = false ∧ context.download = false ∧ context.newWindow = false ∧
      submitNeedsPermission policy context = false ∧
      (validateOptional policy resolver document context.href calls).1 = .ok () ∧
      ∃ asked, (asked = calls ∨ asked = calls + 1) ∧ (validateOptional policy resolver document
        (if context.maySubmit then context.formAction.filter (· ≠ []) else none) asked).1 =
          .ok () := by
  rw [authorizeClick, gathered] at allowed
  dsimp only at allowed
  split at allowed
  · cases allowed
  rename_i plain
  split at allowed
  · cases allowed
  rename_i inside
  split at allowed
  · cases allowed
  rename_i permitted
  have counted := validateOptional_calls policy resolver document context.href calls
  split at allowed
  · cases allowed
  rename_i asked validated
  rw [validated] at counted ⊢
  rw [Bool.or_eq_true, not_or, Bool.not_eq_true, Bool.not_eq_true] at inside
  exact ⟨by simpa using plain, inside.1, inside.2, by simpa using permitted, rfl, asked, counted,
    allowed⟩

/-- In bot mode a click is denied when one of the elements among the first `maxLevels` nodes
on the way up is sensitive, a download or opens a window; when some of them make it a
submission that is not allowed; and when the policy refuses the nearest anchor's URL, or a
URL that the submission goes to. -/
theorem authorize_click {policy : HeadlessPolicy} (bot : policy.botChild = true)
    (resolver : Resolver) (document : Document) (nodeId calls : Nat) :
    let elements := chain document maxLevels (some nodeId)
    let Denied :=
      ∃ denial, (authorizeAction policy resolver document (.click nodeId) calls).1 = .error denial
    ((∃ entry ∈ elements, entry.2.SensitiveAttribute ∨ entry.2.download = true ∨
      entry.2.newWindow = true) → Denied) ∧
    (policy.allowFormSubmit = false → (∃ entry ∈ elements, entry.2.isForm = true) →
      (∃ entry ∈ elements, entry.2.submits = true) → Denied) ∧
    (∀ href, elements.findSome? (·.2.anchorHref) = some href →
      Refused policy resolver document href calls → Denied) ∧
    (∀ action, elements.findSome? (·.2.ownFormAction) = some action → action ≠ [] →
      (∃ entry ∈ elements, entry.2.isForm = true) →
      (∃ entry ∈ elements, entry.2.submits = true) →
      (∀ asked, asked = calls ∨ asked = calls + 1 → Refused policy resolver document action asked) →
      Denied) := by
  intro elements Denied
  have unfolded : authorizeAction policy resolver document (.click nodeId) calls =
      authorizeClick policy resolver document nodeId calls := by
    simp [authorizeAction, bot]
  -- what is not denied is allowed, and has passed everything
  have denied : (∀ context, actionContext document nodeId = some context →
      (authorizeClick policy resolver document nodeId calls).1 ≠ .ok ()) → Denied := by
    intro refused
    cases gathered : actionContext document nodeId with
    | none => exact ⟨_, by rw [unfolded, authorizeClick, gathered]⟩
    | some context =>
      cases outcome : (authorizeClick policy resolver document nodeId calls).1 with
      | error denial => exact ⟨denial, by rw [unfolded, outcome]⟩
      | ok done => exact absurd outcome (refused context gathered)
  refine ⟨?_, ?_, ?_, ?_⟩
  · rintro ⟨⟨id, element⟩, member, marked⟩
    apply denied
    intro context gathered allowed
    obtain ⟨sensitive, download, newWindow, -⟩ := actionContext_chain gathered
    obtain ⟨plain, stays, same, -⟩ := authorizeClick_ok gathered allowed
    rw [plain, eq_comm, any_eq_false] at sensitive
    rw [stays, eq_comm, any_eq_false] at download
    rw [same, eq_comm, any_eq_false] at newWindow
    rcases marked with ⟨name, policied, value, found, restricted⟩ | down | new
    · apply sensitive (id, element) member
      simp only [Element.sensitive, Bool.or_eq_true, any_eq_true]
      exact .inl ⟨name, policied, by simpa [found] using restricted⟩
    · exact download (id, element) member down
    · exact newWindow (id, element) member new
  · rintro closed ⟨form, inForm, isForm⟩ ⟨control, inControl, submits⟩
    apply denied
    intro context gathered allowed
    obtain ⟨-, -, -, maySubmit, -⟩ := actionContext_chain gathered
    obtain ⟨-, -, -, permitted, -⟩ := authorizeClick_ok gathered allowed
    have may : context.maySubmit = true := by
      rw [maySubmit, Bool.and_eq_true, any_eq_true, any_eq_true]
      exact ⟨⟨form, inForm, isForm⟩, control, inControl, submits⟩
    simp [submitNeedsPermission, may, closed] at permitted
  · intro href nearest refused
    apply denied
    intro context gathered allowed
    obtain ⟨-, -, -, -, target, -⟩ := actionContext_chain gathered
    obtain ⟨-, -, -, -, validated, -⟩ := authorizeClick_ok gathered allowed
    rw [target, nearest] at validated
    exact validateOptional_refused refused validated
  · rintro action governs nonempty ⟨form, inForm, isForm⟩ ⟨control, inControl, submits⟩ refused
    apply denied
    intro context gathered allowed
    obtain ⟨-, -, -, maySubmit, -, target⟩ := actionContext_chain gathered
    obtain ⟨-, -, -, -, -, asked, counted, validated⟩ := authorizeClick_ok gathered allowed
    have may : context.maySubmit = true := by
      rw [maySubmit, Bool.and_eq_true, any_eq_true, any_eq_true]
      exact ⟨⟨form, inForm, isForm⟩, control, inControl, submits⟩
    rw [may, if_pos rfl, target, governs, Option.filter_some_pos (by simpa using nonempty)]
      at validated
    exact validateOptional_refused (refused asked counted) validated

/-- Elements nested in one another, the outermost a link that downloads. -/
def nestedDocument (outermost : Nat) : Document where
  getNode id :=
    if id < outermost then
      some { data := .element { tag := text "div" }, parent := some (id + 1) }
    else if id = outermost then
      some { data := .element { tag := text "a", attrs := [(text "download", [])] } }
    else none
  join _ := none

/-- A button within a form whose action is empty, on a page that is no longer admitted. -/
def formDocument : Document where
  getNode
    | 0 => some { data := .element { tag := text "button" }, parent := some 1 }
    | 1 => some { data := .element { tag := text "form", attrs := [(text "action", [])] } }
    | _ => none
  join _ := some { scheme := text "http" }

def silentResolver : Resolver := fun _ _ _ => none

theorem authorize_click_download :
    ∃ denial, (authorizeAction {} silentResolver (nestedDocument 15) (.click 0) 0).1 =
      .error denial := by
  have link : (15, { tag := text "a", attrs := [(text "download", [])] }) ∈
      chain (nestedDocument 15) maxLevels (some 0) := by decide
  exact (authorize_click rfl silentResolver (nestedDocument 15) 0 0).1
    ⟨_, link, .inr (.inl (by decide))⟩

/-- The level behind the last one is not looked at, and an empty action is not validated. -/
theorem click_allowed_beyond :
    ((∃ entry ∈ chain (nestedDocument 16) 17 (some 0), entry.2.download = true) ∧
      (authorizeAction {} silentResolver (nestedDocument 16) (.click 0) 0).1 = .ok ()) ∧
    ((chain formDocument 2 (some 0)).findSome? (·.2.ownFormAction) = some [] ∧
      (∃ entry ∈ chain formDocument 2 (some 0), entry.2.isForm = true) ∧
      (∃ entry ∈ chain formDocument 2 (some 0), entry.2.submits = true) ∧
      (∀ asked, Refused {} silentResolver formDocument [] asked) ∧
      (authorizeAction { allowFormSubmit := true } silentResolver formDocument (.click 0) 0).1 =
        .ok ()) := by
  refine ⟨⟨by decide, by decide⟩, by decide, by decide,
    by decide, ?_, by decide⟩
  rintro asked url joined
  obtain rfl := Option.some.inj joined
  exact ⟨_, rfl⟩

end Chuzz.Headless
