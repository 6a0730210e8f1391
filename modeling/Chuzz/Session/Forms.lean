import Chuzz.Library.Doubling
import Chuzz.Session.Store

/-! The form fields of a page that goes to sleep: what a capture keeps of them, and the record that
they are sealed in. The document itself is not part of the program; it is what its tree answers. -/
namespace Chuzz.Session
open Library.Doubling

/-- The sizes of records are the compiler's. -/
structure Layout where
  /-- `size_of::<FormState>()` -/
  formState : Nat
  /-- The size of a `PageStash` and of its two counters. -/
  pageStash : Nat

/-- What an empty vector of such records allocates first. -/
def leastCapacity (size : Nat) : Nat := if size = 1 then 8 else if size ≤ 1024 then 4 else 1

inductive FieldKind where
  | text
  | textarea
  | checkbox
  | radio
  | select
deriving DecidableEq, Repr

structure FormLocator where
  form : Text
  field : Text
  action : Text
  kind : FieldKind

structure FormState where
  locator : FormLocator
  value : Text
  checked : Bool
  selection : Option (Nat × Nat)

def FormState.allocatedBytes (self : FormState) : Nat :=
  self.locator.form.allocatedBytes + self.locator.field.allocatedBytes +
    self.locator.action.allocatedBytes + self.value.allocatedBytes

abbrev Forms := Growing FormState

structure Element where
  name : String
  attributes : List (String × String)
  /-- The pieces of the text in the editor of a text input. -/
  editor : Option (List String) := none
  checked : Option Bool := none

def Element.attr (self : Element) (name : String) : Option String := self.attributes.lookup name

structure Node where
  parent : Option Nat := none
  shadowRoot : Bool := false
  inDocument : Bool := true
  element : Option Element := none

def Node.attr (self : Node) (name : String) : Option String :=
  self.element.bind (Element.attr · name)

structure Document where
  /-- The nodes in the order of the tree's table. -/
  nodes : List (Nat × Node)
  sensitive : Nat → Bool := fun _ => false
  selectValue : Nat → String := fun _ => ""
  elementById : String → Option Nat := fun _ => none

namespace Document

def node (document : Document) (id : Nat) : Option Node := document.nodes.lookup id

def fieldKind (document : Document) (id : Nat) : Option FieldKind := do
  let node ← document.node id
  let element ← node.element
  if element.name = "textarea" then some .textarea
  else if element.name = "select" ∧ element.attr "multiple" = none then some .select
  else if element.name = "input" then
    let kind := ((element.attr "type").getD "text").toLower
    if kind = "text" then some .text
    else if kind = "checkbox" then some .checkbox
    else if kind = "radio" then some .radio
    else none
  else none

/-- Whether exactly one node has the id. -/
def unique (document : Document) (id : String) : Bool :=
  (document.nodes.filter fun entry => entry.2.attr "id" = some id).length = 1

/-- Walks up to the root: no ancestor is a shadow root. A tree is not deeper than it has nodes. -/
def outsideShadow (document : Document) : Nat → Option Nat → Option Unit
  | _, none => some ()
  | 0, some _ => none
  | depth + 1, some id => do
    let ancestor ← document.node id
    if ancestor.shadowRoot then none else outsideShadow document depth ancestor.parent

/-- The form around a node, if there is one. -/
def formAround (document : Document) : Nat → Option Nat → Option (Option Nat)
  | _, none => some none
  | 0, some _ => none
  | depth + 1, some id => do
    let ancestor ← document.node id
    if ancestor.element.any (·.name = "form") then some (some id)
    else formAround document depth ancestor.parent

def identity (document : Document) (id : Nat) : Option (String × String × String) := do
  let node ← document.node id
  document.outsideShadow document.nodes.length node.parent
  let element ← node.element
  let field ← element.attr "id"
  if field = "" ∨ document.unique field = false then none
  else
    let owner ← match (element.attr "form").bind document.elementById with
      | some owner => some (some owner)
      | none => document.formAround document.nodes.length node.parent
    match owner with
    | none => some ("", field, "")
    | some owner =>
      let form ← (← document.node owner).element
      let formId ← form.attr "id"
      if formId = "" ∨ document.unique formId = false then none
      else some (formId, field, (form.attr "action").getD "")

end Document

/-- The code units of a character. -/
def encodeChar (character : Char) : List UInt16 :=
  if character.toNat < 0x10000 then [UInt16.ofNat character.toNat]
  else
    let rest := character.toNat - 0x10000
    [UInt16.ofNat (0xD800 + rest / 0x400), UInt16.ofNat (0xDC00 + rest % 0x400)]

def encodeUtf16 (value : String) : List UInt16 := value.toList.flatMap encodeChar

/-- The iterator of a string expects at most one unit a byte. -/
def protect (value : String) : Option Text :=
  Text.capture (some value.utf8ByteSize) (encodeUtf16 value) 4096

/-- The iterator over the pieces of an editor does not say how long it is. -/
def protectEditor (pieces : List String) : Option Text :=
  Text.capture none (pieces.flatMap encodeUtf16) 4096

/-- What is kept of a node, if it is a field to keep. -/
def Document.field (document : Document) (id : Nat) (node : Node) : Option FormState :=
  if document.sensitive id || !node.inDocument then none
  else do
    let kind ← document.fieldKind id
    let (form, field, action) ← document.identity id
    let element ← node.element
    let value ←
      if kind = .select then protect (document.selectValue id)
      else match element.editor with
        | some pieces => protectEditor pieces
        | none => protect ((element.attr "value").getD "")
    let form ← protect form
    let field ← protect field
    let action ← protect action
    some {
      locator := { form, field, action, kind }
      value
      checked := element.checked.getD false
      selection := none }

/-- The loop of `capture_forms`, with the bytes counted so far. -/
def captureEach (layout : Layout) (document : Document) :
    List (Nat × Node) → Nat → Forms → Forms
  | [], _, forms => forms
  | (id, node) :: rest, bytes, forms =>
    match document.field id node with
    | none => captureEach layout document rest bytes forms
    | some state =>
      let bytes := bytes + (state.allocatedBytes + layout.formState)
      if bytes > 24 * 1024 ∨ forms.list.length ≥ 256 then forms
      else captureEach layout document rest bytes (forms.push (leastCapacity layout.formState) state)

def captureForms (layout : Layout) (document : Document) : Forms :=
  captureEach layout document document.nodes 0 {}

structure StashLocation where
  origin : Origin
  url : String
  entry : Nat
  generation : Nat

structure ScrollState where
  x : Float
  y : Float

structure PageStash where
  origin : Origin
  route : Text
  entry : Nat
  generation : Nat
  replayable : Bool
  forms : Forms
  session : Option SessionBucket
  scroll : ScrollState

def formBytes (layout : Layout) (forms : Forms) : Nat :=
  forms.capacity * layout.formState + (forms.list.map FormState.allocatedBytes).sum

/-- `SessionBucket::allocated_bytes` of the bucket, if there is one. -/
def sessionBytes (session : Option SessionBucket) : Nat :=
  (session.map (·.pairs.allocatedBytes)).getD 0

def stateBytes : Nat := 64 * 1024

def PageStash.bytes (layout : Layout) (route : Text) (forms : Forms) (recordBytes : Nat) : Nat :=
  layout.pageStash + route.allocatedBytes + formBytes layout forms + recordBytes

def PageStash.seal (layout : Layout) (budget : SleepingBudget) (location : StashLocation)
    (replayable : Bool) (forms : Forms) (session : Option SessionBucket) (scroll : ScrollState)
    (recordBytes : Nat) : Except String (SleepingBudget × PageStash) :=
  if location.origin.isTuple = false then .error "stash-opaque-origin"
  else if forms.list.length > 256 ∨ recordBytes > 32 * 1024 then .error "stash-record-budget"
  else
    match Text.capture (some location.url.utf8ByteSize) (encodeUtf16 location.url) (32 * 1024) with
    | none => .error "stash-route-budget"
    | some route =>
      if formBytes layout forms > 24 * 1024 ∨ sessionBytes session > 32 * 1024 ∨
          (session.any fun bucket => bucket.pairs.list.length > 256 ∨
            bucket.origin ≠ location.origin ∨
            bucket.pairs.list.any fun pair => pair.value.allocatedBytes > 8 * 1024) = true ∨
          formBytes layout forms + sessionBytes session > stateBytes then
        .error "stash-state-budget"
      else do
        let budget ← budget.reserve (PageStash.bytes layout route forms recordBytes)
        return (budget, {
          origin := location.origin
          route
          entry := location.entry
          generation := location.generation
          replayable
          forms
          session
          scroll })

/-- The texts of the fields that a capture kept. -/
def textBytes (forms : List FormState) : Nat := (forms.map FormState.allocatedBytes).sum

section
variable {layout : Layout} {document : Document}

theorem leastCapacity_pos (size : Nat) : 0 < leastCapacity size := by
  unfold leastCapacity
  split_ifs <;> decide

/-- What the loop keeps of its vector: at most 256 fields, and a capacity that only pushing gave. -/
def Pushed (layout : Layout) (forms : Forms) : Prop :=
  forms.list.length ≤ 256 ∧
    forms.capacity = grown (leastCapacity layout.formState) forms.list.length

theorem captureEach_pushed {nodes : List (Nat × Node)} {bytes : Nat} {forms : Forms}
    (pushed : Pushed layout forms) : Pushed layout (captureEach layout document nodes bytes forms) := by
  induction nodes generalizing bytes forms with
  | nil => exact pushed
  | cons entry rest ih =>
    obtain ⟨id, node⟩ := entry
    simp only [captureEach]
    split
    · exact ih pushed
    · split
      · exact pushed
      · next state _ room =>
        refine ih ⟨?_, Growing.push_grown (leastCapacity_pos _) pushed.2 state⟩
        simp only [Growing.push, List.length_append, List.length_singleton]
        omega

theorem captureForms_pushed (layout : Layout) (document : Document) :
    Pushed layout (captureForms layout document) :=
  captureEach_pushed ⟨Nat.zero_le _, rfl⟩

/-- The fields that a page's capture kept are sealed if what their vector has allocated while it
grew, with their texts, is at most 24 KiB. -/
theorem captureForms_sealed (layout : Layout) (document : Document) (budget : SleepingBudget)
    (location : StashLocation) (replayable : Bool) (scroll : ScrollState)
    (tuple : location.origin.isTuple = true) {route : Text}
    (within : Text.capture (some location.url.utf8ByteSize) (encodeUtf16 location.url) (32 * 1024) =
      some route)
    (room : budget.used + PageStash.bytes layout route (captureForms layout document) 0 ≤
      budget.cap) :
    (∃ left stash, PageStash.seal layout budget location replayable (captureForms layout document)
        none scroll 0 = .ok (left, stash)) ↔
      grown (leastCapacity layout.formState) (captureForms layout document).list.length *
          layout.formState + textBytes (captureForms layout document).list ≤ 24 * 1024 := by
  obtain ⟨few, capacity⟩ := captureForms_pushed layout document
  have bytes : formBytes layout (captureForms layout document) =
      grown (leastCapacity layout.formState) (captureForms layout document).list.length *
        layout.formState + textBytes (captureForms layout document).list := by
    rw [formBytes, capacity, textBytes]
  rw [← bytes]
  by_cases small : formBytes layout (captureForms layout document) ≤ 24 * 1024
  · refine iff_of_true ?_ small
    rw [PageStash.seal, if_neg (by simp [tuple]), if_neg (by omega), within]
    dsimp only
    rw [if_neg (by simp [sessionBytes, stateBytes]; omega), SleepingBudget.reserve, if_pos room]
    exact ⟨_, _, rfl⟩
  · refine iff_of_false ?_ small
    rw [PageStash.seal, if_neg (by simp [tuple]), if_neg (by omega), within]
    dsimp only
    rw [if_pos (.inl (Nat.lt_of_not_le small))]
    rintro ⟨left, stash, sealed⟩
    contradiction

end

/-- The sizes on a 64-bit machine. -/
def layout64 : Layout := { formState := 120, pageStash := 256 }

example : (captureForms ⟨120, 256⟩ { nodes := [] }).list = [] := by decide +kernel

/-- A form of empty text inputs and checkboxes. A text input allocates 4 KiB for its value. -/
def account (texts checkboxes : Nat) : Document where
  nodes := (0, { element := some {
      name := "form"
      attributes := [("id", "f"), ("action", "/account")] } }) ::
    (List.range (texts + checkboxes)).map fun index => (index + 1, {
      parent := some 0
      element := some {
        name := "input"
        attributes := [("id", String.singleton (Char.ofNat (index + 65))),
          ("type", if index < texts then "text" else "checkbox")]
        editor := if index < texts then some [] else none } })

def exampleLocation : StashLocation where
  origin := .tuple "https" "example.test" 443
  url := "https://example.test/"
  entry := 0
  generation := 0

def exampleBudget : SleepingBudget := { used := 0, cap := 256 * 1024 * 1024 }

def exampleRoute : Option Text :=
  Text.capture (some exampleLocation.url.utf8ByteSize) (encodeUtf16 exampleLocation.url) (32 * 1024)

theorem captureForms_sealed_account : ∃ left stash,
    PageStash.seal layout64 exampleBudget exampleLocation true (captureForms layout64 (account 1 2))
      none { x := 0, y := 0 } 0 = .ok (left, stash) := by
  obtain ⟨route, within⟩ : ∃ route, exampleRoute = some route :=
    Option.isSome_iff_exists.mp (by decide)
  have room : exampleRoute.all fun route => decide (exampleBudget.used +
      PageStash.bytes layout64 route (captureForms layout64 (account 1 2)) 0 ≤
        exampleBudget.cap) := by decide +kernel
  rw [within] at room
  exact (captureForms_sealed layout64 (account 1 2) exampleBudget exampleLocation true
    { x := 0, y := 0 } rfl within (by simpa using room)).mpr (by decide +kernel)

example : formBytes ⟨120, 256⟩ (captureForms ⟨120, 256⟩ { nodes := [] }) = 0 := by decide +kernel

/-- Seventeen fields: their texts and records are within 24 KiB, but their vector has room for
32. -/
theorem captureForms_lost : ∃ route, exampleRoute = some route ∧
    exampleBudget.used + PageStash.bytes layout64 route (captureForms layout64 (account 5 12)) 0 ≤
      exampleBudget.cap ∧ exampleLocation.origin.isTuple = true ∧
    ∀ left stash, PageStash.seal layout64 exampleBudget exampleLocation true
      (captureForms layout64 (account 5 12)) none { x := 0, y := 0 } 0 ≠ .ok (left, stash) := by
  obtain ⟨route, within⟩ : ∃ route, exampleRoute = some route :=
    Option.isSome_iff_exists.mp (by decide)
  have room : exampleRoute.all fun route => decide (exampleBudget.used +
      PageStash.bytes layout64 route (captureForms layout64 (account 5 12)) 0 ≤
        exampleBudget.cap) := by decide +kernel
  have large : formBytes layout64 (captureForms layout64 (account 5 12)) = 24660 := by
    decide +kernel
  have few : (captureForms layout64 (account 5 12)).list.length = 17 := by decide +kernel
  rw [within] at room
  refine ⟨route, within, by simpa using room, rfl, fun left stash sealed => ?_⟩
  have taken : Text.capture (some exampleLocation.url.utf8ByteSize)
      (encodeUtf16 exampleLocation.url) (32 * 1024) = some route := within
  rw [PageStash.seal, if_neg (by decide), if_neg (by omega), taken] at sealed
  dsimp only at sealed
  rw [if_pos (.inl (by omega))] at sealed
  contradiction

end Chuzz.Session
