import Chuzz.Webrtc.Text

/-! The semantic snapshot a bot child may read: its texts share a byte budget, and nodes
leave it from the end until its encoding fits. -/
namespace Chuzz.Headless.Inspection
open Webrtc

/-- `BOT_CHILD_MAX_INSPECT_BYTES` -/
def limit : Nat := 60 * 1024

/-- A semantic node. `rest` holds what is not trimmed: the identities, the flags, the
bounds and the attributes. -/
structure Node (N : Type) where
  domId : Option Text
  role : Text
  name : Text
  value : Option Text
  slot : Option Text
  rest : N
deriving DecidableEq

/-- The agent snapshot. `rest` holds the revision, the focused node and the viewport. -/
structure Snapshot (N R : Type) where
  activeWindow : Option Text
  nodes : List (Node N)
  rest : R
deriving DecidableEq

/-- The last character boundary up to an offset; the start of a text is one. -/
def floorBoundary (value : Text) : Nat → Nat
  | 0 => 0
  | offset + 1 =>
    if (value.splitAt (offset + 1)).isSome then offset + 1 else floorBoundary value offset

/-- The trimmed text and what remains of the budget; none where `truncate` panics or the
budget would fall below zero. -/
def trimText (value : Text) (fieldLimit remaining : Nat) : Option (Text × Nat) := do
  let stop := floorBoundary value (min (min value.bytes fieldLimit) remaining)
  let (kept, _) ← value.splitAt stop
  if stop ≤ remaining then some (kept, remaining - stop) else none

def trimOptionalText (value : Option Text) (fieldLimit remaining : Nat) :
    Option (Option Text × Nat) :=
  match value with
  | none => some (none, remaining)
  | some value => (trimText value fieldLimit remaining).map fun (kept, left) => (some kept, left)

section
variable {N R : Type}

def trimNode (node : Node N) (remaining : Nat) : Option (Node N × Nat) := do
  let (domId, remaining) ← trimOptionalText node.domId 128 remaining
  let (role, remaining) ← trimText node.role 64 remaining
  let (name, remaining) ← trimText node.name 512 remaining
  let (value, remaining) ← trimOptionalText node.value 512 remaining
  let (slot, remaining) ← trimOptionalText node.slot 128 remaining
  some (⟨domId, role, name, value, slot, node.rest⟩, remaining)

def trimNodes : List (Node N) → Nat → Option (List (Node N))
  | [], _ => some []
  | node :: nodes, remaining => do
    let (node, remaining) ← trimNode node remaining
    (trimNodes nodes remaining).map (node :: ·)

/-- The loop over the encoded sizes; `encoded` is the length `serde_json` gives a snapshot,
none where it reports an error. -/
def fit (encoded : Snapshot N R → Option Nat) (snapshot : Snapshot N R) : Snapshot N R :=
  match encoded snapshot with
  | some size =>
    if size ≤ limit then snapshot
    else if snapshot.nodes ≠ [] then fit encoded { snapshot with nodes := snapshot.nodes.dropLast }
    else { snapshot with nodes := [], activeWindow := none }
  | none => { snapshot with nodes := [], activeWindow := none }
termination_by snapshot.nodes.length
decreasing_by
  have := List.length_pos_iff.mpr ‹snapshot.nodes ≠ []›
  simp only [List.length_dropLast]
  omega

def boundInspectionSnapshot (encoded : Snapshot N R → Option Nat) (snapshot : Snapshot N R) :
    Option (Snapshot N R) := do
  let (activeWindow, remaining) ← trimOptionalText snapshot.activeWindow 128 limit
  let nodes ← trimNodes snapshot.nodes remaining
  some (fit encoded ⟨activeWindow, nodes, snapshot.rest⟩)

end

/-! ### The texts -/

/-- A text cut at one of its character boundaries, within the limit of its field. -/
def Cut (fieldLimit : Nat) (kept whole : Text) : Prop :=
  kept <+: whole ∧ kept.bytes ≤ fieldLimit

theorem floorBoundary_split (value : Text) (offset : Nat) :
    floorBoundary value offset ≤ offset ∧
      ∃ kept rest, value.splitAt (floorBoundary value offset) = some (kept, rest) := by
  induction offset with
  | zero => exact ⟨Nat.le_refl 0, [], value, by unfold floorBoundary Text.splitAt; rfl⟩
  | succ offset ih =>
    unfold floorBoundary
    split
    · next boundary =>
      obtain ⟨⟨kept, rest⟩, split⟩ := Option.isSome_iff_exists.mp boundary
      exact ⟨Nat.le_refl _, kept, rest, split⟩
    · exact ⟨Nat.le_succ_of_le ih.1, ih.2⟩

theorem trimText_cut (value : Text) (fieldLimit remaining : Nat) :
    ∃ kept left, trimText value fieldLimit remaining = some (kept, left) ∧
      Cut fieldLimit kept value := by
  obtain ⟨short, kept, rest, split⟩ :=
    floorBoundary_split value (min (min value.bytes fieldLimit) remaining)
  obtain ⟨whole, length⟩ := Text.splitAt_some split
  refine ⟨kept, remaining - kept.bytes, ?_, ⟨rest, whole.symm⟩, by omega⟩
  simp only [trimText, split, length, Option.bind_eq_bind, Option.bind_some]
  exact if_pos (by omega)

theorem trimOptionalText_cut (value : Option Text) (fieldLimit remaining : Nat) :
    ∃ kept left, trimOptionalText value fieldLimit remaining = some (kept, left) ∧
      Option.Rel (Cut fieldLimit) kept value := by
  cases value with
  | none => exact ⟨none, remaining, rfl, .none⟩
  | some value =>
    obtain ⟨kept, left, trimmed, cut⟩ := trimText_cut value fieldLimit remaining
    refine ⟨some kept, left, ?_, .some cut⟩
    simp [trimOptionalText, trimmed]

/-! ### The nodes -/

section
variable {N R : Type}

/-- A node whose texts are cut and whose other fields are the given ones. -/
structure Node.CutOf (kept whole : Node N) : Prop where
  domId : Option.Rel (Cut 128) kept.domId whole.domId
  role : Cut 64 kept.role whole.role
  name : Cut 512 kept.name whole.name
  value : Option.Rel (Cut 512) kept.value whole.value
  slot : Option.Rel (Cut 128) kept.slot whole.slot
  rest : kept.rest = whole.rest

theorem trimNode_cut (node : Node N) (remaining : Nat) :
    ∃ kept left, trimNode node remaining = some (kept, left) ∧ kept.CutOf node := by
  obtain ⟨domId, left, domIdTrimmed, domIdCut⟩ := trimOptionalText_cut node.domId 128 remaining
  obtain ⟨role, left, roleTrimmed, roleCut⟩ := trimText_cut node.role 64 left
  obtain ⟨name, left, nameTrimmed, nameCut⟩ := trimText_cut node.name 512 left
  obtain ⟨value, left, valueTrimmed, valueCut⟩ := trimOptionalText_cut node.value 512 left
  obtain ⟨slot, left, slotTrimmed, slotCut⟩ := trimOptionalText_cut node.slot 128 left
  refine ⟨⟨domId, role, name, value, slot, node.rest⟩, left, ?_, domIdCut, roleCut, nameCut,
    valueCut, slotCut, rfl⟩
  simp [trimNode, domIdTrimmed, roleTrimmed, nameTrimmed, valueTrimmed, slotTrimmed]

theorem trimNodes_cut (nodes : List (Node N)) (remaining : Nat) :
    ∃ kept, trimNodes nodes remaining = some kept ∧ List.Forall₂ Node.CutOf kept nodes := by
  induction nodes generalizing remaining with
  | nil => exact ⟨[], rfl, .nil⟩
  | cons node nodes ih =>
    obtain ⟨first, left, trimmed, cut⟩ := trimNode_cut node remaining
    obtain ⟨kept, others, cuts⟩ := ih left
    refine ⟨first :: kept, ?_, .cons cut cuts⟩
    simp [trimNodes, trimmed, others]

/-! ### The encoding -/

variable (encoded : Snapshot N R → Option Nat)

/-- Nodes leave from the end; the window goes only with all of them. -/
theorem fit_prefix (snapshot : Snapshot N R) :
    (fit encoded snapshot).nodes <+: snapshot.nodes ∧
      (fit encoded snapshot).rest = snapshot.rest ∧
      ((fit encoded snapshot).activeWindow = snapshot.activeWindow ∨
        (fit encoded snapshot).activeWindow = none ∧ (fit encoded snapshot).nodes = []) := by
  fun_induction fit encoded snapshot with
  | case1 snapshot size _ fits => exact ⟨List.prefix_rfl, rfl, .inl rfl⟩
  | case2 snapshot size _ large some ih =>
    exact ⟨ih.1.trans (List.dropLast_prefix _), ih.2⟩
  | case3 snapshot size _ large none => exact ⟨List.nil_prefix, rfl, .inr ⟨rfl, rfl⟩⟩
  | case4 snapshot error => exact ⟨List.nil_prefix, rfl, .inr ⟨rfl, rfl⟩⟩

theorem fit_limit (bare : ∀ rest, ∃ size, encoded ⟨none, [], rest⟩ = some size ∧ size ≤ limit)
    (snapshot : Snapshot N R) :
    ∃ size, encoded (fit encoded snapshot) = some size ∧ size ≤ limit := by
  fun_induction fit encoded snapshot with
  | case1 snapshot size written fits => exact ⟨size, written, fits⟩
  | case2 snapshot size _ large some ih => exact ih
  | case3 snapshot size _ large none => exact bare _
  | case4 snapshot error => exact bare _

/-- The length of a string in the encoding: quotes, backslashes and control characters are
escaped. -/
def writtenText (value : Text) : Nat :=
  2 + (value.map fun c =>
    if c ∈ ['"', '\\', '\n', '\r', '\t', Char.ofNat 8, Char.ofNat 12] then 2
    else if c.toNat < 32 then 6 else c.utf8Size).sum

def writtenOptional (key : Nat) : Option Text → Nat
  | none => 0
  | some value => key + writtenText value

def writtenOrNull (value : Option Text) : Nat := (value.map writtenText).getD 4

/-- The encoded length where a node is the first of a page, a root without bounds and
attributes, and no node has the focus. -/
def written (snapshot : Snapshot Unit Unit) : Option Nat :=
  some (94 + writtenOrNull snapshot.activeWindow + (snapshot.nodes.length - 1) +
    (snapshot.nodes.map fun node =>
      133 + writtenText node.role + writtenText node.name + writtenOrNull node.value +
        writtenOptional 9 node.domId + writtenOptional 8 node.slot).sum)

def accented : Snapshot Unit Unit :=
  ⟨none, [⟨none, List.replicate 63 'r' ++ ['é'], text "Search", none, none, ()⟩], ()⟩

/-- No budget falls below zero and no text is cut inside a character; the encoding fits,
and what is kept are the first nodes with each text cut within its field's limit. A
snapshot without nodes and window has only numbers left, and these fit. -/
theorem boundInspectionSnapshot_bounded
    (bare : ∀ rest, ∃ size, encoded ⟨none, [], rest⟩ = some size ∧ size ≤ limit)
    (snapshot : Snapshot N R) :
    ∃ after, boundInspectionSnapshot encoded snapshot = some after ∧
      (∃ size, encoded after = some size ∧ size ≤ limit) ∧
      List.Forall₂ Node.CutOf after.nodes (snapshot.nodes.take after.nodes.length) ∧
      (Option.Rel (Cut 128) after.activeWindow snapshot.activeWindow ∨
        after.activeWindow = none ∧ after.nodes = []) ∧
      after.rest = snapshot.rest := by
  obtain ⟨window, left, windowTrimmed, windowCut⟩ :=
    trimOptionalText_cut snapshot.activeWindow 128 limit
  obtain ⟨nodes, trimmed, cuts⟩ := trimNodes_cut snapshot.nodes left
  obtain ⟨kept, rest, shown⟩ := fit_prefix encoded ⟨window, nodes, snapshot.rest⟩
  refine ⟨fit encoded ⟨window, nodes, snapshot.rest⟩, ?_, fit_limit encoded bare _, ?_, ?_, rest⟩
  · simp [boundInspectionSnapshot, windowTrimmed, trimmed]
  · have first := List.forall₂_take (fit encoded ⟨window, nodes, snapshot.rest⟩).nodes.length cuts
    rwa [← List.prefix_iff_eq_take.mp kept] at first
  · refine shown.imp_left fun same => ?_
    rwa [same]

end

theorem boundInspectionSnapshot_bounded_accented :
    ∃ after, boundInspectionSnapshot written accented = some after ∧
      (∃ size, written after = some size ∧ size ≤ limit) ∧
      List.Forall₂ Node.CutOf after.nodes (accented.nodes.take after.nodes.length) ∧
      (Option.Rel (Cut 128) after.activeWindow accented.activeWindow ∨
        after.activeWindow = none ∧ after.nodes = []) ∧
      after.rest = accented.rest :=
  boundInspectionSnapshot_bounded written (fun () => ⟨_, rfl, by decide⟩) accented

end Chuzz.Headless.Inspection
