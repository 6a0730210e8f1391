import Chuzz.Library.SymbolicLinks

/-! Which file the page server answers a request target with. Only the branch for an exact
file canonicalises what it found; the three that answer with an `index.html` return the name
they asked for, so they stay under the root exactly when no link leads that file out of it. -/
namespace Chuzz.PageServer
open Library.SymbolicLinks List
local instance lawfulName : LawfulBEq (List UInt8) := inferInstance

abbrev Bytes := List UInt8

/-- The bytes of an ASCII text. -/
def bytes (text : String) : Bytes := text.toList.map fun c => UInt8.ofNat c.toNat

/-- What a directory can call an entry: neither empty nor one of the two dot names. -/
structure Name where
  text : Bytes
  plain : text ∉ [[], bytes ".", bytes ".."]
deriving DecidableEq

/-- A path, split at its slashes; an absolute one starts with an empty piece. -/
abbrev Path := List Bytes

inductive Component
  | rootDir
  | curDir
  | parentDir
  | normal (text : Bytes)
deriving DecidableEq

def isAbsolute (path : Path) : Bool := path.head? == some [] && path.length > 1

def component (piece : Bytes) : Option Component :=
  if piece ∈ [[], bytes "."] then none
  else if piece = bytes ".." then some .parentDir
  else some (.normal piece)

/-- `Path::components`: empty pieces and dots inside the path are left out. -/
def components (path : Path) : List Component :=
  (if isAbsolute path then [.rootDir]
    else if path.head? = some (bytes ".") then [.curDir] else []) ++
  path.filterMap component

/-- `Path::join` of a relative path. -/
def join (path relative : Path) : Path :=
  (if path.getLast? = some [] then path.dropLast else path) ++ relative

/-- `Path::file_name`. -/
def fileName (path : Path) : Option Bytes :=
  match (components path).getLast? with
  | some (.normal text) => some text
  | _ => none

/-- `Path::extension`: what follows the last dot of the file name, unless that dot is its
first byte. -/
def extension (path : Path) : Option Bytes :=
  match fileName path with
  | none => none
  | some text =>
    let after := text.reverse.takeWhile (· ≠ 0x2E)
    if text.length ≤ after.length + 1 then none else some after.reverse

/-- `Path::starts_with`. -/
def startsWith (path base : Path) : Bool := (components base).isPrefixOf (components path)

/-- What the system makes of one piece of a path. -/
def step (piece : Bytes) : Step Name :=
  if up : piece = bytes ".." then .up
  else if stay : piece ∈ [[], bytes "."] then .stay
  else .down ⟨piece, by simp_all⟩

/-- The path of a canonical name. -/
def absolute (names : List Name) : Path :=
  [] :: if names = [] then [[]] else names.map Name.text

variable {Contents : Type*} (tree : Tree Name Contents) (links : Nat)

/-- `Path::canonicalize` of an absolute path, by its names. -/
def canonicalize (path : Path) : Option (List Name) := resolve tree links [] (path.map step)

def isFile (path : Path) : Bool :=
  match (canonicalize tree links path).bind tree with
  | some (.file _) => true
  | _ => false

def isDir (path : Path) : Bool :=
  match (canonicalize tree links path).bind tree with
  | some .directory => true
  | _ => false

/-- The path below the root that a request target names. -/
def relativeOf (target : Bytes) : Path :=
  ((target.takeWhile fun byte => byte ≠ 0x3F && byte ≠ 0x23).dropWhile (· = 0x2F)).splitOn 0x2F

def climbs (relative : Path) : Bool :=
  (components relative).any fun component => component = .parentDir || component = .rootDir

def indexName : Path := [bytes "index.html"]

/-- `resolve`: the file that answers a target. -/
def resolve (root : Path) (target : Bytes) : Option Path :=
  let relative := relativeOf target
  if climbs relative then none
  else
    let index := join root indexName
    if relative = [[]] then
      if isFile tree links index then some index else none
    else
      let candidate := join root relative
      if isFile tree links candidate then
        match canonicalize tree links candidate with
        | none => none
        | some resolved =>
          if startsWith (absolute resolved) root then some (absolute resolved) else none
      else if isDir tree links candidate then
        let nested := join candidate indexName
        if isFile tree links nested then some nested else none
      else if extension relative = none then
        if isFile tree links index then some index else none
      else none

/-- The `index.html` that stands for a target: of the root, of a directory, or, for a name
without an extension that nothing has, of the root again. -/
def indexFor (root : Path) (target : Bytes) : Option Path :=
  let relative := relativeOf target
  let candidate := join root relative
  if climbs relative then none
  else if relative = [[]] then some (join root indexName)
  else if isFile tree links candidate then none
  else if isDir tree links candidate then some (join candidate indexName)
  else if extension relative = none then some (join root indexName)
  else none

/-- Opening what answers a target opens a file under the root. -/
def Confined (root : List Name) (target : Bytes) : Prop :=
  ∀ path, resolve tree links (absolute root) target = some path →
    ∃ real, canonicalize tree links path = some real ∧ root <+: real

variable {tree : Tree Name Contents} {links : Nat} {path : Path}

theorem canonicalize_of_isFile (file : isFile tree links path = true) :
    ∃ real, canonicalize tree links path = some real := by
  cases same : canonicalize tree links path with
  | none => simp [isFile, same] at file
  | some real => exact ⟨real, rfl⟩

theorem step_text (name : Name) : step name.text = .down name := by
  have plain := name.plain
  simp only [mem_cons, not_mem_nil, or_false, not_or] at plain
  simp [step, plain]

theorem component_text (name : Name) : component name.text = some (.normal name.text) := by
  have plain := name.plain
  simp only [mem_cons, not_mem_nil, or_false, not_or] at plain
  simp [component, plain]

theorem components_absolute (names : List Name) :
    components (absolute names) = .rootDir :: names.map fun name => .normal name.text := by
  have pieces : (names.map Name.text).filterMap component =
      names.map fun name => .normal name.text := by
    rw [filterMap_map, ← filterMap_eq_map]
    exact filterMap_congr fun name _ => component_text name
  cases names with
  | nil => rfl
  | cons name rest => exact congrArg (Component.rootDir :: ·) pieces

theorem startsWith_absolute (names base : List Name) :
    startsWith (absolute names) (absolute base) = true ↔ base <+: names := by
  have injective : Function.Injective fun name : Name => Component.normal name.text := by
    intro first second same
    cases first
    cases second
    simpa using same
  rw [startsWith, List.isPrefixOf_iff_prefix, components_absolute, components_absolute,
    cons_prefix_cons, prefix_map_iff]
  constructor
  · rintro ⟨-, names, inside, same⟩
    rwa [map_injective_iff.mpr injective same]
  · exact fun inside => ⟨rfl, base, inside, rfl⟩

theorem rooted {names real : List Name}
    (same : canonicalize tree links (absolute names) = some real) : tree [] = some .directory :=
  resolve_directory same

theorem canonicalize_absolute {real : List Name}
    (directory : tree [] = some .directory) (same : canonicalize tree links path = some real) :
    canonicalize tree links (absolute real) = some real := by
  have again := resolve_resolved same links
  have start : ∀ rest, canonicalize tree links ([] :: rest) = canonicalize tree links rest :=
    fun rest => resolve_stay directory
  cases real with
  | nil =>
    rw [absolute, if_pos rfl, start, start]
    exact again
  | cons name rest =>
    have steps : ((name :: rest).map Name.text).map step = (name :: rest).map .down := by
      rw [map_map]
      exact map_congr_left fun name _ => step_text name
    rw [absolute, if_neg (cons_ne_nil name rest), start, canonicalize, steps]
    exact again

/-- An `index.html` answers under the name it was found by; everything else by its canonical
path, once that is known to be under the root. -/
theorem resolve_cases (tree : Tree Name Contents) (links : Nat) (root : Path) (target : Bytes) :
    (∃ index, indexFor tree links root target = some index ∧
      resolve tree links root target = if isFile tree links index then some index else none) ∨
    (indexFor tree links root target = none ∧
      ∀ path, resolve tree links root target = some path →
        ∃ candidate real, canonicalize tree links candidate = some real ∧
          path = absolute real ∧ startsWith (absolute real) root = true) := by
  unfold indexFor PageServer.resolve
  dsimp only
  split
  · exact .inr ⟨rfl, fun _ none => (by cases none)⟩
  split
  · exact .inl ⟨_, rfl, rfl⟩
  split
  · refine .inr ⟨rfl, fun path answers => ?_⟩
    split at answers
    next => cases answers
    next resolved same =>
      split at answers
      next inside => exact ⟨_, resolved, same, (Option.some.inj answers).symm, inside⟩
      next => cases answers
  split
  · exact .inl ⟨_, rfl, rfl⟩
  split
  · exact .inl ⟨_, rfl, rfl⟩
  · exact .inr ⟨rfl, fun _ none => (by cases none)⟩

/-- Only an `index.html` can be answered from outside the root, and it is just when a link
leads it there. -/
theorem resolve_confined_iff {root : List Name} (target : Bytes)
    (canonical : canonicalize tree links (absolute root) = some root) :
    Confined tree links root target ↔
      ∀ index ∈ indexFor tree links (absolute root) target,
        isFile tree links index = true →
        ∀ real, canonicalize tree links index = some real → root <+: real := by
  rcases resolve_cases tree links (absolute root) target with
    ⟨index, served, answer⟩ | ⟨none, exact_⟩
  · constructor
    · intro confined other chosen file real same
      obtain rfl : index = other := Option.some.inj (served.symm.trans chosen)
      obtain ⟨opened, opens, inside⟩ := confined index (by rw [answer, if_pos file])
      rwa [Option.some.inj (same.symm.trans opens)]
    · intro holds path answers
      rw [answer] at answers
      split at answers
      next file =>
        obtain rfl := Option.some.inj answers
        obtain ⟨real, same⟩ := canonicalize_of_isFile file
        exact ⟨real, same, holds index served file real same⟩
      next => cases answers
  · constructor
    · intro _ index chosen
      rw [none] at chosen
      cases chosen
    · intro _ path answers
      obtain ⟨candidate, real, same, rfl, inside⟩ := exact_ path answers
      exact ⟨real, canonicalize_absolute (rooted canonical) same,
        (startsWith_absolute real root).mp inside⟩

/-- Reading the file a path opens. -/
def read (tree : Tree Name Contents) (links : Nat) (path : Path) : Option Contents :=
  match (canonicalize tree links path).bind tree with
  | some (.file contents) => some contents
  | _ => none

inductive Answer (Contents : Type*)
  | methodNotAllowed
  | notFound
  | unreadable
  | found (path : Path) (body : Contents)

/-- `answer`, before the body is decompressed and written to the stream. -/
def answer (tree : Tree Name Contents) (links : Nat) (root : Path) (method target : Bytes) :
    Answer Contents :=
  if method ≠ bytes "GET" ∧ method ≠ bytes "HEAD" then .methodNotAllowed
  else
    match resolve tree links root target with
    | none => .notFound
    | some path =>
      match read tree links path with
      | none => .unreadable
      | some body => .found path body

theorem answer_confined {root : List Name} {method target : Bytes} {body : Contents}
    (confined : Confined tree links root target)
    (found : answer tree links (absolute root) method target = .found path body) :
    ∃ real, tree real = some (.file body) ∧ root <+: real := by
  rw [answer] at found
  split at found
  · cases found
  cases chosen : PageServer.resolve tree links (absolute root) target with
  | none => simp [chosen] at found
  | some path =>
    obtain ⟨real, opens, inside⟩ := confined path chosen
    refine ⟨real, ?_, inside⟩
    simp only [chosen, read, opens, Option.bind_some] at found
    split at found
    next => cases found
    next body opened =>
      cases found
      split at opened
      next stands => rw [stands, Option.some.inj opened]
      next => cases opened

section Sample

def site : Name := ⟨bytes "site", by decide⟩

def etc : Name := ⟨bytes "etc", by decide⟩

def indexHtml : Name := ⟨bytes "index.html", by decide⟩

/-- A site whose `index.html` is a link to a file elsewhere. -/
def linkedSite : Tree Name Unit := fun names =>
  if names ∈ [[], [site], [etc]] then some .directory
  else if names = [site, indexHtml] then
    some (.link ⟨true, [.down etc, .down indexHtml]⟩)
  else if names = [etc, indexHtml] then some (.file ())
  else none

/-- The same site with a file of its own there. -/
def plainSite : Tree Name Unit := fun names =>
  if names = [site, indexHtml] then some (.file ()) else linkedSite names

theorem resolve_confined_plain : Confined plainSite 40 [site] (bytes "/settings") :=
  (resolve_confined_iff (bytes "/settings") (by decide)).mpr (by decide)

/-- `GET /` is answered with the file the link leads to. -/
theorem not_confined_linked : ¬ Confined linkedSite 40 [site] (bytes "/") := by
  intro confined
  obtain ⟨real, opens, inside⟩ := confined [[], bytes "site", bytes "index.html"] (by decide)
  have elsewhere : canonicalize linkedSite 40 [[], bytes "site", bytes "index.html"] =
      some [etc, indexHtml] := by decide
  obtain rfl := Option.some.inj (elsewhere.symm.trans opens)
  revert inside
  decide

end Sample

end Chuzz.PageServer
