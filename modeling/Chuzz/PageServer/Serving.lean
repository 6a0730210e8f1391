import Chuzz.Library.UrlPaths
import Chuzz.PageServer.FrontEnds

/-! When the two front ends answer alike, and which files can be asked for by their URL. -/
namespace Chuzz.PageServer.FrontEnds
open Library.SymbolicLinks Library.UrlPaths List

/-! Requests. -/
section Requests
variable {platform : Platform} {tree : Files} {links : Nat} {root : Path} {method target : Bytes}

theorem relativeOf_pathAndQuery (target : Bytes) :
    relativeOf (pathAndQuery target) = relativeOf target := by
  have shorter : (target.takeWhile (· ≠ 0x23)).takeWhile (fun b => b ≠ 0x3F && b ≠ 0x23) =
      target.takeWhile fun b => b ≠ 0x3F && b ≠ 0x23 := by
    rw [takeWhile_takeWhile]
    refine congrArg (takeWhile · target) (funext fun b => ?_)
    by_cases hash : b = 0x23 <;> simp [hash]
  unfold pathAndQuery
  dsimp only
  split
  · rename_i none
    rw [none] at shorter
    unfold relativeOf
    rw [← shorter]
    rfl
  · unfold relativeOf
    rw [shorter]

theorem resolve_pathAndQuery :
    resolve tree links root (pathAndQuery target) = resolve tree links root target := by
  unfold PageServer.resolve
  rw [relativeOf_pathAndQuery]

/-- The second front end answers like the first, but keeps what no `HEAD` is sent. -/
theorem answerH2_eq : answerH2 platform tree links root method target =
    { answer platform tree links root method target with
      body := if method = bytes "HEAD" then []
        else (answer platform tree links root method target).body } := by
  unfold answerH2 answer
  rw [resolve_pathAndQuery]
  by_cases head : method = bytes "HEAD"
  · have other : bytes "HEAD" ≠ bytes "GET" := by decide
    cases found : resolve tree links root target with
    | none => simp [head, respond]
    | some path => cases read : readFile tree links path <;> simp [head, read, respond]
  · -- A body that is empty ends the stream, and is sent all the same.
    by_cases get : method = bytes "GET"
    · have other : bytes "GET" ≠ bytes "HEAD" := by decide
      have unless_empty (body : Bytes) : (if body = [] then [] else body) = body := by
        split <;> simp_all
      cases found : resolve tree links root target with
      | none => simp [get, other, respond, unless_empty]
      | some path =>
        cases read : readFile tree links path <;> simp [get, other, read, respond, unless_empty]
    · have refused : bytes "method not allowed" ≠ [] := by decide
      simp [head, get, respond, refused]

/-- The two answers are the same. -/
def Agree (platform : Platform) (tree : Files) (links : Nat) (root : Path)
    (method target : Bytes) : Prop :=
  answer platform tree links root method target = answerH2 platform tree links root method target

/-- No body is sent for a `HEAD`. -/
def Silent (platform : Platform) (tree : Files) (links : Nat) (root : Path)
    (method target : Bytes) : Prop :=
  method = bytes "HEAD" → (answer platform tree links root method target).body = [] ∧
    (answerH2 platform tree links root method target).body = []

/-- The target names a file that can be read. -/
def Found (tree : Files) (links : Nat) (root : Path) (target : Bytes) : Prop :=
  ∃ path body, resolve tree links root target = some path ∧ readFile tree links path = .ok body

theorem requests_iff : Agree platform tree links root method target ∧
    Silent platform tree links root method target ↔
      (method = bytes "HEAD" → Found tree links root target) := by
  have same : Agree platform tree links root method target ↔ (method = bytes "HEAD" →
      (answer platform tree links root method target).body = []) := by
    unfold Agree
    rw [answerH2_eq]
    generalize answer platform tree links root method target = response
    cases response
    by_cases head : method = bytes "HEAD" <;> simp [head]
  have silent : (answer platform tree links root (bytes "HEAD") target).body = [] ↔
      Found tree links root target := by
    have message (path : Path) (error : String) : couldNotRead platform path error ≠ [] := by
      have first : bytes "could not read " ≠ [] := by decide
      simp [couldNotRead, first]
    have missing : bytes "not found" ≠ [] := by decide
    unfold answer Found
    cases found : resolve tree links root target with
    | none => simp [respond, missing]
    | some path => cases read : readFile tree links path <;> simp [read, respond, message]
  have both : Silent platform tree links root method target ↔ (method = bytes "HEAD" →
      (answer platform tree links root method target).body = []) := by
    unfold Silent
    rw [answerH2_eq]
    refine imp_congr_right fun head => ?_
    rw [if_pos head]
    exact and_iff_left rfl
  rw [same, both, and_self_iff]
  refine imp_congr_right fun head => ?_
  rw [head, silent]

end Requests

/-! Files. -/

/-- The path of a file below the root. -/
structure RelativePath where
  names : List Name
  below : names ≠ []
  plain : ∀ name ∈ names, (0x2F : UInt8) ∉ name.text

/-- What a client asks for that has joined the path to the origin of the server. -/
def RelativePath.target (set : EncodeSet) (path : RelativePath) : Bytes :=
  urlPath set (joined (path.names.map Name.text))

/-- A response with a file. -/
def Brings (response : Response) (body : Bytes) : Prop :=
  response.status = 200 ∧ response.body = body

/-- Wherever there is such a file, both front ends answer with it. -/
def Serves (platform : Platform) (set : EncodeSet) (path : RelativePath) : Prop :=
  ∀ (tree : Files) (links : Nat) (root : List Name) (contents : Bytes),
    Real tree (root ++ path.names) → tree (root ++ path.names) = some (.file (.ok contents)) →
      let body := decoded platform (contentType (absolute (root ++ path.names))) contents
      Brings (answer platform tree links (absolute root) (bytes "GET") (path.target set)) body ∧
        Brings (answerH2 platform tree links (absolute root) (bytes "GET") (path.target set)) body

/-- Pieces that a target can be made of. -/
def Pieces (parts : List Bytes) : Prop :=
  ∀ part ∈ parts, ∀ b ∈ part, b ≠ 0x2F ∧ b ≠ 0x3F ∧ b ≠ 0x23

variable {parts : List Bytes}

theorem relativeOf_joined (plain : Pieces parts) :
    relativeOf (0x2F :: joined parts) = ((joined parts).dropWhile (· = 0x2F)).splitOn 0x2F := by
  have whole : (0x2F :: joined parts).takeWhile (fun b => b ≠ 0x3F && b ≠ 0x23) =
      0x2F :: joined parts := by
    refine takeWhile_eq_self_iff.mpr (forall_mem_cons.mpr ⟨by decide, fun b member => ?_⟩)
    rw [Bool.and_eq_true, decide_eq_true_eq, decide_eq_true_eq]
    rcases mem_joined member with rfl | ⟨part, among, inside⟩
    · decide
    · exact (plain part among b inside).2
  unfold relativeOf
  rw [whole]
  rfl

theorem splitOn_joined (some : parts ≠ []) (plain : Pieces parts) :
    (joined parts).splitOn 0x2F = parts := by
  refine splitOnP_joined some rfl fun part among b inside => ?_
  exact beq_eq_false_iff_ne.mpr (plain part among b inside).1

theorem dropWhile_joined {part : Bytes} (some : part ≠ []) (plain : Pieces (part :: parts)) :
    (joined (part :: parts)).dropWhile (· = 0x2F) = joined (part :: parts) := by
  cases part with
  | nil => exact absurd rfl some
  | cons b part =>
    have first := (plain _ mem_cons_self b mem_cons_self).1
    have starts : ∃ rest, joined ((b :: part) :: parts) = b :: rest := by
      cases parts with
      | nil => exact ⟨part, intercalate_singleton⟩
      | cons next parts => exact ⟨_, joined_cons _ _ _⟩
    obtain ⟨rest, same⟩ := starts
    rw [same]
    exact dropWhile_cons_of_neg (by simpa using first)

/-- The resolver splits a target into the pieces it is made of, but for empty ones. -/
theorem mem_relativeOf (plain : Pieces parts) :
    ∀ piece ∈ relativeOf (0x2F :: joined parts), piece = [] ∨ piece ∈ parts := by
  rw [relativeOf_joined plain]
  induction parts with
  | nil => exact fun piece member => .inl (mem_singleton.mp member)
  | cons part parts ih =>
    cases part with
    | nil =>
      cases parts with
      | nil => exact fun piece member => .inl (mem_singleton.mp member)
      | cons next parts =>
        have later := ih fun part among => plain part (mem_cons_of_mem _ among)
        exact fun piece member => (later piece member).imp id (mem_cons_of_mem _)
    | cons b part =>
      rw [dropWhile_joined (cons_ne_nil _ _) plain, splitOn_joined (cons_ne_nil _ _) plain]
      exact fun piece member => .inr member

section Real
variable {tree : Files} {links : Nat} {names : List Name}

theorem canonicalize_real (standing : Real tree names) (below : names ≠ []) :
    canonicalize tree links (absolute names) = some names := by
  have steps : (names.map Name.text).map step = names.map .down := by
    rw [map_map]
    exact map_congr_left fun name _ => step_text name
  unfold canonicalize absolute
  rw [if_neg below, map_cons, steps]
  change Library.SymbolicLinks.resolve tree links [] (.stay :: _) = _
  rw [resolve_stay (standing.rooted below), Library.SymbolicLinks.resolve.eq_def, standing.advance]

theorem join_absolute {root names : List Name} (below : names ≠ []) :
    join (absolute root) (names.map Name.text) = absolute (root ++ names) := by
  have apart : ∀ name : Name, name.text ≠ [] := by
    intro name none
    exact name.plain (none ▸ mem_cons_self)
  unfold join absolute
  rw [if_neg (append_ne_nil_of_right_ne_nil root below), map_append]
  cases root using reverseRecOn with
  | nil => rfl
  | append_singleton root name =>
    have last : ([] :: (root ++ [name]).map Name.text).getLast? = some name.text := by
      rw [map_append, map_singleton, ← cons_append, getLast?_concat]
    rw [if_neg (append_ne_nil_of_right_ne_nil root (cons_ne_nil _ _)), last,
      if_neg fun same => apart name (Option.some.inj same)]
    rfl

theorem climbs_names {names : List Name} : climbs (names.map Name.text) = false := by
  have first : (names.map Name.text).head? ≠ some [] ∧ (names.map Name.text).head? ≠ some (bytes ".") := by
    cases names with
    | nil => exact ⟨nofun, nofun⟩
    | cons name names =>
      have plain := name.plain
      simp only [mem_cons, not_mem_nil, or_false, not_or] at plain
      exact ⟨fun same => plain.1 (Option.some.inj same), fun same => plain.2.1 (Option.some.inj same)⟩
  have pieces : (names.map Name.text).filterMap component =
      names.map fun name => .normal name.text := by
    rw [filterMap_map, ← filterMap_eq_map]
    exact filterMap_congr fun name _ => component_text name
  unfold climbs components isAbsolute
  rw [pieces, beq_eq_false_iff_ne.mpr first.1, Bool.false_and, if_neg Bool.false_ne_true,
    if_neg first.2, nil_append, any_eq_false]
  intro component member
  obtain ⟨name, _, rfl⟩ := mem_map.mp member
  simp

theorem resolve_names {root : List Name} {contents : Except String Bytes} {target : Bytes}
    (asked : relativeOf target = names.map Name.text) (below : names ≠ [])
    (standing : Real tree (root ++ names)) (file : tree (root ++ names) = some (.file contents)) :
    PageServer.resolve tree links (absolute root) target = some (absolute (root ++ names)) := by
  have whole : root ++ names ≠ [] := append_ne_nil_of_right_ne_nil root below
  have found : canonicalize tree links (absolute (root ++ names)) = some (root ++ names) :=
    canonicalize_real standing whole
  have isFile : isFile tree links (absolute (root ++ names)) = true := by
    unfold PageServer.isFile
    rw [found, Option.bind_some, file]
  have some : names.map Name.text ≠ [[]] := by
    intro none
    obtain ⟨name, _, same⟩ := mem_map.mp (none ▸ mem_singleton_self ([] : Bytes))
    exact name.plain (same ▸ mem_cons_self)
  unfold PageServer.resolve
  dsimp only
  rw [asked, climbs_names, if_neg Bool.false_ne_true, if_neg some, join_absolute below, if_pos isFile,
    found]
  exact if_pos ((startsWith_absolute _ _).mpr (prefix_append root names))

end Real

theorem kept_pieces {set : EncodeSet} (kept : ∀ part ∈ parts, part = [] ∨ Kept set part) :
    Pieces parts := by
  intro part among b inside
  rcases kept part among with rfl | kept
  · cases inside
  · obtain ⟨_, apart, query⟩ := kept.bytes b inside
    refine ⟨?_, query⟩
    rintro rfl
    cases apart

theorem serves_kept {platform : Platform} {set : EncodeSet} {path : RelativePath}
    (kept : ∀ name ∈ path.names, Kept set name.text) : Serves platform set path := by
  intro tree links root contents standing file
  have texts : ∀ part ∈ path.names.map Name.text, Kept set part := forall_mem_map.mpr kept
  have some : path.names.map Name.text ≠ [] := fun none => path.below (map_eq_nil_iff.mp none)
  have target : path.target set = 0x2F :: joined (path.names.map Name.text) := urlPath_joined some texts
  have asked : relativeOf (path.target set) = path.names.map Name.text := by
    have plain := kept_pieces fun part among => .inr (texts part among)
    obtain ⟨first, rest, cut⟩ := exists_cons_of_ne_nil some
    rw [target, relativeOf_joined plain]
    rw [cut] at plain texts ⊢
    rw [dropWhile_joined (texts first mem_cons_self).some plain, splitOn_joined (cons_ne_nil _ _) plain]
  have found := @resolve_names tree links _ root _ _ asked path.below standing file
  have whole : root ++ path.names ≠ [] := append_ne_nil_of_right_ne_nil root path.below
  have read : readFile tree links (absolute (root ++ path.names)) = .ok contents := by
    unfold readFile
    rw [canonicalize_real standing whole, Option.bind_some, file]
  have answered : answer platform tree links (absolute root) (bytes "GET") (path.target set) =
      respond 200 (contentType (absolute (root ++ path.names)))
        (decoded platform (contentType (absolute (root ++ path.names))) contents) false := by
    have get : bytes "GET" ∈ [bytes "GET", bytes "HEAD"] := mem_cons_self
    unfold answer
    rw [if_neg (not_not.mpr get), found]
    dsimp only
    rw [read]
    rfl
  rw [answerH2_eq, answered]
  exact ⟨⟨rfl, rfl⟩, rfl, rfl⟩

/-! A tree with one file. -/

def only (names : List Name) : Files := fun here =>
  if here = names then some (.file (.ok [])) else if here <+: names then some .directory else none

theorem only_file (names : List Name) : only names names = some (.file (.ok [])) := if_pos rfl

theorem only_linkless (names here : List Name) (target : Route Name) :
    only names here ≠ some (.link target) := by
  unfold only
  split
  · nofun
  · split <;> nofun

theorem only_real {names here : List Name} (inside : here <+: names) : Real (only names) here := by
  induction here using reverseRecOn with
  | nil => exact .root
  | append_singleton here name ih =>
    have before : here <+: names := (prefix_append here [name]).trans inside
    have shorter : here ≠ names := by
      rintro rfl
      have length := inside.length_le
      rw [length_append] at length
      exact absurd length (Nat.not_succ_le_self _)
    have directory : only names here = some .directory := by
      unfold only
      rw [if_neg shorter, if_pos before]
    have stands : ∃ entry, only names (here ++ [name]) = some entry := by
      by_cases whole : here ++ [name] = names
      · exact ⟨_, if_pos whole⟩
      · exact ⟨_, (if_neg whole).trans (if_pos inside)⟩
    obtain ⟨entry, stands⟩ := stands
    exact .child (ih before) directory stands fun target link =>
      only_linkless names _ target (link ▸ stands)

section Only
variable {set : EncodeSet} {names : List Name} {links : Nat}

def Clean (set : EncodeSet) (path : Path) : Prop := ∀ piece ∈ path, piece = [] ∨ Kept set piece

theorem step_down {piece : Bytes} {name : Name} (down : step piece = .down name) :
    piece = name.text := by
  unfold step at down
  split at down
  · cases down
  · split at down
    · cases down
    · cases down
      rfl

theorem only_found {path : Path} (clean : Clean set path)
    (file : isFile (only names) links path = true) : ∀ name ∈ names, Kept set name.text := by
  obtain ⟨real, same⟩ := canonicalize_of_isFile file
  have here : real = names := by
    unfold isFile at file
    rw [same, Option.bind_some] at file
    by_contra other
    unfold only at file
    rw [if_neg other] at file
    split at file
    · rename_i found
      split at found <;> cases found
    · cases file
  intro name member
  have asked := resolve_mem (only_linkless names) same name (here ▸ member)
  obtain ⟨piece, among, down⟩ := mem_map.mp asked
  rcases clean piece among with rfl | kept
  · cases down
  · rwa [step_down down] at kept

theorem index_kept : Kept set (bytes "index.html") := by
  have plain : ∀ b ∈ bytes "index.html", isPlain b = true := by decide +kernel
  exact ⟨by decide, fun b member => plain_byte (plain b member), by decide, by decide⟩

theorem join_clean {path relative : Path} (before : Clean set path) (clean : Clean set relative) :
    Clean set (join path relative) := by
  unfold join
  split
  · exact forall_mem_append.mpr
      ⟨fun piece member => before piece (dropLast_subset _ member), clean⟩
  · exact forall_mem_append.mpr ⟨before, clean⟩

theorem only_resolved {target : Bytes} {path : Path} (clean : Clean set (relativeOf target))
    (found : PageServer.resolve (only names) links (absolute []) target = some path) :
    ∀ name ∈ names, Kept set name.text := by
  have root : Clean set (absolute []) := by
    intro piece member
    rcases mem_cons.mp member with none | member
    · exact .inl none
    · exact .inl (mem_singleton.mp member)
  have index : Clean set indexName := forall_mem_singleton.mpr (.inr index_kept)
  unfold PageServer.resolve at found
  dsimp only at found
  split at found
  · cases found
  split at found
  · split at found
    · rename_i file
      exact only_found (join_clean root index) file
    · cases found
  split at found
  · rename_i file
    exact only_found (join_clean root clean) file
  split at found
  · split at found
    · rename_i file
      exact only_found (join_clean (join_clean root clean) index) file
    · cases found
  split at found
  · split at found
    · rename_i file
      exact only_found (join_clean root index) file
    · cases found
  · cases found

end Only

theorem serves_iff {platform : Platform} {set : EncodeSet} {path : RelativePath} :
    Serves platform set path ↔ ∀ name ∈ path.names, Kept set name.text := by
  refine ⟨fun serves => ?_, serves_kept⟩
  have kept := @pieces_kept set (joined (path.names.map Name.text))
  have clean : Clean set (relativeOf (path.target set)) := by
    intro piece member
    rcases mem_relativeOf (kept_pieces kept) piece member with none | among
    · exact .inl none
    · exact kept piece among
  have brings := (serves (only path.names) 0 [] [] (only_real (prefix_refl _))
    (only_file path.names)).1
  cases found : PageServer.resolve (only path.names) 0 (absolute []) (path.target set) with
  | some real => exact only_resolved clean found
  | none =>
    have status := brings.1
    unfold answer at status
    rw [if_neg (not_not.mpr mem_cons_self), found] at status
    cases status

/-- The front ends answer alike, and send no body for a `HEAD`, exactly when a `HEAD` finds a file. A
file is brought by its URL, wherever there is one, exactly when the URL leaves its names as they
are. -/
theorem front_ends_iff (platform : Platform) (set : EncodeSet) :
    (∀ tree links root method target,
      Agree platform tree links root method target ∧
        Silent platform tree links root method target ↔
          (method = bytes "HEAD" → Found tree links root target)) ∧
      ∀ path, Serves platform set path ↔ ∀ name ∈ path.names, Kept set name.text :=
  ⟨fun _ _ _ _ _ => requests_iff, fun _ => serves_iff⟩

/-! A request and a file for which it is not so. -/

/-- The bytes that clients encode in paths. -/
def pathSet : EncodeSet where
  encodes b := b ≤ 0x20 || 0x7F ≤ b || b ∈ bytes "\"#<>?`\x7b\x7d"
  plain b plain := by
    have all : ∀ n < 256, isPlain (UInt8.ofNat n) = true → (UInt8.ofNat n ≤ 0x20 ||
        0x7F ≤ UInt8.ofNat n || UInt8.ofNat n ∈ bytes "\"#<>?`\x7b\x7d") = false := by
      decide +kernel
    have here := all b.toNat b.toNat_lt
    rw [UInt8.ofNat_toNat] at here
    exact here plain
  controls b small := by rw [decide_eq_true small, Bool.true_or, Bool.true_or]

def noDecoders : Platform := ⟨fun _ => none, fun _ => none, fun _ => []⟩

def notes : RelativePath where
  names := [⟨bytes "my notes.txt", by decide⟩]
  below := List.cons_ne_nil _ _
  plain := by decide

def emptySite : Files := fun names => if names = [] then some .directory else none

/-- A `HEAD` of what is not there is sent a body by one front end only, and the URL of a file with a
blank in its name does not bring it. -/
theorem front_ends_differ :
    ¬ Agree noDecoders emptySite 0 (absolute []) (bytes "HEAD") (bytes "/missing.js") ∧
      ¬ Silent noDecoders emptySite 0 (absolute []) (bytes "HEAD") (bytes "/missing.js") ∧
        notes.target pathSet = bytes "/my%20notes.txt" ∧ ¬ Serves noDecoders pathSet notes := by
  have sent : (answer noDecoders emptySite 0 (absolute []) (bytes "HEAD")
      (bytes "/missing.js")).body = bytes "not found" := by decide
  have kept : (answerH2 noDecoders emptySite 0 (absolute []) (bytes "HEAD")
      (bytes "/missing.js")).body = [] := by decide
  refine ⟨fun agree => ?_, fun silent => ?_, by decide, fun serves => ?_⟩
  · rw [agree, kept] at sent
    cases sent
  · have none := (silent rfl).1
    cases none
  · have brings := (serves (only notes.names) 0 [] [] (only_real (prefix_refl _))
      (only_file notes.names)).1
    have status : (answer noDecoders (only notes.names) 0 (absolute []) (bytes "GET")
        (notes.target pathSet)).status = 404 := by decide
    have found := status.symm.trans brings.1
    cases found

end Chuzz.PageServer.FrontEnds
