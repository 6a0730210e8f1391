import Mathlib

/-! The path of a URL that is written as an origin and a relative path, as the parser of URLs makes
it for schemes with a host. -/
namespace Library.UrlPaths
open List

abbrev Bytes := List UInt8

def isAlphanumeric (b : UInt8) : Bool :=
  (0x30 ≤ b && b ≤ 0x39) || (0x41 ≤ b && b ≤ 0x5A) || (0x61 ≤ b && b ≤ 0x7A)

/-- Letters, digits, `.` and `%` -/
def isPlain (b : UInt8) : Bool := isAlphanumeric b || b = 0x2E || b = 0x25

/-- The bytes of a path that are percent-encoded. -/
structure EncodeSet where
  encodes : UInt8 → Bool
  plain : ∀ b, isPlain b = true → encodes b = false
  controls : ∀ b, b ≤ 0x20 → encodes b = true

def hexDigit (n : Nat) : UInt8 := UInt8.ofNat (if n < 10 then 0x30 + n else 0x37 + n)

variable (set : EncodeSet)

def encodeByte (b : UInt8) : Bytes :=
  if set.encodes b then [0x25, hexDigit (b.toNat / 16), hexDigit (b.toNat % 16)] else [b]

def encode (piece : Bytes) : Bytes := piece.flatMap (encodeByte set)

/-- A dot, or its code in either case. -/
def singleDots : List Bytes := [[0x2E], [0x25, 0x32, 0x65], [0x25, 0x32, 0x45]]

def isSingleDot (piece : Bytes) : Bool := piece ∈ singleDots

def isDoubleDot (piece : Bytes) : Bool :=
  piece ∈ singleDots.flatMap fun first => singleDots.map (first ++ ·)

/-- The pieces of the path; a dot at its end leaves an empty one. -/
def walk (path : List Bytes) : List Bytes → List Bytes
  | [] => path
  | piece :: rest =>
    let piece := encode set piece
    let ended := if rest = [] then [[]] else []
    if isDoubleDot piece then walk (path.dropLast ++ ended) rest
    else if isSingleDot piece then walk (path ++ ended) rest
    else walk (path ++ [piece]) rest

def isSeparator (b : UInt8) : Bool := b = 0x2F || b = 0x5C

/-- The relative path as far as the parser takes it for the path: without the white space at its
end, without tabs and line ends, and up to a query or a fragment. -/
def written (relative : Bytes) : Bytes :=
  ((relative.rdropWhile (· ≤ 0x20)).filter (· ∉ [0x09, 0x0A, 0x0D])).takeWhile
    fun b => b ≠ 0x3F && b ≠ 0x23

def pieces (relative : Bytes) : List Bytes := walk set [] ((written relative).splitOnP isSeparator)

def joined (pieces : List Bytes) : Bytes := [0x2F].intercalate pieces

/-- The path of the URL. -/
def urlPath (relative : Bytes) : Bytes := 0x2F :: joined (pieces set relative)

/-- A name that the parser leaves as it is. -/
structure Kept (name : Bytes) : Prop where
  some : name ≠ []
  bytes : ∀ b ∈ name, set.encodes b = false ∧ isSeparator b = false ∧ b ≠ 0x3F ∧ b ≠ 0x23
  single : isSingleDot name = false
  double : isDoubleDot name = false

variable {set}

theorem hexDigit_plain {n : Nat} (small : n < 16) : isPlain (hexDigit n) = true := by
  revert n
  decide

theorem plain_byte {b : UInt8} (plain : isPlain b = true) :
    set.encodes b = false ∧ isSeparator b = false ∧ b ≠ 0x3F ∧ b ≠ 0x23 := by
  refine ⟨set.plain b plain, ?_, ?_, ?_⟩
  · unfold isSeparator
    rw [Bool.or_eq_false_iff, decide_eq_false_iff_not, decide_eq_false_iff_not]
    constructor <;> rintro rfl <;> cases plain
  · rintro rfl
    cases plain
  · rintro rfl
    cases plain

/-- What no piece contains when it is encoded. -/
theorem encode_bytes {piece : Bytes}
    (bytes : ∀ b ∈ piece, isSeparator b = false ∧ b ≠ 0x3F ∧ b ≠ 0x23) :
    ∀ b ∈ encode set piece,
      set.encodes b = false ∧ isSeparator b = false ∧ b ≠ 0x3F ∧ b ≠ 0x23 := by
  intro b member
  obtain ⟨source, inside, member⟩ := mem_flatMap.mp member
  unfold encodeByte at member
  split at member
  · refine plain_byte ?_
    have small := source.toNat_lt
    simp only [mem_cons, not_mem_nil, or_false] at member
    rcases member with rfl | rfl | rfl
    · rfl
    · exact hexDigit_plain (by omega)
    · exact hexDigit_plain (Nat.mod_lt _ (by decide))
  · rename_i kept
    obtain rfl := mem_singleton.mp member
    exact ⟨Bool.eq_false_iff.mpr kept, bytes b inside⟩

/-- What the parser pushes it would leave as it is. -/
theorem walk_kept {path : List Bytes} {parts : List Bytes}
    (before : ∀ piece ∈ path, piece = [] ∨ Kept set piece)
    (bytes : ∀ piece ∈ parts, ∀ b ∈ piece, isSeparator b = false ∧ b ≠ 0x3F ∧ b ≠ 0x23) :
    ∀ piece ∈ walk set path parts, piece = [] ∨ Kept set piece := by
  induction parts generalizing path with
  | nil => exact before
  | cons part parts ih =>
    obtain ⟨first, bytes⟩ := forall_mem_cons.mp bytes
    have ended : ∀ piece ∈ (if parts = [] then [[]] else [] : List Bytes), piece = [] := by
      intro piece member
      split at member
      · exact mem_singleton.mp member
      · cases member
    have appended {path more : List Bytes} (before : ∀ piece ∈ path, piece = [] ∨ Kept set piece)
        (more' : ∀ piece ∈ more, piece = [] ∨ Kept set piece) :
        ∀ piece ∈ path ++ more, piece = [] ∨ Kept set piece :=
      forall_mem_append.mpr ⟨before, more'⟩
    unfold walk
    dsimp only
    split
    · refine ih (appended (fun piece member => before piece ((dropLast_subset _) member))
        fun piece member => .inl (ended piece member)) bytes
    · split
      · exact ih (appended before fun piece member => .inl (ended piece member)) bytes
      · rename_i double single
        refine ih (appended before ?_) bytes
        refine forall_mem_singleton.mpr ?_
        by_cases none : encode set part = []
        · exact .inl none
        · exact .inr ⟨none, encode_bytes first, Bool.eq_false_iff.mpr single,
            Bool.eq_false_iff.mpr double⟩

/-- A piece of a split has no separator, and only bytes of the whole. -/
theorem mem_splitOnP {p : UInt8 → Bool} {text : Bytes} :
    ∀ piece ∈ text.splitOnP p, ∀ b ∈ piece, p b = false ∧ b ∈ text := by
  induction text with
  | nil =>
    intro piece member
    rw [splitOnP_nil, mem_singleton] at member
    rw [member]
    nofun
  | cons c text ih =>
    have inside : ∀ piece ∈ text.splitOnP p, ∀ b ∈ piece, p b = false ∧ b ∈ c :: text :=
      fun piece member b held => ⟨(ih piece member b held).1, mem_cons_of_mem _ (ih piece member b held).2⟩
    rw [splitOnP_cons_eq_if_modifyHead]
    split
    · exact forall_mem_cons.mpr ⟨nofun, inside⟩
    · rename_i other
      obtain ⟨first, rest, cut⟩ := exists_cons_of_ne_nil (splitOnP_ne_nil p text)
      rw [cut] at inside ⊢
      obtain ⟨here, inside⟩ := forall_mem_cons.mp inside
      refine forall_mem_cons.mpr ⟨forall_mem_cons.mpr ⟨?_, here⟩, inside⟩
      exact ⟨Bool.eq_false_iff.mpr other, mem_cons_self⟩

/-- The parser makes nothing that it would not leave as it is. -/
theorem pieces_kept (relative : Bytes) : ∀ piece ∈ pieces set relative, piece = [] ∨ Kept set piece := by
  refine walk_kept nofun fun piece member b held => ?_
  obtain ⟨apart, inside⟩ := mem_splitOnP piece member b held
  have path := mem_takeWhile_imp inside
  rw [Bool.and_eq_true, decide_eq_true_eq, decide_eq_true_eq] at path
  exact ⟨apart, path⟩

theorem Kept.encode {name : Bytes} (kept : Kept set name) : encode set name = name := by
  have same : ∀ b ∈ name, encodeByte set b = [b] := by
    intro b member
    exact if_neg (Bool.eq_false_iff.mp (kept.bytes b member).1)
  unfold UrlPaths.encode
  rw [flatMap_def, map_congr_left same, ← flatMap_def]
  exact flatMap_singleton' name

theorem walk_names {path names : List Bytes} (kept : ∀ name ∈ names, Kept set name) :
    walk set path names = path ++ names := by
  induction names generalizing path with
  | nil => exact (append_nil path).symm
  | cons name names ih =>
    obtain ⟨first, kept⟩ := forall_mem_cons.mp kept
    unfold walk
    rw [first.encode, if_neg (Bool.eq_false_iff.mp first.double),
      if_neg (Bool.eq_false_iff.mp first.single), ih kept, append_assoc]
    rfl

theorem joined_cons (name next : Bytes) (names : List Bytes) :
    joined (name :: next :: names) = name ++ 0x2F :: joined (next :: names) :=
  intercalate_cons_cons.trans (append_assoc _ _ _)

variable {names : List Bytes}

theorem mem_joined {b : UInt8} (member : b ∈ joined names) :
    b = 0x2F ∨ ∃ name ∈ names, b ∈ name := by
  induction names with
  | nil => cases member
  | cons name names ih =>
    cases names with
    | nil =>
      unfold joined at member
      rw [intercalate_singleton] at member
      exact .inr ⟨name, mem_cons_self, member⟩
    | cons next names =>
      rw [joined_cons, mem_append, mem_cons] at member
      rcases member with member | slash | member
      · exact .inr ⟨name, mem_cons_self, member⟩
      · exact .inl slash
      · exact (ih member).imp id fun ⟨other, among, inside⟩ =>
          ⟨other, mem_cons_of_mem _ among, inside⟩

theorem splitOnP_joined (some : names ≠ []) {p : UInt8 → Bool} (slash : p 0x2F = true)
    (apart : ∀ name ∈ names, ∀ b ∈ name, p b = false) : (joined names).splitOnP p = names := by
  induction names with
  | nil => exact absurd rfl some
  | cons name names ih =>
    obtain ⟨first, apart⟩ := forall_mem_cons.mp apart
    cases names with
    | nil =>
      unfold joined
      rw [intercalate_singleton]
      exact splitOnP_eq_singleton first
    | cons next names =>
      rw [joined_cons, splitOnP_append_cons_of_forall_mem first _ slash,
        ih (cons_ne_nil _ _) apart]

theorem written_joined (kept : ∀ name ∈ names, Kept set name) :
    written (joined names) = joined names := by
  have large : ∀ b ∈ joined names, ¬ b ≤ 0x20 := by
    intro b member small
    rcases mem_joined member with rfl | ⟨name, among, inside⟩
    · exact absurd small (by decide)
    · have encoded := set.controls b small
      rw [((kept name among).bytes b inside).1] at encoded
      cases encoded
  have trimmed : (joined names).rdropWhile (· ≤ 0x20) = joined names :=
    rdropWhile_eq_self_iff.mpr fun some small =>
      large _ (getLast_mem some) (of_decide_eq_true small)
  have whole : (joined names).filter (· ∉ [0x09, 0x0A, 0x0D]) = joined names := by
    have small : ∀ b ∈ ([0x09, 0x0A, 0x0D] : Bytes), b ≤ 0x20 := by simp
    exact filter_eq_self.mpr fun b member =>
      decide_eq_true fun control => large b member (small b control)
  have path : ∀ b ∈ joined names, (b ≠ 0x3F && b ≠ 0x23) = true := by
    intro b member
    rw [Bool.and_eq_true, decide_eq_true_eq, decide_eq_true_eq]
    rcases mem_joined member with rfl | ⟨name, among, inside⟩
    · decide
    · exact ((kept name among).bytes b inside).2.2
  unfold written
  rw [trimmed, whole]
  exact takeWhile_eq_self_iff.mpr path

/-- The parser leaves a path of such names as it is. -/
theorem urlPath_joined (some : names ≠ []) (kept : ∀ name ∈ names, Kept set name) :
    urlPath set (joined names) = 0x2F :: joined names := by
  unfold urlPath pieces
  rw [written_joined kept, splitOnP_joined some rfl fun name member b held =>
    ((kept name member).bytes b held).2.1, walk_names kept]
  rfl

end Library.UrlPaths
