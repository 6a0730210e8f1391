import Chuzz.Languages.Reading

/-! A language tag has a canonical form exactly if it is well formed. The form differs from the tag
in case only, and is its own form. -/
namespace Chuzz.Languages
open List Option
open Webrtc (Text text)
open Webrtc.Text (isAsciiDigit isAsciiAlphanumeric toAsciiLowercase eqIgnoreAsciiCase)

/-! The subtags of a tag. -/

variable {tag out : Text} {part : Text} {least most : Nat}

theorem Letters.alphanumerics (letters : Letters least most part)
    (short : most ≤ 8) (long : 1 ≤ least) : Alphanumerics 1 8 part := by
  refine ⟨long.trans letters.1, letters.2.1.trans short, fun c member => ?_⟩
  have letter := letters.2.2 c member
  unfold isAsciiAlphabetic at letter
  unfold isAsciiAlphanumeric
  rw [Bool.or_assoc, letter, Bool.or_true]

theorem Alphanumerics.within (alphanumerics : Alphanumerics least most part)
    (short : most ≤ 8) (long : 1 ≤ least) : Alphanumerics 1 8 part :=
  ⟨long.trans alphanumerics.1, alphanumerics.2.1.trans short, alphanumerics.2.2⟩

theorem digit_alphanumeric {c : Char} (digit : isAsciiDigit c = true) :
    isAsciiAlphanumeric c = true := by
  unfold isAsciiAlphanumeric
  rw [digit, Bool.true_or, Bool.true_or]

theorem Region.alphanumerics (region : Region part) : Alphanumerics 1 8 part := by
  rcases region with letters | ⟨length, digits⟩
  · exact letters.alphanumerics (by decide) (by decide)
  · exact ⟨by omega, by omega, fun c member => digit_alphanumeric (digits c member)⟩

theorem Variant.alphanumerics (variant : Variant part) : Alphanumerics 1 8 part := by
  rcases variant with long | ⟨digit, rest, rfl, first, least, most, others⟩
  · exact long.within (by decide) (by decide)
  · refine ⟨Nat.le_add_left 1 _, Nat.succ_le_succ (most.trans (by decide)), ?_⟩
    exact forall_mem_cons.mpr ⟨digit_alphanumeric first, others⟩

theorem Extension.alphanumerics {extension : Text × List Text} (valid : Extension extension) :
    ∀ part ∈ extension.1 :: extension.2, Alphanumerics 1 8 part := by
  refine forall_mem_cons.mpr ⟨?_, fun part member => ?_⟩
  · obtain ⟨c, same, alphanumeric, _⟩ := valid.singleton
    rw [same]
    exact ⟨Nat.le_refl 1, Nat.le_add_left 1 7, forall_mem_singleton.mpr alphanumeric⟩
  · exact (valid.body part member).within (by decide) (by decide)

theorem PrivateParts.alphanumerics {parts : List Text} (valid : PrivateParts parts) :
    ∀ part ∈ parts, Alphanumerics 1 8 part := by
  have first := valid.first
  have body := valid.body
  cases parts with
  | nil => nofun
  | cons x parts =>
    refine forall_mem_cons.mpr ⟨?_, body⟩
    rcases first with same | same
    · obtain rfl := Option.some.inj same
      exact ⟨by decide, by decide, by simp; decide⟩
    · obtain rfl := Option.some.inj same
      exact ⟨by decide, by decide, by simp; decide⟩

theorem Pieces.Valid.alphanumerics {pieces : Pieces} (valid : pieces.Valid) :
    ∀ part ∈ pieces.parts, Alphanumerics 1 8 part := by
  unfold Pieces.parts Pieces.later
  simp only [forall_mem_cons, forall_mem_append]
  refine ⟨?_, ?_, ?_, ?_, ?_, ?_, ?_⟩
  · rcases valid.language with letters | ⟨letters, _⟩
    · exact letters.alphanumerics (by decide) (by decide)
    · exact letters.alphanumerics (by decide) (by decide)
  · exact fun part member => (valid.extlangs part member).alphanumerics (by decide) (by decide)
  · exact fun part member => (valid.script part (mem_toList.mp member)).alphanumerics
      (by decide) (by decide)
  · exact fun part member => (valid.region part (mem_toList.mp member)).alphanumerics
  · exact fun part member => (valid.variants part member).alphanumerics
  · intro part member
    obtain ⟨extension, among, inside⟩ := mem_flatMap.mp member
    exact (valid.extensions extension among).alphanumerics part inside
  · rcases valid.privateUse with none | valid
    · rw [none]
      nofun
    · exact valid.alphanumerics

/-! Subtags and the hyphens between them. -/

/-- What the reader asks of the characters of a tag. -/
structure Plain (tag : Text) : Prop where
  characters : ∀ c ∈ tag, isAsciiAlphanumeric c = true ∨ c = '-'
  some : tag ≠ []
  first : '-' ∉ tag.head?
  last : '-' ∉ tag.getLast?
  single : tag.IsChain fun c d => ¬ (c = '-' ∧ d = '-')

theorem not_hyphen {c : Char} (alphanumeric : isAsciiAlphanumeric c = true) : c ≠ '-' := by
  rintro rfl
  cases alphanumeric

theorem Alphanumerics.no_hyphen (alphanumerics : Alphanumerics least most part) : '-' ∉ part :=
  fun member => not_hyphen (alphanumerics.2.2 '-' member) rfl

theorem Alphanumerics.plain (alphanumerics : Alphanumerics 1 8 part) : Plain part := by
  refine ⟨fun c member => .inl (alphanumerics.2.2 c member), length_pos_iff.mp alphanumerics.1,
    fun first => alphanumerics.no_hyphen (mem_of_head? first),
    fun last => alphanumerics.no_hyphen (mem_of_getLast? last), ?_⟩
  refine isChain_iff_forall_rel_of_append_cons_cons.mpr ?_
  rintro c d before rest rfl ⟨rfl, _⟩
  exact alphanumerics.no_hyphen (mem_append_right _ mem_cons_self)

theorem joined_cons (part next : Text) (parts : List Text) :
    joined (part :: next :: parts) = part ++ '-' :: joined (next :: parts) :=
  intercalate_cons_cons.trans (append_assoc _ _ _)

section
variable {parts : List Text} (some : parts ≠ []) (all : ∀ part ∈ parts, Alphanumerics 1 8 part)
include some all

theorem joined_plain : Plain (joined parts) := by
  induction parts with
  | nil => exact absurd rfl some
  | cons part parts ih =>
    obtain ⟨first, all⟩ := forall_mem_cons.mp all
    cases parts with
    | nil =>
      unfold joined
      rw [intercalate_singleton]
      exact first.plain
    | cons next parts =>
      have rest := ih (cons_ne_nil _ _) all
      rw [joined_cons]
      refine ⟨?_, fun none => first.plain.some (append_eq_nil_iff.mp none).1, ?_, ?_, ?_⟩
      · simp only [forall_mem_append, forall_mem_cons]
        exact ⟨first.plain.characters, .inr trivial, rest.characters⟩
      · rw [head?_append_of_ne_nil _ first.plain.some]
        exact first.plain.first
      · rw [getLast?_append_of_ne_nil _ (cons_ne_nil _ _), getLast?_cons_of_ne_nil rest.some]
        exact rest.last
      · refine first.plain.single.append (rest.single.cons ?_) ?_
        · rintro c head ⟨_, rfl⟩
          exact rest.first head
        · rintro c last d _ ⟨rfl, _⟩
          exact first.plain.last last

theorem splitOn_joined : (joined parts).splitOn '-' = parts :=
  splitOn_intercalate '-' (fun part member => (all part member).no_hyphen) some

end

theorem lowercase_joined (parts : List Text) :
    toAsciiLowercase (joined parts) = joined (parts.map toAsciiLowercase) := by
  induction parts with
  | nil => rfl
  | cons part parts ih =>
    cases parts with
    | nil =>
      unfold joined
      rw [map_singleton, intercalate_singleton, intercalate_singleton]
    | cons next parts =>
      rw [joined_cons, map_cons, map_cons, joined_cons, ← map_cons, ← ih]
      exact map_append

/-! The canonical case. -/

namespace Pieces
variable {pieces : Pieces}

theorem Valid.canonical (valid : pieces.Valid) : pieces.canonical.Valid where
  language := by
    rcases valid.language with letters | ⟨letters, none⟩
    · exact .inl letters.lowercase
    · exact .inr ⟨letters.lowercase, map_eq_nil_iff.mpr none⟩
  extlangs := forall_mem_map.mpr fun part member => (valid.extlangs part member).lowercase
  few := (length_map _).trans_le valid.few
  script := by
    rintro part held
    obtain ⟨other, inside, rfl⟩ := map_eq_some_iff.mp held
    exact (valid.script other inside).title
  region := by
    rintro part held
    obtain ⟨other, inside, rfl⟩ := map_eq_some_iff.mp held
    exact (valid.region other inside).canonical
  variants := forall_mem_map.mpr fun part member => (valid.variants part member).lowercase
  extensions := forall_mem_map.mpr fun extension member =>
    (valid.extensions extension member).lowercase
  privateUse := by
    rcases valid.privateUse with none | valid
    · exact .inl (map_eq_nil_iff.mpr none)
    · exact .inr valid.lowercase

theorem lowercase_twice (parts : List Text) :
    (parts.map toAsciiLowercase).map toAsciiLowercase = parts.map toAsciiLowercase := by
  rw [List.map_map]
  exact List.map_congr_left fun part _ => lowercase_lowercase part

theorem Distinct.canonical (distinct : pieces.Distinct) : pieces.canonical.Distinct where
  variants := by
    change ((pieces.variants.map toAsciiLowercase).map toAsciiLowercase).Nodup
    rw [lowercase_twice]
    exact distinct.variants
  singletons := by
    unfold Pieces.canonical
    rw [List.map_map]
    refine (List.map_congr_left fun extension _ => ?_).symm ▸ distinct.singletons
    exact lowercase_lowercase extension.1

theorem canonical_canonical (pieces : Pieces) : pieces.canonical.canonical = pieces.canonical := by
  have optional {case : Text → Text} (twice : ∀ part, case (case part) = case part)
      (part : Option Text) : (part.map case).map case = part.map case := by
    cases part with
    | none => rfl
    | some part => exact congrArg some (twice part)
  have extensions : (pieces.extensions.map canonicalExtension).map canonicalExtension =
      pieces.extensions.map canonicalExtension := by
    rw [List.map_map]
    exact map_congr_left fun extension _ =>
      Prod.ext (lowercase_lowercase extension.1) (lowercase_twice extension.2)
  rw [Pieces.mk.injEq]
  exact ⟨lowercase_lowercase _, lowercase_twice _, optional title_title _,
    optional region_region _, lowercase_twice _, extensions, lowercase_twice _⟩

theorem lowercase_canonical (pieces : Pieces) :
    pieces.canonical.parts.map toAsciiLowercase = pieces.parts.map toAsciiLowercase := by
  have optional {case : Text → Text}
      (lower : ∀ part, toAsciiLowercase (case part) = toAsciiLowercase part) (part : Option Text) :
      (part.map case).toList.map toAsciiLowercase = part.toList.map toAsciiLowercase := by
    cases part with
    | none => rfl
    | some part => exact congrArg (List.cons · []) (lower part)
  have extensions : (extensionParts (pieces.extensions.map canonicalExtension)).map
      toAsciiLowercase = (extensionParts pieces.extensions).map toAsciiLowercase := by
    unfold extensionParts
    rw [flatMap_map, map_flatMap, map_flatMap]
    refine congrArg List.flatten (map_congr_left fun extension _ => ?_)
    exact congrArg₂ List.cons (lowercase_lowercase _) (lowercase_twice _)
  change (_ :: (_ ++ (_ ++ (_ ++ (_ ++ (extensionParts _ ++ _)))))).map _ =
    (_ :: (_ ++ (_ ++ (_ ++ (_ ++ (extensionParts _ ++ _)))))).map _
  simp only [map_cons, map_append]
  unfold canonical
  rw [lowercase_lowercase, lowercase_twice, optional lowercase_title, optional lowercase_region,
    lowercase_twice, lowercase_twice]
  exact congrArg _ (congrArg _ (congrArg _ (congrArg _ (congrArg _ (congrArg (· ++ _) extensions)))))

end Pieces

/-! The reader. -/

/-- The canonical forms of the tags that are not grandfathered. -/
inductive Form : Text → Text → Prop
  | privateUse {parts} (valid : PrivateParts parts) :
      Form (joined parts) (joined (parts.map toAsciiLowercase))
  | langtag {pieces : Pieces} (valid : pieces.Valid) (distinct : pieces.Distinct) :
      Form (joined pieces.parts) (joined pieces.canonical.parts)

theorem Form.plain (form : Form tag out) : Plain tag := by
  cases form with
  | privateUse valid =>
    refine joined_plain ?_ valid.alphanumerics
    rintro rfl
    exact valid.some rfl
  | langtag valid => exact joined_plain (cons_ne_nil _ _) valid.alphanumerics

theorem Form.lowercase (form : Form tag out) : toAsciiLowercase out = toAsciiLowercase tag := by
  cases form with
  | privateUse valid => rw [lowercase_joined, lowercase_joined, Pieces.lowercase_twice]
  | langtag valid => rw [lowercase_joined, lowercase_joined, Pieces.lowercase_canonical]

theorem Form.again (form : Form tag out) : Form out out := by
  cases form with
  | privateUse valid =>
    have form := Form.privateUse valid.lowercase
    rwa [Pieces.lowercase_twice] at form
  | langtag valid distinct =>
    have form := Form.langtag valid.canonical distinct.canonical
    rwa [Pieces.canonical_canonical] at form

/-- A tag has at most this many bytes, and all of them are ASCII. -/
structure Admitted (tag : Text) : Prop where
  short : tag.length ≤ 100
  ascii : ∀ c ∈ tag, isAscii c

theorem Admitted.begins {tag : Text} (admitted : Admitted tag) (some : tag ≠ []) :
    ¬ (tag = [] || 100 < tag.length || !tag.all isAscii) = true := by
  have ascii := all_eq_true.mpr admitted.ascii
  simp [some, admitted.short, ascii]

theorem canonical_sound (none : grandfathered.find? (eqIgnoreAsciiCase · tag) = none)
    (read : canonicalBcp47 tag = some out) : Form tag out := by
  unfold canonicalBcp47 at read
  split at read
  · cases read
  rw [none] at read
  dsimp only at read
  split at read
  · cases read
  split at read
  · cases read
  obtain ⟨first, rest, cut⟩ := exists_cons_of_ne_nil (splitOn_ne_nil '-' tag)
  have whole : joined (tag.splitOn '-') = tag := intercalate_splitOn '-'
  rw [cut] at whole read
  rw [← whole]
  split at read
  · obtain ⟨valid, rfl⟩ := private_iff.mp read
    exact .privateUse valid
  · obtain ⟨parts, taken, rfl⟩ := map_eq_some_iff.mp read
    obtain ⟨pieces, valid, distinct, same, rfl⟩ := langtag_sound taken
    have form := Form.langtag valid distinct
    rwa [same] at form

theorem canonical_complete (admitted : Admitted tag)
    (none : grandfathered.find? (eqIgnoreAsciiCase · tag) = none) (form : Form tag out) :
    canonicalBcp47 tag = some out := by
  have plain := form.plain
  have characters : tag.all (fun byte => isAsciiAlphanumeric byte || byte = '-') = true := by
    refine all_eq_true.mpr fun c member => ?_
    rw [Bool.or_eq_true, decide_eq_true_eq]
    exact plain.characters c member
  have single : ¬ ['-', '-'] <:+: tag := by
    intro twice
    have apart := List.IsChain.infix plain.single twice
    exact isChain_pair.mp apart ⟨rfl, rfl⟩
  have short {parts : List Text} (all : ∀ part ∈ parts, Alphanumerics 1 8 part) :
      ¬ parts.any (8 < ·.length) = true := by
    intro long
    obtain ⟨part, member, long⟩ := any_eq_true.mp long
    exact absurd (of_decide_eq_true long) (Nat.not_lt.mpr (all part member).2.1)
  unfold canonicalBcp47
  rw [if_neg (admitted.begins plain.some), none]
  have first := plain.first
  have last := plain.last
  rw [if_neg (by simpa [characters, single] using ⟨first, last⟩)]
  cases form with
  | @privateUse parts valid =>
    rw [splitOn_joined (fun none => valid.some (congrArg List.tail none)) valid.alphanumerics,
      if_neg (short valid.alphanumerics), if_pos (headed_iff.mpr valid.first)]
    exact private_iff.mpr ⟨valid, rfl⟩
  | @langtag pieces valid distinct =>
    have other : ¬ eqIgnoreAsciiCase (pieces.parts.headD []) (text "x") = true := by
      intro x
      have long : 2 ≤ pieces.language.length := by
        rcases valid.language with letters | ⟨letters, _⟩
        · exact letters.1
        · exact Nat.le_trans (by decide) letters.1
      rcases lowercase_x.mp x with same | same
      · exact absurd (congrArg List.length same) (Nat.ne_of_gt long)
      · exact absurd (congrArg List.length same) (Nat.ne_of_gt long)
    rw [@splitOn_joined pieces.parts (cons_ne_nil _ _) valid.alphanumerics,
      if_neg (short valid.alphanumerics), if_neg other]
    exact congrArg (Option.map _) (langtag_complete valid distinct)

theorem Admitted.lowercase (admitted : Admitted tag)
    (same : toAsciiLowercase out = toAsciiLowercase tag) : Admitted out := by
  have ascii (part : Text) :
      (∀ c ∈ toAsciiLowercase part, isAscii c) ↔ ∀ c ∈ part, isAscii c := by
    rw [lowercase_eq, List.forall_mem_map]
    exact forall₂_congr fun c _ => by rw [(cases_agree c).lower_ascii]
  have length := congrArg List.length same
  rw [lowercase_eq, lowercase_eq, length_map, length_map] at length
  refine ⟨length.trans_le admitted.short, (ascii out).mp ?_⟩
  rw [same]
  exact (ascii tag).mpr admitted.ascii

example : canonicalBcp47 (text "ZH-hans-cn") = some (text "zh-Hans-CN") := by decide +kernel

theorem grandfathered_iff {tag : Text} :
    (grandfathered.find? (eqIgnoreAsciiCase · tag)).isSome ↔ Grandfathered tag := by
  have same : ∀ known, known ∈ grandfathered ↔ known ∈ irregular ++ regular := by
    have perm : grandfathered.Perm (irregular ++ regular) := by decide +kernel
    exact fun known => perm.mem_iff
  rw [find?_isSome]
  unfold Grandfathered eqIgnoreAsciiCase
  simp only [decide_eq_true_eq, same]

theorem known_canonical : ∀ known ∈ grandfathered, canonicalBcp47 known = some known := by
  decide +kernel

example : canonicalBcp47 (text "DE-") = none := by decide +kernel

/-- A tag has a canonical form exactly if it is well formed, and that form differs from it in case
only and is its own form. -/
theorem canonicalBcp47_iff (tag : Text) (admitted : Admitted tag) :
    ((canonicalBcp47 tag).isSome ↔ WellFormed tag) ∧ ∀ out ∈ canonicalBcp47 tag,
      toAsciiLowercase out = toAsciiLowercase tag ∧ canonicalBcp47 out = some out := by
  cases found : grandfathered.find? (eqIgnoreAsciiCase · tag) with
  | some known =>
    have old : Grandfathered tag := grandfathered_iff.mp (isSome_of_eq_some found)
    have same : toAsciiLowercase known = toAsciiLowercase tag := of_decide_eq_true
      (@find?_some _ (eqIgnoreAsciiCase · tag) _ _ found)
    have some : tag ≠ [] := by
      rintro rfl
      obtain rfl := map_eq_nil_iff.mp same
      cases known_canonical [] (mem_of_find?_eq_some found)
    have read : canonicalBcp47 tag = .some known := by
      unfold canonicalBcp47
      rw [if_neg (admitted.begins some), found]
    rw [read]
    refine ⟨iff_of_true rfl (.inl old), ?_⟩
    rintro _ ⟨⟩
    exact ⟨same, known_canonical known (mem_of_find?_eq_some found)⟩
  | none =>
    have new : ¬ Grandfathered tag := fun old => by
      have found' := grandfathered_iff.mpr old
      rw [found] at found'
      cases found'
    refine ⟨⟨fun read => ?_, fun wellFormed => ?_⟩, fun out read => ?_⟩
    · obtain ⟨out, read⟩ := isSome_iff_exists.mp read
      cases canonical_sound found read with
      | privateUse valid => exact .inr (.inl ⟨_, valid, rfl⟩)
      | langtag valid distinct => exact .inr (.inr ⟨_, valid, distinct, rfl⟩)
    · rcases wellFormed with old | ⟨parts, valid, rfl⟩ | ⟨pieces, valid, distinct, rfl⟩
      · exact absurd old new
      · exact isSome_of_eq_some (canonical_complete admitted found (.privateUse valid))
      · exact isSome_of_eq_some (canonical_complete admitted found (.langtag valid distinct))
    · have form := canonical_sound found read
      have unknown : grandfathered.find? (eqIgnoreAsciiCase · out) = none := by
        unfold eqIgnoreAsciiCase at found ⊢
        rwa [form.lowercase]
      exact ⟨form.lowercase,
        canonical_complete (admitted.lowercase form.lowercase) unknown form.again⟩

theorem canonicalBcp47_german : canonicalBcp47 (text "DE-ch-1996") = some (text "de-CH-1996") ∧
    WellFormed (text "DE-ch-1996") ∧
      canonicalBcp47 (text "de-CH-1996") = some (text "de-CH-1996") := by
  have read : canonicalBcp47 (text "DE-ch-1996") = some (text "de-CH-1996") := by decide +kernel
  obtain ⟨accepted, results⟩ := canonicalBcp47_iff (text "DE-ch-1996") ⟨by decide, by simp [text, isAscii]⟩
  exact ⟨read, accepted.mp (isSome_of_eq_some read), (results _ read).2⟩

end Chuzz.Languages
