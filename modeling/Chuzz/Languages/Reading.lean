import Chuzz.Languages.Cases

/-! The reader of language tags takes for each part of the grammar what belongs to it: no subtag of
one part can be one of a later part. -/
namespace Chuzz.Languages
open Webrtc (Text text)
open Webrtc.Text (isAsciiDigit isAsciiAlphanumeric toAsciiLowercase eqIgnoreAsciiCase)

/-- No subtag of this kind comes next. -/
def Stops (kind : Text → Prop) (parts : List Text) : Prop := ∀ part ∈ parts.head?, ¬ kind part

variable {kind : Text → Prop}

theorem Stops.append {first rest : List Text}
    (apart : ∀ part ∈ first, ¬ kind part) (stops : Stops kind rest) : Stops kind (first ++ rest) := by
  cases first with
  | nil => exact stops
  | cons part first =>
    intro next head
    cases head
    exact apart part List.mem_cons_self

/-! The kinds of subtags. -/

theorem digit_not_letter {c : Char} (digit : isAsciiDigit c = true) :
    ¬ isAsciiAlphabetic c = true := by
  simp only [isAsciiDigit, isAsciiAlphabetic, Bool.and_eq_true, Bool.or_eq_true, decide_eq_true_eq,
    Char.le_def, UInt32.le_iff_toNat_le] at *
  have nine : ('9' : Char).val.toNat = 57 := rfl
  have upper : ('A' : Char).val.toNat = 65 := rfl
  have lower : ('a' : Char).val.toNat = 97 := rfl
  omega

variable {part : Text}

theorem region_not_letters (region : Region part) {len : Nat} (long : 3 ≤ len) :
    ¬ Letters len len part := by
  rintro ⟨least, most, letters⟩
  rcases region with ⟨_, short, _⟩ | ⟨length, digits⟩
  · omega
  · cases part with
    | nil => cases length
    | cons c part => exact digit_not_letter (digits c List.mem_cons_self) (letters c List.mem_cons_self)

theorem variant_not_letters (variant : Variant part) {len : Nat} (short : len ≤ 4) :
    ¬ Letters len len part := by
  rintro ⟨least, most, letters⟩
  rcases variant with ⟨long, _, _⟩ | ⟨digit, rest, rfl, first, _⟩
  · omega
  · exact digit_not_letter first (letters digit List.mem_cons_self)

theorem variant_not_region (variant : Variant part) : ¬ Region part := by
  have long : 4 ≤ part.length := by
    rcases variant with ⟨long, _, _⟩ | ⟨digit, rest, rfl, _, long, _, _⟩
    · omega
    · exact Nat.succ_le_succ long
  rintro (⟨_, short, _⟩ | ⟨length, _⟩)
  · omega
  · omega

/-- A single character is not a subtag of another kind. -/
structure Short (part : Text) : Prop where
  letters : ∀ {len}, 2 ≤ len → ¬ Letters len len part
  region : ¬ Region part
  variant : ¬ Variant part
  body : ¬ isExtensionPart part = true

theorem short_single (c : Char) : Short [c] := by
  refine ⟨fun long letters => ?_, ?_, ?_, Bool.false_ne_true⟩
  · have : 2 ≤ 1 := long.trans letters.1
    omega
  · rintro (⟨long, _, _⟩ | ⟨length, _⟩)
    · exact absurd long (Nat.lt_irrefl 1)
    · cases length
  · rintro (⟨long, _, _⟩ | ⟨digit, rest, same, _, long, _⟩)
    · exact absurd (show 5 ≤ 1 from long) (by decide)
    · cases same
      cases long

theorem Singleton.short (singleton : Singleton part) : Short part := by
  obtain ⟨c, rfl, _⟩ := singleton
  exact short_single c

/-! The steps. -/

variable {parts out rest : List Text}

theorem takeExtlangs_sound {left : Nat}
    (taken : takeExtlangs left parts = (out, rest)) : ∃ extlangs, parts = extlangs ++ rest ∧
      out = extlangs.map toAsciiLowercase ∧ extlangs.length ≤ left ∧
        ∀ part ∈ extlangs, Letters 3 3 part := by
  induction left generalizing parts out rest with
  | zero =>
    cases taken
    exact ⟨[], rfl, rfl, Nat.le_refl 0, nofun⟩
  | succ left ih =>
    cases parts with
    | nil =>
      cases taken
      exact ⟨[], rfl, rfl, Nat.zero_le _, nofun⟩
    | cons part parts =>
      unfold takeExtlangs at taken
      split at taken
      · rename_i letters
        cases taken
        obtain ⟨extlangs, same, lowered, few, all⟩ := @ih parts _ _ rfl
        refine ⟨part :: extlangs, by rw [List.cons_append, ← same], by rw [List.map_cons, lowered],
          Nat.succ_le_succ few, fun other member => ?_⟩
        rcases List.mem_cons.mp member with rfl | member
        · exact (letters_iff (by decide)).mp letters
        · exact all other member
      · cases taken
        exact ⟨[], rfl, rfl, Nat.zero_le _, nofun⟩

theorem takeExtlangs_complete {extlangs rest : List Text}
    (all : ∀ part ∈ extlangs, Letters 3 3 part) (stops : Stops (Letters 3 3) rest) {left : Nat}
    (few : extlangs.length ≤ left) :
    takeExtlangs left (extlangs ++ rest) = (extlangs.map toAsciiLowercase, rest) := by
  induction extlangs generalizing left with
  | nil =>
    cases left with
    | zero => rfl
    | succ left =>
      cases rest with
      | nil => rfl
      | cons part rest =>
        have other : ¬ isAlphaLen part 3 = true :=
          fun letters => stops part rfl ((letters_iff (by decide)).mp letters)
        exact if_neg other
  | cons part extlangs ih =>
    obtain ⟨left, rfl⟩ := Nat.exists_eq_add_one.mpr (Nat.zero_lt_of_lt few)
    have letters : isAlphaLen part 3 = true := (letters_iff (by decide)).mpr (all part List.mem_cons_self)
    have later := ih (fun other member => all other (List.mem_cons_of_mem _ member))
      (Nat.le_of_succ_le_succ few)
    rw [List.cons_append, takeExtlangs, if_pos letters, later]
    rfl

theorem takeOne_sound {is : Text → Bool} {canonical : Text → Text}
    (taken : takeOne is canonical parts = (out, rest)) : ∃ part : Option Text,
      parts = part.toList ++ rest ∧ out = (part.map canonical).toList ∧ ∀ one ∈ part, is one := by
  unfold takeOne at taken
  split at taken
  · rename_i part parts
    split at taken
    · rename_i found
      cases taken
      refine ⟨some part, rfl, rfl, fun one held => ?_⟩
      cases held
      exact found
    · cases taken
      exact ⟨none, rfl, rfl, nofun⟩
  · cases taken
    exact ⟨none, rfl, rfl, nofun⟩

theorem takeOne_complete {is : Text → Bool} {canonical : Text → Text} {part : Option Text}
    {rest : List Text} (found : ∀ one ∈ part, is one) (stops : Stops (is · = true) rest) :
    takeOne is canonical (part.toList ++ rest) = ((part.map canonical).toList, rest) := by
  cases part with
  | none =>
    cases rest with
    | nil => rfl
    | cons part rest => exact if_neg (stops part rfl)
  | some part => exact if_pos (found part rfl)

variable {seen parts out rest : List Text}

theorem takeVariants_sound
    (taken : takeVariants seen parts = some (out, rest)) : ∃ variants, parts = variants ++ rest ∧
      out = variants.map toAsciiLowercase ∧ (∀ part ∈ variants, Variant part) ∧
        (variants.map toAsciiLowercase).Nodup ∧
          ∀ part ∈ variants, toAsciiLowercase part ∉ seen := by
  induction parts generalizing seen out rest with
  | nil =>
    cases taken
    exact ⟨[], rfl, rfl, nofun, .nil, nofun⟩
  | cons part parts ih =>
    unfold takeVariants at taken
    split at taken
    · rename_i variant
      dsimp only at taken
      split at taken
      · cases taken
      · rename_i fresh
        obtain ⟨⟨more, rest'⟩, later, taken⟩ := Option.bind_eq_some_iff.mp taken
        cases taken
        obtain ⟨variants, same, lowered, all, distinct, unseen⟩ := ih later
        refine ⟨part :: variants, by rw [List.cons_append, ← same], by rw [List.map_cons, lowered],
          ?_, ?_, ?_⟩
        · exact List.forall_mem_cons.mpr ⟨variant_iff.mp variant, all⟩
        · refine List.nodup_cons.mpr ⟨fun again => ?_, distinct⟩
          obtain ⟨other, member, equal⟩ := List.mem_map.mp again
          exact unseen other member (List.mem_append_right _ (List.mem_singleton.mpr equal))
        · refine List.forall_mem_cons.mpr ⟨fun again => fresh ?_, fun other member again => ?_⟩
          · exact List.any_eq_true.mpr ⟨_, again, decide_eq_true rfl⟩
          · exact unseen other member (List.mem_append_left _ again)
    · cases taken
      exact ⟨[], rfl, rfl, nofun, .nil, nofun⟩

theorem takeVariants_complete {variants seen rest : List Text}
    (all : ∀ part ∈ variants, Variant part) (distinct : (variants.map toAsciiLowercase).Nodup)
    (unseen : ∀ part ∈ variants, toAsciiLowercase part ∉ seen) (stops : Stops Variant rest) :
    takeVariants seen (variants ++ rest) = some (variants.map toAsciiLowercase, rest) := by
  induction variants generalizing seen with
  | nil =>
    cases rest with
    | nil => rfl
    | cons part rest => exact if_neg fun variant => stops part rfl (variant_iff.mp variant)
  | cons part variants ih =>
    obtain ⟨first, all⟩ := List.forall_mem_cons.mp all
    obtain ⟨new, unseen⟩ := List.forall_mem_cons.mp unseen
    obtain ⟨once, distinct⟩ := List.nodup_cons.mp distinct
    have fresh : ¬ seen.any (· = toAsciiLowercase part) = true := by
      intro again
      obtain ⟨other, member, same⟩ := List.any_eq_true.mp again
      exact new (of_decide_eq_true same ▸ member)
    have later := @ih (seen ++ [toAsciiLowercase part]) all distinct fun other member => by
      rw [List.mem_append, List.mem_singleton, not_or]
      exact ⟨unseen other member, fun same => once (List.mem_map.mpr ⟨other, member, same⟩)⟩
    rw [List.cons_append, takeVariants, if_pos (variant_iff.mpr first)]
    rw [if_neg fresh, later]
    rfl

/-- The subtags of some extensions. -/
def extensionParts (extensions : List (Text × List Text)) : List Text :=
  extensions.flatMap fun extension => extension.1 :: extension.2

def canonicalExtension (extension : Text × List Text) : Text × List Text :=
  (toAsciiLowercase extension.1, extension.2.map toAsciiLowercase)

theorem takeExtensions_sound {left : Nat}
    (taken : takeExtensions left seen parts = some (out, rest)) : ∃ extensions,
      parts = extensionParts extensions ++ rest ∧
        out = extensionParts (extensions.map canonicalExtension) ∧
        (∀ extension ∈ extensions, Extension extension) ∧
        (extensions.map fun extension => toAsciiLowercase extension.1).Nodup ∧
          ∀ extension ∈ extensions, toAsciiLowercase extension.1 ∉ seen := by
  induction left generalizing seen parts out rest with
  | zero =>
    cases taken
    exact ⟨[], rfl, rfl, nofun, .nil, nofun⟩
  | succ left ih =>
    cases parts with
    | nil =>
      cases taken
      exact ⟨[], rfl, rfl, nofun, .nil, nofun⟩
    | cons part parts =>
      rw [takeExtensions] at taken
      split at taken
      · rename_i singleton
        dsimp only at taken
        split at taken
        · cases taken
        · rename_i fresh
          split at taken
          · cases taken
          · rename_i some'
            obtain ⟨⟨more, rest'⟩, later, taken⟩ := Option.bind_eq_some_iff.mp taken
            cases taken
            obtain ⟨extensions, same, lowered, all, distinct, unseen⟩ := ih later
            refine ⟨(part, parts.takeWhile isExtensionPart) :: extensions, ?_, ?_, ?_, ?_, ?_⟩
            · change part :: parts = part :: (parts.takeWhile isExtensionPart ++
                extensionParts extensions ++ rest')
              rw [List.append_assoc, ← same, List.takeWhile_append_dropWhile]
            · rw [lowered]
              rfl
            · refine List.forall_mem_cons.mpr ⟨⟨singleton_iff.mp singleton, some', ?_⟩, all⟩
              exact fun body member => extensionPart_iff.mp (List.mem_takeWhile_imp member)
            · refine List.nodup_cons.mpr ⟨fun again => ?_, distinct⟩
              obtain ⟨other, member, equal⟩ := List.mem_map.mp again
              exact unseen other member (List.mem_append_right _ (List.mem_singleton.mpr equal))
            · refine List.forall_mem_cons.mpr ⟨fun again => fresh ?_, fun other member again => ?_⟩
              · exact List.any_eq_true.mpr ⟨_, again, decide_eq_true rfl⟩
              · exact unseen other member (List.mem_append_left _ again)
      · cases taken
        exact ⟨[], rfl, rfl, nofun, .nil, nofun⟩

theorem takeWhile_stops {kind : Text → Bool} {body rest : List Text} (all : ∀ part ∈ body, kind part)
    (stops : Stops (kind · = true) rest) :
    (body ++ rest).takeWhile kind = body ∧ (body ++ rest).dropWhile kind = rest := by
  induction body with
  | nil =>
    cases rest with
    | nil => exact ⟨rfl, rfl⟩
    | cons part rest =>
      have other := stops part rfl
      simp [other]
  | cons part body ih =>
    obtain ⟨first, all⟩ := List.forall_mem_cons.mp all
    obtain ⟨taken, dropped⟩ := ih all
    simp [first, taken, dropped]

variable {extensions : List (Text × List Text)}

theorem extensions_stop {rest : List Text} (apart : ∀ part, Singleton part → ¬ kind part)
    (all : ∀ extension ∈ extensions, Extension extension) (stops : Stops kind rest) :
    Stops kind (extensionParts extensions ++ rest) := by
  cases extensions with
  | nil => exact stops
  | cons extension extensions =>
    intro part head
    cases head
    exact apart _ (all extension List.mem_cons_self).singleton

theorem singleton_not_body (singleton : Singleton part) : ¬ isExtensionPart part = true := by
  obtain ⟨c, rfl, _⟩ := singleton
  exact Bool.false_ne_true

theorem takeExtensions_complete {seen rest : List Text}
    (all : ∀ extension ∈ extensions, Extension extension)
    (distinct : (extensions.map fun extension => toAsciiLowercase extension.1).Nodup)
    (unseen : ∀ extension ∈ extensions, toAsciiLowercase extension.1 ∉ seen)
    (stops : Stops Singleton rest) (ends : Stops (isExtensionPart · = true) rest) {left : Nat}
    (enough : (extensionParts extensions ++ rest).length ≤ left) :
    takeExtensions left seen (extensionParts extensions ++ rest) =
      some (extensionParts (extensions.map canonicalExtension), rest) := by
  induction extensions generalizing seen left with
  | nil =>
    cases rest with
    | nil => cases left <;> rfl
    | cons part rest =>
      obtain ⟨left, rfl⟩ := Nat.exists_eq_add_one.mpr (Nat.zero_lt_of_lt enough)
      exact if_neg fun singleton => stops part rfl (singleton_iff.mp singleton)
  | cons extension extensions ih =>
    obtain ⟨first, all⟩ := List.forall_mem_cons.mp all
    obtain ⟨new, unseen⟩ := List.forall_mem_cons.mp unseen
    obtain ⟨once, distinct⟩ := List.nodup_cons.mp distinct
    have fresh : ¬ seen.any (· = toAsciiLowercase extension.1) = true := by
      intro again
      obtain ⟨other, member, same⟩ := List.any_eq_true.mp again
      exact new (of_decide_eq_true same ▸ member)
    have whole : extensionParts (extension :: extensions) ++ rest =
        extension.1 :: (extension.2 ++ (extensionParts extensions ++ rest)) := by
      change extension.1 :: (extension.2 ++ extensionParts extensions ++ rest) = _
      rw [List.append_assoc]
    rw [whole] at enough ⊢
    obtain ⟨left, rfl⟩ := Nat.exists_eq_add_one.mpr (Nat.zero_lt_of_lt enough)
    obtain ⟨body, behind⟩ := @takeWhile_stops isExtensionPart _ _
      (fun part member => extensionPart_iff.mpr (first.body part member))
      (extensions_stop (fun part => singleton_not_body) all ends)
    have later := @ih (seen ++ [toAsciiLowercase extension.1]) all distinct
      (fun other member => by
        rw [List.mem_append, List.mem_singleton, not_or]
        exact ⟨unseen other member, fun same => once (List.mem_map.mpr ⟨other, member, same⟩)⟩)
      left (by rw [List.length_cons, List.length_append] at enough; omega)
    rw [takeExtensions, if_pos (singleton_iff.mpr first.singleton)]
    rw [if_neg fresh, body, behind, if_neg first.some, later]
    rfl

/-! The whole tag. -/

variable {parts : List Text}

theorem private_stops (valid : parts = [] ∨ PrivateParts parts)
    (apart : ∀ c, c = 'x' ∨ c = 'X' → ¬ kind [c]) : Stops kind parts := by
  intro part head
  rcases valid with rfl | valid
  · cases head
  · rcases valid.first with x | x
    · obtain rfl := Option.some.inj (x.symm.trans head)
      exact apart 'x' (.inl rfl)
    · obtain rfl := Option.some.inj (x.symm.trans head)
      exact apart 'X' (.inr rfl)

theorem headed_iff : eqIgnoreAsciiCase (parts.headD []) (text "x") = true ↔
    parts.head? = some ['x'] ∨ parts.head? = some ['X'] := by
  rw [lowercase_x]
  cases parts <;> simp

theorem private_iff {out : Text} : privateTag parts = some out ↔
    PrivateParts parts ∧ out = joined (parts.map toAsciiLowercase) := by
  have body (part : Text) : (part = [] || 8 < part.length || !part.all isAsciiAlphanumeric) = false ↔
      Alphanumerics 1 8 part := by
    unfold Alphanumerics
    cases part <;> simp
  unfold privateTag
  constructor
  · intro read
    split at read
    · cases read
    · rename_i begins
      split at read
      · cases read
      · rename_i fits
        cases read
        rw [Bool.or_eq_true, not_or, decide_eq_true_eq, Nat.not_lt, Bool.not_eq_true',
          Bool.not_eq_false, headed_iff] at begins
        rw [Bool.not_eq_true, List.any_eq_false] at fits
        refine ⟨⟨begins.2, fun none => ?_, fun part member => ?_⟩, rfl⟩
        · have short := congrArg List.length none
          rw [List.length_tail] at short
          change _ = 0 at short
          omega
        · exact (body part).mp (Bool.eq_false_iff.mpr (fits part member))
  · rintro ⟨valid, rfl⟩
    have several : 2 ≤ parts.length := by
      have some := List.length_pos_of_ne_nil valid.some
      rw [List.length_tail] at some
      omega
    rw [if_neg, if_neg]
    · rfl
    · rw [Bool.not_eq_true, List.any_eq_false]
      exact fun part member => Bool.eq_false_iff.mp ((body part).mpr (valid.body part member))
    · rw [Bool.or_eq_true, not_or, decide_eq_true_eq, Nat.not_lt, Bool.not_eq_true',
        Bool.not_eq_false, headed_iff]
      exact ⟨several, valid.first⟩

theorem primary_iff {primary : Text} :
    (!isAlpha primary || !(2 ≤ primary.length && primary.length ≤ 8)) = false ↔
      Letters 2 8 primary := by
  unfold isAlpha Letters
  cases primary <;> simp [and_comm, and_assoc]

theorem langtag_sound {primary : Text} {rest out : List Text}
    (read : langtag primary rest = some out) :
    ∃ pieces : Pieces, pieces.Valid ∧ pieces.Distinct ∧ pieces.parts = primary :: rest ∧
      out = pieces.canonical.parts := by
  unfold langtag at read
  split at read
  · cases read
  · rename_i letters
    have letters := primary_iff.mp (Bool.eq_false_iff.mpr letters)
    cases taken : (if (2 ≤ primary.length && primary.length ≤ 3) = true then takeExtlangs 3 rest
      else ([], rest)) with
    | mk extlangs' rest₁ =>
    cases scripted : takeOne (isAlphaLen · 4) titleCase rest₁ with
    | mk script' rest₂ =>
    cases located : takeOne isRegion canonicalRegion rest₂ with
    | mk region' rest₃ =>
    rw [taken] at read
    dsimp only at read
    rw [scripted] at read
    rw [located] at read
    obtain ⟨⟨variants', rest₄⟩, varied, read⟩ := Option.bind_eq_some_iff.mp read
    obtain ⟨⟨extensions', rest₅⟩, extended, read⟩ := Option.bind_eq_some_iff.mp read
    obtain ⟨script, rfl, rfl, isScript⟩ := takeOne_sound scripted
    obtain ⟨region, rfl, rfl, isRegion⟩ := takeOne_sound located
    obtain ⟨variants, rfl, rfl, areVariants, onceVariants, _⟩ := takeVariants_sound varied
    obtain ⟨extensions, rfl, rfl, areExtensions, onceExtensions, _⟩ := takeExtensions_sound extended
    have language : ∃ extlangs, rest = extlangs ++ (script.toList ++ (region.toList ++ (variants ++
        (extensionParts extensions ++ rest₅)))) ∧ extlangs' = extlangs.map toAsciiLowercase ∧
        extlangs.length ≤ 3 ∧ (∀ part ∈ extlangs, Letters 3 3 part) ∧
        (Letters 2 3 primary ∨ Letters 4 8 primary ∧ extlangs = []) := by
      split at taken
      · rename_i short
        rw [Bool.and_eq_true, decide_eq_true_eq, decide_eq_true_eq] at short
        obtain ⟨extlangs, same, lowered, few, all⟩ := takeExtlangs_sound taken
        exact ⟨extlangs, same, lowered, few, all, .inl ⟨short.1, short.2, letters.2.2⟩⟩
      · rename_i long
        rw [Bool.and_eq_true, decide_eq_true_eq, decide_eq_true_eq] at long
        cases taken
        refine ⟨[], rfl, rfl, Nat.zero_le 3, nofun, .inr ⟨⟨?_, letters.2.1, letters.2.2⟩, rfl⟩⟩
        have := letters.1
        omega
    obtain ⟨extlangs, rfl, rfl, few, areExtlangs, isLanguage⟩ := language
    have ending : (rest₅ = [] ∨ PrivateParts rest₅) ∧ out = toAsciiLowercase primary ::
        extlangs.map toAsciiLowercase ++ (script.map titleCase).toList ++
        (region.map canonicalRegion).toList ++ variants.map toAsciiLowercase ++
        extensionParts (extensions.map canonicalExtension) ++ rest₅.map toAsciiLowercase := by
      split at read
      · obtain ⟨text, ends, read⟩ := Option.bind_eq_some_iff.mp read
        exact ⟨.inr (private_iff.mp ends).1, (Option.some.inj read).symm⟩
      · rename_i none
        exact ⟨.inl (not_not.mp none), (Option.some.inj read).symm⟩
    obtain ⟨ends, rfl⟩ := ending
    refine ⟨⟨primary, extlangs, script, region, variants, extensions, rest₅⟩,
      ⟨isLanguage, areExtlangs, few, fun part held => (letters_iff (by decide)).mp (isScript part held),
        fun part held => region_iff.mp (isRegion part held), areVariants, areExtensions, ends⟩,
      ⟨onceVariants, onceExtensions⟩, rfl, ?_⟩
    simp only [List.cons_append, List.append_assoc]
    rfl

/-! What is not of a kind of subtag, by what comes behind it. -/
namespace Pieces.Valid
variable {pieces : Pieces} (valid : pieces.Valid) {kind : Text → Prop}
include valid

section
variable (single : ∀ part, Short part → ¬ kind part)
include single

theorem private_stops : Stops kind pieces.privateUse :=
  Languages.private_stops valid.privateUse fun c _ => single _ (short_single c)

theorem extensions_stop : Stops kind (extensionParts pieces.extensions ++ pieces.privateUse) :=
  Languages.extensions_stop (fun part one => single part one.short) valid.extensions
    (valid.private_stops single)

theorem variants_stop (variant : ∀ part, Variant part → ¬ kind part) :
    Stops kind (pieces.variants ++ (extensionParts pieces.extensions ++ pieces.privateUse)) :=
  Stops.append (fun part member => variant part (valid.variants part member))
    (valid.extensions_stop single)

theorem region_stops (variant : ∀ part, Variant part → ¬ kind part) (region : ∀ part, Region part → ¬ kind part) :
    Stops kind (pieces.region.toList ++ (pieces.variants ++
      (extensionParts pieces.extensions ++ pieces.privateUse))) :=
  Stops.append (fun part member => region part (valid.region part (Option.mem_toList.mp member)))
    (valid.variants_stop single variant)

end

/-- Behind the language there are extended languages only if it is short. -/
theorem extlangs_taken : (if (2 ≤ pieces.language.length && pieces.language.length ≤ 3) = true then
    takeExtlangs 3 pieces.later else ([], pieces.later)) =
      (pieces.extlangs.map toAsciiLowercase, pieces.script.toList ++ (pieces.region.toList ++
        (pieces.variants ++ (extensionParts pieces.extensions ++ pieces.privateUse)))) := by
  rcases valid.language with ⟨least, most, _⟩ | ⟨⟨least, _, _⟩, none⟩
  · rw [if_pos (by simp [least, most])]
    refine takeExtlangs_complete valid.extlangs (Stops.append (fun part member => ?_)
      (valid.region_stops (fun part single => single.letters (by decide))
        (fun part variant => variant_not_letters variant (by decide))
        (fun part region => region_not_letters region (by decide)))) valid.few
    have four := (valid.script part (Option.mem_toList.mp member)).1
    exact fun three => absurd (four.trans three.2.1) (by decide)
  · rw [if_neg (by simp only [Bool.and_eq_true, decide_eq_true_eq]; omega), none]
    unfold Pieces.later
    rw [none]
    rfl

end Pieces.Valid

theorem langtag_complete {pieces : Pieces} (valid : pieces.Valid) (distinct : pieces.Distinct) :
    langtag pieces.language pieces.later = some pieces.canonical.parts := by
  have letters : Letters 2 8 pieces.language := by
    rcases valid.language with ⟨least, most, all⟩ | ⟨⟨least, most, all⟩, _⟩
    · exact ⟨least, most.trans (by decide), all⟩
    · exact ⟨Nat.le_trans (by decide) least, most, all⟩
  have script := @takeOne_complete (isAlphaLen · 4) titleCase _ _
    (fun one held => (letters_iff (by decide)).mpr (valid.script one held))
    (valid.region_stops
      (fun part single four => single.letters (by decide) ((letters_iff (by decide)).mp four))
      (fun part variant four => variant_not_letters variant (Nat.le_refl 4)
        ((letters_iff (by decide)).mp four))
      (fun part region four => region_not_letters region (by decide)
        ((letters_iff (by decide)).mp four)))
  have region := @takeOne_complete isRegion canonicalRegion _ _
    (fun one held => region_iff.mpr (valid.region one held))
    (valid.variants_stop (fun part single two => single.region (region_iff.mp two))
      (fun part variant two => variant_not_region variant (region_iff.mp two)))
  have variants := @takeVariants_complete _ [] _ valid.variants distinct.variants nofun
    (valid.extensions_stop fun part single => single.variant)
  have noSingleton : Stops Singleton pieces.privateUse := by
    refine Languages.private_stops valid.privateUse fun c x => ?_
    rintro ⟨d, same, _, small, big⟩
    obtain rfl := (List.cons.inj same).1
    exact x.elim small big
  have extensions := @takeExtensions_complete _ [] _ valid.extensions distinct.singletons nofun
    noSingleton (valid.private_stops fun part single => single.body) _ (Nat.le_refl _)
  have ending (out : List Text) : (if pieces.privateUse ≠ [] then do
      let _ ← privateTag pieces.privateUse
      return out
    else return out) = some out := by
    split
    · rename_i some
      rw [private_iff.mpr ⟨valid.privateUse.resolve_left some, rfl⟩]
      rfl
    · rfl
  unfold langtag
  rw [if_neg (Bool.eq_false_iff.mp (primary_iff.mpr letters)), valid.extlangs_taken]
  dsimp only
  rw [script]
  rw [region]
  rw [variants]
  dsimp only [bind, Option.bind]
  rw [extensions]
  refine (ending _).trans (congrArg some ?_)
  simp only [List.cons_append, List.append_assoc]
  rfl

end Chuzz.Languages
