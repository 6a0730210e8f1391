import Chuzz.Webrtc.Text

/-! Language tags in canonical form. Behind the first check all texts are ASCII, where a length in
bytes is one in characters. -/
namespace Chuzz.Languages
open Webrtc (Text text)
open Webrtc.Text (isAsciiDigit isAsciiAlphanumeric toAsciiLowercase eqIgnoreAsciiCase)

/-- `GRANDFATHERED` -/
def grandfathered : List Text :=
  ["art-lojban", "cel-gaulish", "en-GB-oed", "i-ami", "i-bnn", "i-default", "i-enochian", "i-hak",
    "i-klingon", "i-lux", "i-mingo", "i-navajo", "i-pwn", "i-tao", "i-tay", "i-tsu", "no-bok",
    "no-nyn", "sgn-BE-FR", "sgn-BE-NL", "sgn-CH-DE", "zh-guoyu", "zh-hakka", "zh-min",
    "zh-min-nan", "zh-xiang"].map text

def isAscii (c : Char) : Bool := c.toNat < 128

def isAsciiAlphabetic (c : Char) : Bool := ('a' ≤ c && c ≤ 'z') || ('A' ≤ c && c ≤ 'Z')

def upperChar (c : Char) : Char := if 'a' ≤ c && c ≤ 'z' then Char.ofNat (c.toNat - 32) else c

def toAsciiUppercase (part : Text) : Text := part.map upperChar

/-! Subtags. -/

def isAlpha (part : Text) : Bool := part ≠ [] && part.all isAsciiAlphabetic

def isAlphaLen (part : Text) (len : Nat) : Bool := part.length = len && isAlpha part

def isRegion (part : Text) : Bool :=
  isAlphaLen part 2 || (part.length = 3 && part.all isAsciiDigit)

def canonicalRegion (part : Text) : Text := if part.length = 2 then toAsciiUppercase part else part

def isVariant (part : Text) : Bool :=
  (5 ≤ part.length && part.length ≤ 8 && part.all isAsciiAlphanumeric) ||
    (part.length = 4 && (part.take 1).all isAsciiDigit && (part.drop 1).all isAsciiAlphanumeric)

def isSingleton (part : Text) : Bool :=
  match part with
  | [byte] => isAsciiAlphanumeric byte && byte ≠ 'x' && byte ≠ 'X'
  | _ => false

def isExtensionPart (part : Text) : Bool :=
  2 ≤ part.length && part.length ≤ 8 && part.all isAsciiAlphanumeric

def titleCase : Text → Text
  | first :: rest => upperChar first :: toAsciiLowercase rest
  | [] => []

/-! The parts of a tag. Each step returns what it adds to the result and the parts behind the
cursor. -/

/-- Up to so many extended language subtags. -/
def takeExtlangs : (left : Nat) → List Text → List Text × List Text
  | left + 1, part :: parts =>
    if isAlphaLen part 3 then
      let (more, rest) := takeExtlangs left parts
      (toAsciiLowercase part :: more, rest)
    else ([], part :: parts)
  | _, parts => ([], parts)

/-- A part that may be there. -/
def takeOne (is : Text → Bool) (canonical : Text → Text) : List Text → List Text × List Text
  | part :: parts => if is part then ([canonical part], parts) else ([], part :: parts)
  | [] => ([], [])

def takeVariants (seenVariants : List Text) : List Text → Option (List Text × List Text)
  | part :: parts =>
    if isVariant part then do
      let variant := toAsciiLowercase part
      if seenVariants.any (· = variant) then none
      else
        let (more, rest) ← takeVariants (seenVariants ++ [variant]) parts
        return (variant :: more, rest)
    else some ([], part :: parts)
  | [] => some ([], [])

/-- The extensions, of which there are no more than parts. -/
def takeExtensions : (left : Nat) → (seenSingletons : List Text) → List Text →
    Option (List Text × List Text)
  | left + 1, seenSingletons, part :: parts =>
    if isSingleton part then do
      let singleton := toAsciiLowercase part
      if seenSingletons.any (· = singleton) then none
      else
        let body := parts.takeWhile isExtensionPart
        if body = [] then none
        else
          let (more, rest) ← takeExtensions left (seenSingletons ++ [singleton])
            (parts.dropWhile isExtensionPart)
          return (singleton :: body.map toAsciiLowercase ++ more, rest)
    else some ([], part :: parts)
  | _, _, parts => some ([], parts)

def privateTag (parts : List Text) : Option Text :=
  if parts.length < 2 || !eqIgnoreAsciiCase (parts.headD []) (text "x") then none
  else if parts.tail.any fun part =>
      part = [] || 8 < part.length || !part.all isAsciiAlphanumeric then none
  else some (['-'].intercalate (parts.map toAsciiLowercase))

/-- The parts of a tag that has a primary language, in canonical form. -/
def langtag (primary : Text) (parts : List Text) : Option (List Text) := do
  if !isAlpha primary || !(2 ≤ primary.length && primary.length ≤ 8) then none
  else
    let (extlangs, parts) :=
      if 2 ≤ primary.length && primary.length ≤ 3 then takeExtlangs 3 parts else ([], parts)
    let (script, parts) := takeOne (isAlphaLen · 4) titleCase parts
    let (region, parts) := takeOne isRegion canonicalRegion parts
    let (variants, parts) ← takeVariants [] parts
    let (extensions, parts) ← takeExtensions parts.length [] parts
    if parts ≠ [] then
      let _ ← privateTag parts
    return toAsciiLowercase primary :: extlangs ++ script ++ region ++ variants ++ extensions ++
      parts.map toAsciiLowercase

/-- `canonical_bcp47` -/
def canonicalBcp47 (tag : Text) : Option Text :=
  if tag = [] || 100 < tag.length || !tag.all isAscii then none
  else
    match grandfathered.find? (eqIgnoreAsciiCase · tag) with
    | some known => some known
    | none =>
      if !tag.all (fun byte => isAsciiAlphanumeric byte || byte = '-') || tag.head? = some '-' ||
          tag.getLast? = some '-' || decide (['-', '-'] <:+: tag) then none
      else
        let parts := tag.splitOn '-'
        if parts.any (8 < ·.length) then none
        else if eqIgnoreAsciiCase (parts.headD []) (text "x") then privateTag parts
        else (langtag (parts.headD []) parts.tail).map (['-'].intercalate ·)

example : canonicalBcp47 (text "ZH-cmn-hans-cn-1994-U-co-phonebk-X-Any") =
    some (text "zh-cmn-Hans-CN-1994-u-co-phonebk-x-any") := by decide +kernel

/-! The grammar of language tags, by the subtags between the hyphens. Letters of either case are the
same. -/

/-- `least*most ALPHA` -/
def Letters (least most : Nat) (part : Text) : Prop :=
  least ≤ part.length ∧ part.length ≤ most ∧ ∀ c ∈ part, isAsciiAlphabetic c

/-- `least*most alphanum` -/
def Alphanumerics (least most : Nat) (part : Text) : Prop :=
  least ≤ part.length ∧ part.length ≤ most ∧ ∀ c ∈ part, isAsciiAlphanumeric c

/-- `2ALPHA / 3DIGIT` -/
def Region (part : Text) : Prop :=
  Letters 2 2 part ∨ part.length = 3 ∧ ∀ c ∈ part, isAsciiDigit c

/-- `5*8alphanum / (DIGIT 3alphanum)` -/
def Variant (part : Text) : Prop :=
  Alphanumerics 5 8 part ∨ ∃ digit rest, part = digit :: rest ∧ isAsciiDigit digit ∧
    Alphanumerics 3 3 rest

/-- Any alphanumeric character but `x`. -/
def Singleton (part : Text) : Prop :=
  ∃ c, part = [c] ∧ isAsciiAlphanumeric c ∧ c ≠ 'x' ∧ c ≠ 'X'

/-- `singleton 1*("-" (2*8alphanum))` -/
structure Extension (extension : Text × List Text) : Prop where
  singleton : Singleton extension.1
  some : extension.2 ≠ []
  body : ∀ part ∈ extension.2, Alphanumerics 2 8 part

/-- `"x" 1*("-" (1*8alphanum))` -/
structure PrivateParts (parts : List Text) : Prop where
  first : parts.head? = some ['x'] ∨ parts.head? = some ['X']
  some : parts.tail ≠ []
  body : ∀ part ∈ parts.tail, Alphanumerics 1 8 part

/-- The subtags of a `langtag`. -/
structure Pieces where
  language : Text
  extlangs : List Text
  script : Option Text
  region : Option Text
  variants : List Text
  extensions : List (Text × List Text)
  privateUse : List Text

namespace Pieces
variable (pieces : Pieces)

/-- Behind the language. -/
def later : List Text :=
  pieces.extlangs ++ (pieces.script.toList ++ (pieces.region.toList ++ (pieces.variants ++
    (pieces.extensions.flatMap (fun extension => extension.1 :: extension.2) ++
      pieces.privateUse))))

def parts : List Text := pieces.language :: pieces.later

structure Valid : Prop where
  language : Letters 2 3 pieces.language ∨ Letters 4 8 pieces.language ∧ pieces.extlangs = []
  extlangs : ∀ part ∈ pieces.extlangs, Letters 3 3 part
  few : pieces.extlangs.length ≤ 3
  script : ∀ part ∈ pieces.script, Letters 4 4 part
  region : ∀ part ∈ pieces.region, Region part
  variants : ∀ part ∈ pieces.variants, Variant part
  extensions : ∀ extension ∈ pieces.extensions, Extension extension
  privateUse : pieces.privateUse = [] ∨ PrivateParts pieces.privateUse

/-- No variant and no singleton comes twice. -/
structure Distinct : Prop where
  variants : (pieces.variants.map toAsciiLowercase).Nodup
  singletons : (pieces.extensions.map fun extension => toAsciiLowercase extension.1).Nodup

/-- The subtags in canonical case. -/
def canonical : Pieces where
  language := toAsciiLowercase pieces.language
  extlangs := pieces.extlangs.map toAsciiLowercase
  script := pieces.script.map titleCase
  region := pieces.region.map canonicalRegion
  variants := pieces.variants.map toAsciiLowercase
  extensions := pieces.extensions.map fun extension =>
    (toAsciiLowercase extension.1, extension.2.map toAsciiLowercase)
  privateUse := pieces.privateUse.map toAsciiLowercase

end Pieces

def joined (parts : List Text) : Text := ['-'].intercalate parts

def irregular : List Text :=
  ["en-GB-oed", "i-ami", "i-bnn", "i-default", "i-enochian", "i-hak", "i-klingon", "i-lux",
    "i-mingo", "i-navajo", "i-pwn", "i-tao", "i-tay", "i-tsu", "sgn-BE-FR", "sgn-BE-NL",
    "sgn-CH-DE"].map text

def regular : List Text :=
  ["art-lojban", "cel-gaulish", "no-bok", "no-nyn", "zh-guoyu", "zh-hakka", "zh-min",
    "zh-min-nan", "zh-xiang"].map text

def Grandfathered (tag : Text) : Prop :=
  ∃ known ∈ irregular ++ regular, toAsciiLowercase known = toAsciiLowercase tag

def PrivateUse (tag : Text) : Prop := ∃ parts, PrivateParts parts ∧ tag = joined parts

def Langtag (tag : Text) : Prop :=
  ∃ pieces : Pieces, pieces.Valid ∧ pieces.Distinct ∧ tag = joined pieces.parts

/-- A language tag without repetitions. -/
def WellFormed (tag : Text) : Prop := Grandfathered tag ∨ PrivateUse tag ∨ Langtag tag

/-! What the reader asks of a subtag. -/

variable {part : Text}

theorem letters_iff {len : Nat} (some : 0 < len) :
    isAlphaLen part len = true ↔ Letters len len part := by
  unfold isAlphaLen isAlpha Letters
  simp only [Bool.and_eq_true, decide_eq_true_eq, List.all_eq_true]
  constructor
  · rintro ⟨length, _, letters⟩
    exact ⟨Nat.le_of_eq length.symm, Nat.le_of_eq length, letters⟩
  · rintro ⟨least, most, letters⟩
    refine ⟨Nat.le_antisymm most least, ?_, letters⟩
    rintro rfl
    exact absurd (Nat.lt_of_lt_of_le some least) (Nat.lt_irrefl 0)

theorem region_iff : isRegion part = true ↔ Region part := by
  unfold isRegion Region
  rw [Bool.or_eq_true, letters_iff Nat.zero_lt_two, Bool.and_eq_true, decide_eq_true_eq,
    List.all_eq_true]

theorem variant_iff : isVariant part = true ↔ Variant part := by
  unfold isVariant Variant Alphanumerics
  simp only [Bool.or_eq_true, Bool.and_eq_true, decide_eq_true_eq, List.all_eq_true, and_assoc]
  refine or_congr_right ?_
  constructor
  · rintro ⟨length, first, rest⟩
    match part, length with
    | digit :: others, length =>
      have short : others.length = 3 := Nat.succ.inj length
      exact ⟨digit, others, rfl, first digit List.mem_cons_self, Nat.le_of_eq short.symm,
        Nat.le_of_eq short, rest⟩
  · rintro ⟨digit, others, rfl, first, least, most, rest⟩
    have short := Nat.le_antisymm most least
    refine ⟨congrArg Nat.succ short, fun c member => ?_, rest⟩
    rw [List.mem_singleton.mp member]
    exact first

theorem singleton_iff : isSingleton part = true ↔ Singleton part := by
  unfold isSingleton Singleton
  split
  · simp [and_assoc]
  · rename_i other
    refine iff_of_false Bool.false_ne_true ?_
    rintro ⟨c, rfl, _⟩
    exact other c rfl

theorem extensionPart_iff : isExtensionPart part = true ↔ Alphanumerics 2 8 part := by
  unfold isExtensionPart Alphanumerics
  simp only [Bool.and_eq_true, decide_eq_true_eq, List.all_eq_true, and_assoc]

end Chuzz.Languages
