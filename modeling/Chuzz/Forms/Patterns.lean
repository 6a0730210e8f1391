import Chuzz.Forms.Multipart

/-! What the reader's patterns match in a disposition that the writer has made. A name is
matched in its encoded form, where a backslash still hides the character behind it. -/
namespace Chuzz.Forms
open List

/-- A string's encoded form, a character for each byte. -/
def latin (text : Text) : Text := binary (encode text)

/-- The characters of a string in the source's own alphabet. -/
def Ascii (c : Char) : Prop := c.toNat < 0x80

instance (c : Char) : Decidable (Ascii c) := inferInstanceAs (Decidable (_ < _))

/-- Whether a backslash stands before the end of a quotation. -/
def dangling : Text → Bool
  | [] => false
  | [c] => c = '\\'
  | c :: d :: rest => if c = '\\' then dangling rest else dangling (d :: rest)

/-- What a quotation reads as. -/
def plain : Text → Text
  | c :: d :: rest => if c = '\\' then d :: plain rest else c :: plain (d :: rest)
  | text => text

/-- Whether a name ends in what begins a file name's parameter. -/
def hides : Text → Bool
  | [] => false
  | c :: rest =>
    (c = ';' && (rest.dropWhile space).map lower = "filename=".toList) || hides rest

theorem latin_append (first second : Text) : latin (first ++ second) = latin first ++ latin second := by
  rw [latin, encode, flatMap_append, binary, map_append]
  rfl

variable {c : Char}

theorem latin_single (ascii : Ascii c) : latin [c] = [c] := by
  have small : c.toNat < 0x80 := ascii
  have byte : (UInt8.ofNat c.toNat).toNat = c.toNat := toNat_ofNat (by omega)
  rw [latin, encode, flatMap_singleton, encodeChar, if_pos small, binary, map_singleton,
    byte, Char.ofNat_toNat]

theorem latin_cons (ascii : Ascii c) (text : Text) : latin (c :: text) = c :: latin text := by
  rw [← singleton_append, latin_append, latin_single ascii, singleton_append]

theorem latin_step (c : Char) (text : Text) : latin (c :: text) = latin [c] ++ latin text := by
  rw [← latin_append, singleton_append]

variable {text : Text}

theorem forall_text {P : Char → Prop} [DecidablePred P]
    (all : text.all (fun c => decide (P c)) = true) : ∀ c ∈ text, P c :=
  fun c inside => of_decide_eq_true (all_eq_true.mp all c inside)

theorem latin_ascii (ascii : ∀ c ∈ text, Ascii c) : latin text = text := by
  induction text with
  | nil => rfl
  | cons c rest ih =>
    rw [latin_cons (ascii c mem_cons_self),
      ih fun d inside => ascii d (mem_cons_of_mem c inside)]

/-- The bytes of a character outside of the alphabet are outside of it too. -/
theorem latin_wide (wide : ¬ Ascii c) : latin [c] ≠ [] ∧ ∀ d ∈ latin [c], ¬ Ascii d := by
  have valid := valid c
  have wide : ¬ c.toNat < 0x80 := wide
  have above : ∀ code, 0x80 ≤ code → code < 0x100 →
      ¬ Ascii (Char.ofNat (UInt8.ofNat code).toNat) := by
    intro code above below ascii
    rw [toNat_ofNat below, Ascii, ofNat_code (by omega)] at ascii
    omega
  rw [latin, encode, flatMap_singleton, encodeChar, if_neg wide]
  split
  · refine ⟨cons_ne_nil _ _, ?_⟩
    simp only [binary, map_cons, map_nil, forall_mem_cons]
    exact ⟨above _ (by omega) (by omega), above _ (by omega) (by omega), by simp⟩
  · split
    · refine ⟨cons_ne_nil _ _, ?_⟩
      simp only [binary, map_cons, map_nil, forall_mem_cons]
      exact ⟨above _ (by omega) (by omega), above _ (by omega) (by omega),
        above _ (by omega) (by omega), by simp⟩
    · refine ⟨cons_ne_nil _ _, ?_⟩
      simp only [binary, map_cons, map_nil, forall_mem_cons]
      exact ⟨above _ (by omega) (by omega), above _ (by omega) (by omega),
        above _ (by omega) (by omega), above _ (by omega) (by omega), by simp⟩

theorem mem_latin (ascii : Ascii c) (text : Text) : c ∈ latin text ↔ c ∈ text := by
  induction text with
  | nil => exact Iff.rfl
  | cons d rest ih =>
    by_cases other : Ascii d
    · rw [latin_cons other, mem_cons, mem_cons, ih]
    · have apart : c ∉ latin [d] := fun inside => (latin_wide other).2 c inside ascii
      have unequal : c ≠ d := by
        rintro rfl
        exact other ascii
      rw [← singleton_append, latin_append, mem_append, ih, mem_append,
        mem_singleton]
      simp [apart, unequal]

theorem latin_small (text : Text) : ∀ c ∈ latin text, c.toNat < 0x100 := by
  intro c inside
  obtain ⟨byte, _, rfl⟩ := mem_map.mp inside
  have small : byte.toNat < 256 := byte.toNat_lt
  rw [ofNat_code (by omega)]
  exact small

/-- No character of an encoded string ends a line unless one of the string does. -/
theorem latin_line (carriage : '\r' ∉ text) (feed : '\n' ∉ text) :
    ∀ c ∈ latin text, lineTerminator c = false := by
  intro c inside
  have small := latin_small text c inside
  have first : c ≠ '\n' := by
    rintro rfl
    exact feed ((mem_latin (by decide) text).mp inside)
  have second : c ≠ '\r' := by
    rintro rfl
    exact carriage ((mem_latin (by decide) text).mp inside)
  have third : c.toNat ≠ 0x2028 := by omega
  have fourth : c.toNat ≠ 0x2029 := by omega
  simp [lineTerminator, first, second, third, fourth]

theorem decode_latin (text : Text) : decode (charCodes (latin text)) = text := by
  rw [latin, charCodes_binary, decode_encode]

example (free : '\\' ∉ text) : plain text = text ∧ dangling text = false := by
  constructor
  · induction text using plain.induct <;> simp_all [plain]
  · induction text using dangling.induct <;> grind [dangling]

/-- A quotation ends at its quote, unless a backslash hides it and another one follows. -/
theorem quotation_quote (unquoted : '"' ∉ text) (lines : ∀ c ∈ text, lineTerminator c = false)
    (tail : Text) : quotation (text ++ '"' :: tail) =
      if dangling text then some (match quotation tail with
        | some more => text ++ '"' :: more
        | none => text)
      else some text := by
  have ends : quotation ('"' :: tail) = some [] := by
    cases tail with
    | nil => rfl
    | cons d rest =>
      rfl
  induction text using dangling.induct with
  | case1 => simp [dangling, ends]
  | case2 c =>
    have apart : c ≠ '"' := by
      rintro rfl
      exact unquoted mem_cons_self
    rw [singleton_append, quotation, ends, dangling]
    by_cases slash : c = '\\'
    · rw [if_pos ⟨slash, by decide⟩, if_neg apart, decide_eq_true slash]
      cases quotation tail <;> rfl
    · rw [if_neg (fun both => slash both.1), if_neg apart, decide_eq_false slash]
      rfl
  | case3 d rest ih =>
    have here := ih (fun inside => unquoted (by simp [inside]))
      fun c inside => lines c (by simp [inside])
    have line : lineTerminator d = false := lines d (by simp)
    rw [cons_append, cons_append, quotation, if_pos ⟨rfl, line⟩, here, dangling,
      if_pos rfl]
    split
    · cases quotation tail <;> rfl
    · rfl
  | case4 c d rest slash ih =>
    have here := ih (fun inside => unquoted (mem_cons_of_mem c inside))
      fun c inside => lines c (mem_cons_of_mem _ inside)
    have apart : c ≠ '"' := by
      rintro rfl
      exact unquoted mem_cons_self
    rw [cons_append, cons_append, quotation, if_neg (fun both => slash both.1),
      if_neg apart, ← cons_append, here, dangling, if_neg slash]
    split
    · cases quotation tail <;> rfl
    · rfl

theorem dangling_none (none : '\\' ∉ text) : dangling text = false := by
  induction text using dangling.induct with
  | case1 => rfl
  | case2 c =>
    have apart : c ≠ '\\' := fun same => none (by simp [same])
    simp [dangling, apart]
  | case3 d rest ih => exact absurd mem_cons_self none
  | case4 c d rest slash ih =>
    rw [dangling, if_neg slash]
    exact ih fun inside => none (mem_cons_of_mem c inside)

theorem dangling_last (none : '\\' ∉ text) : dangling (text ++ ['\\']) = true := by
  induction text with
  | nil => rfl
  | cons c rest ih =>
    have apart : c ≠ '\\' := by
      rintro rfl
      exact none mem_cons_self
    have here := ih fun inside => none (mem_cons_of_mem c inside)
    cases rest with
    | nil => simp [dangling, apart]
    | cons d rest => simpa [dangling, apart] using here

theorem getLast?_dangling (hides : dangling text = true) : text.getLast? = some '\\' := by
  induction text using dangling.induct with
  | case1 => cases hides
  | case2 c =>
    simp only [dangling, decide_eq_true_eq] at hides
    simp [hides]
  | case3 d rest ih =>
    have last := ih hides
    cases rest with
    | nil => cases last
    | cons e rest => simpa [getLast?_cons_cons] using last
  | case4 c d rest slash ih =>
    rw [dangling, if_neg slash] at hides
    exact ih hides

theorem unescaped_pass (none : '\\' ∉ text) (rest : Text) :
    unescaped (text ++ rest) = text ++ unescaped rest := by
  induction text with
  | nil => rfl
  | cons c text ih =>
    have apart : c ≠ '\\' := by
      rintro rfl
      exact none mem_cons_self
    have here := ih fun inside => none (mem_cons_of_mem c inside)
    rw [cons_append, cons_append, ← here]
    cases text ++ rest with
    | nil => rfl
    | cons d more => rw [unescaped, if_neg fun both => apart both.1]

theorem unescaped_latin (carriage : '\r' ∉ text) (feed : '\n' ∉ text) :
    unescaped (latin text) = latin (plain text) := by
  have single : ∀ c : Char, c ≠ '\\' → '\\' ∉ latin [c] := by
    intro c apart inside
    exact apart (mem_singleton.mp ((mem_latin (by decide) [c]).mp inside)).symm
  induction text using plain.induct with
  | case1 d rest ih =>
    have here := ih (fun inside => carriage (by simp [inside])) fun inside => feed (by simp [inside])
    -- the backslash hides the first byte only
    obtain ⟨first, more, bytes, behind⟩ : ∃ first more, latin [d] = first :: more ∧
        '\\' ∉ more := by
      by_cases ascii : Ascii d
      · exact ⟨d, [], latin_single ascii, not_mem_nil⟩
      · obtain ⟨some, wide⟩ := latin_wide ascii
        cases bytes : latin [d] with
        | nil => exact absurd bytes some
        | cons first more =>
          refine ⟨first, more, rfl, fun inside => wide '\\' ?_ (by decide)⟩
          rw [bytes]
          exact mem_cons_of_mem first inside
    have line : lineTerminator first = false := by
      have all := latin_line (fun inside => carriage (mem_cons_of_mem _ inside))
        fun inside => feed (mem_cons_of_mem _ inside)
      apply all
      rw [latin_step, bytes]
      exact mem_cons_self
    rw [latin_cons (by decide), latin_step d rest, bytes, cons_append, unescaped,
      if_pos ⟨rfl, line⟩, unescaped_pass behind, here, plain, if_pos rfl, latin_step d, bytes,
      cons_append]
  | case2 c d rest slash ih =>
    have here := ih (fun inside => carriage (mem_cons_of_mem c inside))
      fun inside => feed (mem_cons_of_mem c inside)
    rw [latin_step c, unescaped_pass (single c slash), here, plain, if_neg slash,
      latin_step c (plain _)]
  | case3 text short =>
    have same : plain text = text := by
      rw [plain]
      exact short
    rw [same]
    cases text with
    | nil => rfl
    | cons c rest =>
      cases rest with
      | nil =>
        by_cases slash : c = '\\'
        · subst slash
          rfl
        · have passes := unescaped_pass (single c slash) []
          simpa [unescaped] using passes
      | cons d rest => exact absurd rfl (short c d rest)

theorem plain_subset (text : Text) : plain text ⊆ text := by
  induction text using plain.induct with
  | case1 d rest ih =>
    intro c inside
    rcases mem_cons.mp inside with rfl | later
    · simp
    · exact mem_cons_of_mem _ (mem_cons_of_mem _ (ih later))
  | case2 c d rest slash ih =>
    rw [plain, if_neg slash]
    exact cons_subset_cons c ih
  | case3 text short =>
    rw [plain]
    · exact List.Subset.refl _
    · exact short

theorem plain_length (text : Text) : (plain text).length ≤ text.length := by
  induction text using plain.induct with
  | case1 d rest ih =>
    rw [plain, if_pos rfl]
    simp only [length_cons]
    omega
  | case2 c d rest slash ih =>
    rw [plain, if_neg slash]
    simp only [length_cons] at ih ⊢
    omega
  | case3 text short =>
    rw [plain]
    exact short

theorem plain_eq_self (text : Text) : plain text = text ↔ '\\' ∉ text.dropLast := by
  induction text using plain.induct with
  | case1 d rest ih =>
    have short := plain_length rest
    rw [plain, if_pos rfl]
    constructor
    · intro same
      have length := congrArg List.length same
      simp only [length_cons] at length
      omega
    · intro none
      exact absurd (by simp) none
  | case2 c d rest slash ih =>
    rw [plain, if_neg slash, dropLast_cons_cons, mem_cons, List.cons.injEq, ih]
    simp [Ne.symm slash]
  | case3 text short =>
    rw [plain]
    · cases text with
      | nil => simp
      | cons c rest =>
        cases rest with
        | nil => simp
        | cons d rest => exact absurd rfl (short c d rest)
    · exact short

theorem getLast?_plain (text : Text) : (plain text).getLast? = text.getLast? := by
  induction text using plain.induct with
  | case1 d rest ih =>
    rw [plain, if_pos rfl, getLast?_cons_cons, getLast?_cons, ih, ← getLast?_cons]
  | case2 c d rest slash ih =>
    rw [plain, if_neg slash, getLast?_cons, ih, ← getLast?_cons]
  | case3 text short =>
    rw [plain]
    exact short

theorem literal_quote (start : Text) (plainStart : '"' ∉ start) (unquoted : '"' ∉ text)
    (tail : Text) : literal (start ++ ['"']) (text ++ '"' :: tail) =
      if text.map lower = start.map lower then some tail else none := by
  have quote : ∀ c : Char, c ≠ '"' → lower c ≠ lower '"' := by
    intro c apart same
    rw [lower] at same
    split at same
    · rename_i upper
      have above : 65 ≤ c.toNat := upper.1
      have below : c.toNat ≤ 90 := upper.2
      have code := congrArg Char.toNat same
      rw [ofNat_code (by omega)] at code
      have : (lower '"').toNat = 34 := by decide
      omega
    · exact apart same
  induction start generalizing text with
  | nil =>
    cases text with
    | nil => simp [literal]
    | cons c text =>
      have apart : c ≠ '"' := fun same => unquoted (by simp [same])
      rw [nil_append, cons_append, literal, if_neg (fun same => quote c apart same.symm)]
      rfl
  | cons s start ih =>
    have apart : s ≠ '"' := fun same => plainStart (by simp [same])
    cases text with
    | nil =>
      rw [cons_append, nil_append, literal, if_neg (quote s apart)]
      rfl
    | cons c text =>
      rw [cons_append, cons_append, literal, ih
        (fun inside => plainStart (mem_cons_of_mem s inside))
        fun inside => unquoted (mem_cons_of_mem c inside)]
      by_cases same : lower s = lower c <;> simp [same, Ne.symm]

theorem parameterHere_quote (name : String) (plainName : '"' ∉ name.toList ++ ['='])
    (unquoted : '"' ∉ text) (tail : Text) : parameterHere name (text ++ '"' :: tail) =
      if (text.dropWhile space).map lower = (name.toList ++ ['=']).map lower then quotation tail
      else none := by
  have skips : (text ++ '"' :: tail).dropWhile space = text.dropWhile space ++ '"' :: tail := by
    induction text with
    | nil => rfl
    | cons c text ih =>
      have here := ih fun inside => unquoted (mem_cons_of_mem c inside)
      rw [cons_append, dropWhile_cons, dropWhile_cons, here]
      split <;> rfl
  have inner : '"' ∉ text.dropWhile space :=
    fun inside => unquoted ((dropWhile_sublist space).subset inside)
  have start : name.toList ++ "=\"".toList = name.toList ++ ['='] ++ ['"'] := by simp
  rw [parameterHere, skips, start, literal_quote _ plainName inner]
  split <;> rfl

theorem parameterAfter_quote (unquoted : '"' ∉ text) (tail : Text) :
    parameterAfter "filename" (text ++ '"' :: tail) =
      if hides text = true ∧ (quotation tail).isSome = true then quotation tail
      else parameterAfter "filename" tail := by
  induction text with
  | nil =>
    rw [nil_append, parameterAfter, if_neg (by decide), Option.orElse_eq_orElse,
      Option.orElse_none, if_neg]
    exact fun both => absurd both.1 (by decide)
  | cons c text ih =>
    have inner : '"' ∉ text := fun inside => unquoted (mem_cons_of_mem c inside)
    have name : ("filename".toList ++ ['=']).map lower = "filename=".toList := by decide
    rw [cons_append, parameterAfter, ih inner, parameterHere_quote "filename" (by decide) inner,
      hides, name]
    generalize "filename=".toList = wanted
    generalize parameterAfter "filename" tail = later
    by_cases semicolon : c = ';'
    · by_cases here : (text.dropWhile space).map lower = wanted
      · rw [if_pos semicolon, if_pos here, decide_eq_true semicolon, decide_eq_true here]
        cases quotation tail with
        | none => simp
        | some read => simp
      · rw [if_pos semicolon, if_neg here, decide_eq_false here, Bool.and_false, Bool.false_or]
        rfl
    · rw [if_neg semicolon, decide_eq_false semicolon, Bool.false_and, Bool.false_or]
      rfl

end Chuzz.Forms
