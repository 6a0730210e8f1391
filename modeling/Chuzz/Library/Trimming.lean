import Mathlib

/-! Trimming a list of what a class selects, and splitting it at separators. -/
namespace Library.Trimming
open List
variable {A : Type*}

/-- The list without what `space` selects at its ends. -/
def trimBy (space : A → Bool) (text : List A) : List A :=
  ((text.dropWhile space).reverse.dropWhile space).reverse

theorem dropWhile_append_selected {space : A → Bool} {left text : List A}
    (selected : ∀ c ∈ left, space c) : (left ++ text).dropWhile space = text.dropWhile space := by
  induction left with
  | nil => rfl
  | cons c left ih =>
    obtain ⟨first, later⟩ := forall_mem_cons.mp selected
    rw [cons_append, dropWhile_cons_of_pos first, ih later]

variable {text : List A}

section
variable {space : A → Bool}

theorem dropWhile_selected (selected : ∀ c ∈ text, space c) : text.dropWhile space = [] := by
  rw [dropWhile_eq_nil_iff]
  exact selected

theorem dropWhile_append_of_ne {text right : List A} (some : text.dropWhile space ≠ []) :
    (text ++ right).dropWhile space = text.dropWhile space ++ right := by
  induction text with
  | nil => contradiction
  | cons c text ih =>
    by_cases first : space c
    · rw [dropWhile_cons_of_pos first] at some
      rw [cons_append, dropWhile_cons_of_pos first, dropWhile_cons_of_pos first,
        ih some]
    · rw [cons_append, dropWhile_cons_of_neg first, dropWhile_cons_of_neg first,
        cons_append]

theorem trimBy_left {left text : List A} (selected : ∀ c ∈ left, space c) :
    trimBy space (left ++ text) = trimBy space text := by
  rw [trimBy, dropWhile_append_selected selected, trimBy]

theorem trimBy_right {text right : List A} (selected : ∀ c ∈ right, space c) :
    trimBy space (text ++ right) = trimBy space text := by
  by_cases none : text.dropWhile space = []
  · have all := dropWhile_eq_nil_iff.mp none
    have both : ∀ c ∈ text ++ right, space c := fun c member =>
      (mem_append.mp member).elim (all c) (selected c)
    rw [trimBy, trimBy, none, dropWhile_selected both]
  · rw [trimBy, dropWhile_append_of_ne none, reverse_append, dropWhile_append_selected, trimBy]
    exact fun c member => selected c (mem_reverse.mp member)

theorem trimBy_dropWhile (text : List A) :
    trimBy space (text.dropWhile space) = trimBy space text := by
  rw [trimBy, dropWhile_idempotent, trimBy]

end

/-- What trimming takes away lies at the two ends. -/
theorem trimBy_parts (space : A → Bool) (text : List A) :
    ∃ left right, (∀ c ∈ left, space c) ∧ (∀ c ∈ right, space c) ∧
      text = left ++ trimBy space text ++ right := by
  refine ⟨text.takeWhile space, ((text.dropWhile space).reverse.takeWhile space).reverse,
    fun c => mem_takeWhile_imp, fun c member =>
      mem_takeWhile_imp (mem_reverse.mp member), ?_⟩
  rw [trimBy, append_assoc, ← reverse_append, takeWhile_append_dropWhile,
    reverse_reverse, takeWhile_append_dropWhile]

variable {space : A → Bool}

theorem mem_of_mem_trimBy {c : A} (member : c ∈ trimBy space text) : c ∈ text := by
  obtain ⟨left, right, _, _, parts⟩ := trimBy_parts space text
  rw [parts]
  exact mem_append_left _ (mem_append_right _ member)

theorem selected_or_mem_trimBy (space : A → Bool) {c : A} (member : c ∈ text) :
    space c ∨ c ∈ trimBy space text := by
  obtain ⟨left, right, one, two, parts⟩ := trimBy_parts space text
  rw [parts, mem_append, mem_append] at member
  rcases member with (before | inside) | after
  · exact .inl (one c before)
  · exact .inr inside
  · exact .inl (two c after)

theorem trimBy_bare (bare : ∀ c ∈ text, ¬ space c) : trimBy space text = text := by
  have none {text : List A} (bare : ∀ c ∈ text, ¬ space c) : text.dropWhile space = text := by
    cases text with
    | nil => rfl
    | cons c text => exact dropWhile_cons_of_neg (bare c mem_cons_self)
  rw [trimBy, none bare, none fun c member => bare c (mem_reverse.mp member),
    reverse_reverse]

theorem trimBy_enclosed {first last : A} (one : ¬ space first)
    (two : ¬ space last) (inner : List A) :
    trimBy space (first :: (inner ++ [last])) = first :: (inner ++ [last]) := by
  rw [trimBy, dropWhile_cons_of_neg one, ← cons_append, reverse_concat,
    dropWhile_cons_of_neg two, ← reverse_concat, reverse_reverse]

variable {space space' : A → Bool}

theorem dropWhile_congr (agree : ∀ c ∈ text, space c = space' c) :
    text.dropWhile space = text.dropWhile space' := by
  induction text with
  | nil => rfl
  | cons c text ih =>
    obtain ⟨first, later⟩ := forall_mem_cons.mp agree
    rw [dropWhile_cons, dropWhile_cons, first, ih later]

theorem trimBy_congr (agree : ∀ c ∈ text, space c = space' c) :
    trimBy space text = trimBy space' text := by
  have inner : ∀ c ∈ (text.dropWhile space').reverse, space c = space' c := fun c member =>
    agree c ((dropWhile_sublist _).mem (mem_reverse.mp member))
  rw [trimBy, dropWhile_congr agree, dropWhile_congr inner, trimBy]

variable {separator : A}

theorem dropWhile_separated (bare : ¬ space separator)
    (key value : List A) : (key ++ separator :: value).dropWhile space =
      key.dropWhile space ++ separator :: value := by
  induction key with
  | nil => exact dropWhile_cons_of_neg bare
  | cons c key ih =>
    by_cases first : space c
    · rw [cons_append, dropWhile_cons_of_pos first, dropWhile_cons_of_pos first, ih]
    · rw [cons_append, dropWhile_cons_of_neg first, dropWhile_cons_of_neg first,
        cons_append]

/-- A separator that is not trimmed keeps its two sides apart. -/
theorem trimBy_separated (bare : ¬ space separator)
    (key value : List A) : ∃ key' value', trimBy space (key ++ separator :: value) =
      key' ++ separator :: value' ∧ trimBy space key' = trimBy space key ∧
        trimBy space value' = trimBy space value ∧ (separator ∈ key' → separator ∈ key) := by
  refine ⟨key.dropWhile space, (value.reverse.dropWhile space).reverse, ?_, trimBy_dropWhile key,
    ?_, (dropWhile_sublist _).mem⟩
  · rw [trimBy, dropWhile_separated bare, reverse_append, reverse_cons, append_assoc,
      singleton_append, dropWhile_separated bare, reverse_append, reverse_cons,
      reverse_reverse, append_assoc, singleton_append]
  · have parts : value = (value.reverse.dropWhile space).reverse ++
        (value.reverse.takeWhile space).reverse := by
      rw [← reverse_append, takeWhile_append_dropWhile, reverse_reverse]
    conv_rhs => rw [parts]
    refine (trimBy_right fun c member => ?_).symm
    exact mem_takeWhile_imp (mem_reverse.mp member)

/-- What a list holds is in its fields, or is the separator. -/
theorem mem_splitOn [DecidableEq A] (separator : A) {c : A} (member : c ∈ text) :
    c = separator ∨ ∃ field ∈ text.splitOn separator, c ∈ field := by
  induction text with
  | nil => exact absurd member not_mem_nil
  | cons first rest ih =>
    rw [splitOn_cons_eq_if_modifyHead]
    rcases mem_cons.mp member with rfl | later
    · split
      · rename_i same
        exact .inl (eq_of_beq same)
      · refine .inr ?_
        cases fields : rest.splitOn separator with
        | nil => exact absurd fields (splitOn_ne_nil _ _)
        | cons head tail => exact ⟨_, mem_cons_self, mem_cons_self⟩
    · refine (ih later).imp_right ?_
      rintro ⟨field, held, inside⟩
      split
      · exact ⟨field, mem_cons_of_mem _ held, inside⟩
      · cases fields : rest.splitOn separator with
        | nil => exact absurd fields (splitOn_ne_nil _ _)
        | cons head tail =>
          rw [fields] at held
          rcases mem_cons.mp held with rfl | other
          · exact ⟨_, mem_cons_self, mem_cons_of_mem _ inside⟩
          · exact ⟨field, mem_cons_of_mem _ other, inside⟩

theorem mem_intercalate {separator field : List A} {fields : List (List A)} {c : A}
    (held : field ∈ fields) (member : c ∈ field) : c ∈ separator.intercalate fields := by
  induction fields with
  | nil => exact absurd held not_mem_nil
  | cons first rest ih =>
    by_cases last : rest = []
    · subst last
      rw [intercalate_singleton, ← mem_singleton.mp held]
      exact member
    · rw [intercalate_cons_of_ne_nil last]
      rcases mem_cons.mp held with rfl | later
      · exact mem_append_left _ (mem_append_left _ member)
      · exact mem_append_right _ (ih later)

theorem mem_of_mem_splitOn [DecidableEq A] {separator c : A} {text field : List A}
    (held : field ∈ text.splitOn separator) (member : c ∈ field) : c ∈ text := by
  have whole : [separator].intercalate (text.splitOn separator) = text :=
    intercalate_splitOn separator
  rw [← whole]
  exact mem_intercalate held member

/-- One field, or two: a text of no more separators. -/
theorem splitOn_pair [DecidableEq A] {one two : List A} (first : separator ∉ one)
    (second : separator ∉ two) : (one ++ separator :: two).splitOn separator = [one, two] := by
  rw [splitOn_append_cons_self_of_not_mem first, splitOn_eq_singleton second]

end Library.Trimming
