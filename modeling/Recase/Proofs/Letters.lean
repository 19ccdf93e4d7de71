import Recase.Proofs.Exceptions
import Mathlib

/-!
# The letters of a name

A convention may put a letter in front of a name, take underscores away and write letters in upper
case.  It drops nothing else and adds nothing else: without its underscores, and all in upper case,
the name that becomes of another one is the marked name.  Of the underscores one is left at most,
right behind a marker, unless nothing but the mark was changed.
-/

namespace Recase

/-- What is left of a name without its underscores, all of it in upper case. -/
def letters (name : Text) : Text :=
  (name.filter (· != '_')).flatMap Character.uppercase

/-! ## Letters of texts put together -/

@[simp] theorem letters_nil : letters [] = [] := rfl

@[simp] theorem letters_append (left right : Text) :
    letters (left ++ right) = letters left ++ letters right := by
  rw [letters, List.filter_append, List.flatMap_append, ← letters, ← letters]

@[simp] theorem letters_underscore (rest : Text) : letters ('_' :: rest) = letters rest := rfl

theorem letters_cons {c : Char} (letter : c ≠ '_') (rest : Text) :
    letters (c :: rest) = Character.uppercase c ++ letters rest := by
  rw [letters, List.filter_cons_of_pos (by simpa using letter), List.flatMap_cons, ← letters]

theorem letters_flatMap {α : Type} (items : List α) (part : α → Text) :
    letters (items.flatMap part) = items.flatMap fun item => letters (part item) := by
  induction items with
  | nil => rfl
  | cons item items ih => rw [List.flatMap_cons, letters_append, ih, List.flatMap_cons]

/-- Underscores between the parts of a name make no difference. -/
theorem letters_intercalate (parts : List Text) :
    letters (['_'].intercalate parts) = parts.flatMap letters := by
  induction parts with
  | nil => rfl
  | cons part parts ih =>
      cases parts with
      | nil => simp
      | cons next parts =>
          rw [List.intercalate_cons_cons, List.append_assoc, letters_append, List.singleton_append,
            letters_underscore, ih, ← List.flatMap_cons]

/-- The letters of a name are those of its words. -/
theorem flatMap_letters_words (name : Text) : (words name).flatMap letters = letters name := by
  rw [← letters_intercalate, words, Text.intercalate_cutAt]

/-! ## Letters in upper case -/

namespace Character

theorem flatMap_uppercase (c : Char) : (uppercase c).flatMap uppercase = uppercase c := by
  calc (uppercase c).flatMap uppercase
      = (uppercase c).flatMap fun d => [d] :=
        List.flatMap_congr fun _ member => uppercase_of_mem member
    _ = uppercase c := List.flatMap_singleton' _

theorem underscore_not_mem_uppercase {c : Char} (letter : c ≠ '_') : '_' ∉ uppercase c := by
  intro member
  rcases eq_or_of_mem_uppercase member with same | form
  · exact letter same.symm
  · exact not_isCapitalForm_underscore form

end Character

theorem letters_uppercase {c : Char} (letter : c ≠ '_') :
    letters (Character.uppercase c) = Character.uppercase c := by
  have kept : (Character.uppercase c).filter (· != '_') = Character.uppercase c := by
    apply List.filter_eq_self.mpr
    intro d member
    apply bne_iff_ne.mpr
    rintro rfl
    exact Character.underscore_not_mem_uppercase letter member
  rw [letters, kept, Character.flatMap_uppercase]

theorem letters_capitalize (word : Text) : letters (capitalize word) = letters word := by
  cases word with
  | nil => rfl
  | cons first rest =>
      rw [capitalize, letters_append]
      by_cases underscore : first = '_'
      · subst underscore
        rfl
      · rw [letters_uppercase underscore, letters_cons underscore]

/-- Words that are joined by capitals keep their letters. -/
theorem letters_joined (name : Text) :
    letters ((words name).flatMap capitalize) = letters name := by
  rw [letters_flatMap, ← flatMap_letters_words name]
  exact List.flatMap_congr fun word _ => letters_capitalize word

namespace Convention

variable {convention : Convention} {name new : Text}

/-! ## Letters of names in camel case -/

theorem Joins.letters (joins : convention.Joins name new) : letters new = letters name := by
  cases joins with
  | behindMarker plain marker rest =>
      rw [letters_append, letters_append, letters_underscore, letters_underscore, letters_joined]
  | capitals plain rest =>
      rw [letters_append, letters_append, letters_capitalize, letters_underscore, letters_joined]

/-- Whether the only underscore of a name follows a marker in front. -/
def IsMarkedOnce (convention : Convention) (name : Text) : Prop :=
  ∃ marker rest, (marker = convention.memberMarker ∨ marker = convention.argumentMarker) ∧
    name = marker ++ '_' :: rest ∧ '_' ∉ marker ∧ '_' ∉ rest

/-- A name in camel case holds no underscore, or one behind a marker. -/
theorem Joins.not_mem_or_isMarkedOnce (joins : convention.Joins name new) :
    '_' ∉ new ∨ convention.IsMarkedOnce new := by
  cases joins with
  | @behindMarker head plain marker rest =>
      right
      exact ⟨head, _, marker, rfl, plain, not_mem_flatMap_words rest⟩
  | capitals plain rest =>
      left
      rw [List.mem_append, not_or]
      exact ⟨not_mem_capitalize plain, not_mem_flatMap_words rest⟩

/-! ## Letters of new names -/

/-- A name is marked, and then its words are joined, if anything becomes of them. -/
theorem becomes_eq (convention : Convention) (name : Text) :
    convention.becomes name =
      (if convention.camelCase then convention.camelCase? (markName name) else none).getD
        (markName name) := by
  rw [becomes, rename?, ← markName]
  cases (if convention.camelCase then convention.camelCase? (markName name) else none) with
  | none => rfl
  | some joined => rfl

theorem becomes_eq_or_joins (convention : Convention) (name : Text) :
    convention.becomes name = markName name ∨
      convention.Joins (markName name) (convention.becomes name) := by
  rw [becomes_eq]
  cases joined : (if convention.camelCase then convention.camelCase? (markName name) else none) with
  | none => exact .inl rfl
  | some new => exact .inr (joins_of_camelCase? (Option.ite_none_right_eq_some.mp joined).2)

/-- What becomes of a name has the letters of the marked name, in the same order.  It is the marked
name itself, or it holds no underscore but for one behind a marker in front. -/
theorem letters_becomes (convention : Convention) (name : Text) :
    letters (convention.becomes name) = letters (markName name) ∧
      (convention.becomes name = markName name ∨ '_' ∉ convention.becomes name ∨
        convention.IsMarkedOnce (convention.becomes name)) := by
  rcases convention.becomes_eq_or_joins name with same | joins
  · exact ⟨congrArg letters same, .inl same⟩
  · exact ⟨joins.letters, .inr joins.not_mem_or_isMarkedOnce⟩

end Convention

end Recase
