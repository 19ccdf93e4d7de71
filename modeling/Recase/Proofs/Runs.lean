import Recase.Rewrite
import Mathlib.Data.List.TakeWhile

/-!
# Runs of characters

A text is made up of words, each as long as can be, and of characters that belong to no word.  This
is how running text is cut into parts, and it is a principle of induction.
-/

namespace Recase

/-- A text that does not go on with a word. -/
def EndsWord (isWord : Char → Bool) (rest : Text) : Prop :=
  ∀ c, rest.head? = some c → isWord c = false

namespace EndsWord

variable {isWord : Char → Bool} {word rest : Text}

theorem nil : EndsWord isWord [] := by
  intro c head
  cases head

theorem cons {c : Char} (noWord : isWord c = false) (rest : Text) :
    EndsWord isWord (c :: rest) := by
  intro d head
  cases head
  exact noWord

theorem dropWhile (isWord : Char → Bool) (text : Text) :
    EndsWord isWord (text.dropWhile isWord) := by
  intro c head
  have stops := List.head?_dropWhile_not isWord text
  rw [head] at stops
  simpa using stops

theorem append {more : Text} (ends : EndsWord isWord rest) (moreEnds : EndsWord isWord more) :
    EndsWord isWord (rest ++ more) := by
  intro c head
  cases rest with
  | nil => exact moreEnds c head
  | cons d rest => exact ends c head

theorem takeWhile_append (ends : EndsWord isWord rest) (allWord : ∀ c ∈ word, isWord c = true) :
    (word ++ rest).takeWhile isWord = word := by
  rw [List.takeWhile_append_of_pos allWord]
  cases rest with
  | nil => simp
  | cons c rest => simp [ends c rfl]

theorem dropWhile_append (ends : EndsWord isWord rest) (allWord : ∀ c ∈ word, isWord c = true) :
    (word ++ rest).dropWhile isWord = rest := by
  rw [List.dropWhile_append_of_pos allWord]
  cases rest with
  | nil => simp
  | cons c rest => simp [ends c rfl]

end EndsWord

/-- Every text is made up of words and of characters that belong to no word. -/
theorem wordInduction (isWord : Char → Bool) {motive : Text → Prop} (nil : motive [])
    (other : ∀ c rest, isWord c = false → motive rest → motive (c :: rest))
    (word : ∀ word rest, word ≠ [] → (∀ c ∈ word, isWord c = true) → EndsWord isWord rest →
      motive rest → motive (word ++ rest)) (text : Text) : motive text := by
  induction length : text.length using Nat.strong_induction_on generalizing text with
  | h size ih =>
      cases text with
      | nil => exact nil
      | cons c rest =>
          cases first : isWord c with
          | false => exact other c rest first (ih rest.length (by simp [← length]) rest rfl)
          | true =>
              rw [← List.takeWhile_append_dropWhile (p := isWord) (l := c :: rest)]
              refine word _ _ (by simp [first]) (fun d member => List.mem_takeWhile_imp member)
                (.dropWhile isWord _) (ih _ ?_ _ rfl)
              rw [List.dropWhile_cons_of_pos first, ← length, List.length_cons]
              exact Nat.lt_succ_of_le (List.dropWhile_suffix _).length_le

/-! ## Parts of running text -/

namespace Part

variable {isWord : Char → Bool}

theorem ofWords_cons (isWord : Char → Bool) (c : Char) (rest : Text) :
    ofWords isWord (c :: rest) = push isWord c (ofWords isWord rest) := rfl

/-- The first part of a text is a name if the text begins with a word. -/
theorem exists_ofWords_cons (isWord : Char → Bool) (c : Char) (rest : Text) :
    ∃ text parts, ofWords isWord (c :: rest) = { isName := isWord c, text := text } :: parts := by
  rw [ofWords_cons]
  unfold push
  split
  · exact ⟨_, _, rfl⟩
  · split
    · next same => exact ⟨_, _, by rw [← same]⟩
    · exact ⟨_, _, rfl⟩

/-- A word that does not go on is a name. -/
theorem ofWords_word {word rest : Text} (nonempty : word ≠ [])
    (allWord : ∀ c ∈ word, isWord c = true) (ends : EndsWord isWord rest) :
    ofWords isWord (word ++ rest) = { isName := true, text := word } :: ofWords isWord rest := by
  induction word with
  | nil => exact absurd rfl nonempty
  | cons c word ih =>
      have first : isWord c = true := allWord c (by simp)
      rw [List.cons_append, ofWords_cons]
      cases word with
      | nil =>
          cases rest with
          | nil => simp [ofWords, push, first]
          | cons d rest =>
              obtain ⟨text, parts, split⟩ := exists_ofWords_cons isWord d rest
              rw [List.nil_append, split, push, first, ends d rfl]
              rfl
      | cons d word =>
          rw [ih (by simp) fun e member => allWord e (List.mem_cons_of_mem _ member), push, first]
          rfl

end Part

end Recase
