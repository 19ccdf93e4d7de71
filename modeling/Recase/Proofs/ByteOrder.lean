import Recase.Text.Encoding
import Mathlib

/-!
# The order of bytes

Texts are compared through the codes of their characters.  Their bytes in UTF-8 compare in the same
way: of two characters the one with the lesser code has the lesser byte where their bytes first
differ, and they do differ before either of them ends.
-/

namespace Recase.Text

/-- Bytes in front of others, with a lesser byte where they first differ, so that it does not matter
what is behind them. -/
inductive Precedes : List UInt8 → List UInt8 → Prop where
  | here {first other : UInt8} (less : first < other) (left right : List UInt8) :
      Precedes (first :: left) (other :: right)
  | there (first : UInt8) {left right : List UInt8} (behind : Precedes left right) :
      Precedes (first :: left) (first :: right)

theorem Precedes.append {left right : List UInt8} (precedes : Precedes left right)
    (more others : List UInt8) : left ++ more < right ++ others := by
  induction precedes with
  | here less left right => exact List.cons_lt_cons_iff.mpr (.inl less)
  | there first behind ih => exact List.cons_lt_cons_iff.mpr (.inr ⟨rfl, ih⟩)

theorem Precedes.ofNat {first other : Nat} (bound : other < 256) (notGreater : first ≤ other)
    {left right : List UInt8} (behind : first = other → Precedes left right) :
    Precedes (UInt8.ofNat first :: left) (UInt8.ofNat other :: right) := by
  rcases Nat.lt_or_eq_of_le notGreater with less | same
  · refine .here ?_ left right
    rw [UInt8.lt_iff_toNat_lt, UInt8.toNat_ofNat', UInt8.toNat_ofNat']
    omega
  · rw [same]
    exact .there _ (behind same)

/-- The bytes of characters are ordered as their codes are. -/
theorem precedes_utf8EncodeChar {c d : Char} (less : c < d) :
    Precedes (String.utf8EncodeChar c) (String.utf8EncodeChar d) := by
  have codes : c.val.toNat < d.val.toNat := less
  have bound : d.val.toNat < 0x110000 := by
    rcases d.valid with low | ⟨-, high⟩
    · exact Nat.lt_trans low (by decide)
    · exact high
  unfold String.utf8EncodeChar
  generalize c.val.toNat = code at codes
  generalize d.val.toNat = other at codes bound
  dsimp only
  split
  · split_ifs <;> exact .ofNat (by omega) (by omega) (by omega)
  split
  · rw [if_neg (by omega : ¬ other ≤ 127)]
    split_ifs
    · refine .ofNat (by omega) (by omega) fun same => ?_
      exact .ofNat (by omega) (by omega) (by omega)
    · exact .ofNat (by omega) (by omega) (by omega)
    · exact .ofNat (by omega) (by omega) (by omega)
  split
  · rw [if_neg (by omega : ¬ other ≤ 127), if_neg (by omega : ¬ other ≤ 2047)]
    split
    · refine .ofNat (by omega) (by omega) fun same => ?_
      refine .ofNat (by omega) (by omega) fun also => ?_
      exact .ofNat (by omega) (by omega) (by omega)
    · exact .ofNat (by omega) (by omega) (by omega)
  · rw [if_neg (by omega : ¬ other ≤ 127), if_neg (by omega : ¬ other ≤ 2047),
      if_neg (by omega : ¬ other ≤ 65535)]
    refine .ofNat (by omega) (by omega) fun same => ?_
    refine .ofNat (by omega) (by omega) fun also => ?_
    refine .ofNat (by omega) (by omega) fun again => ?_
    exact .ofNat (by omega) (by omega) (by omega)

theorem toList_encode (text : Text) :
    (encode text).data.toList = text.flatMap String.utf8EncodeChar := by
  rw [encode, String.toByteArray_ofList, List.utf8Encode]
  simp

theorem append_lt_append_iff {shared left right : List UInt8} :
    shared ++ left < shared ++ right ↔ left < right := by
  induction shared with
  | nil => rfl
  | cons first shared ih =>
      rw [List.cons_append, List.cons_append, List.cons_lt_cons_iff, ih]
      simp

/-- A text is in front of another one if and only if its bytes are. -/
theorem encode_lt_encode_iff {left right : Text} :
    (encode left).data.toList < (encode right).data.toList ↔ left < right := by
  rw [toList_encode, toList_encode]
  induction left generalizing right with
  | nil =>
      cases right with
      | nil => exact iff_of_false (List.lt_irrefl _) (List.lt_irrefl _)
      | cons d right =>
          obtain ⟨first, bytes, split⟩ :=
            List.exists_cons_of_ne_nil (String.utf8EncodeChar_ne_nil (c := d))
          rw [List.flatMap_nil, List.flatMap_cons, split, List.cons_append]
          exact iff_of_true (List.nil_lt_cons _ _) (List.nil_lt_cons _ _)
  | cons c left ih =>
      cases right with
      | nil => exact iff_of_false (List.not_lt_nil _) (List.not_lt_nil _)
      | cons d right =>
          rw [List.flatMap_cons, List.flatMap_cons, List.cons_lt_cons_iff]
          rcases lt_trichotomy c d with less | rfl | greater
          · exact iff_of_true ((precedes_utf8EncodeChar less).append _ _) (.inl less)
          · rw [append_lt_append_iff, ih]
            simp
          · have behind := (precedes_utf8EncodeChar greater).append
              (right.flatMap String.utf8EncodeChar) (left.flatMap String.utf8EncodeChar)
            refine iff_of_false (List.lt_asymm behind) ?_
            rintro (less | ⟨rfl, -⟩)
            · exact lt_asymm less greater
            · exact lt_irrefl c greater

end Recase.Text
