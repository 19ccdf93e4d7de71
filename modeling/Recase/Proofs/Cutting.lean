import Recase.Text

/-!
# Cutting and joining

A text that is cut at a separator is given back by its pieces with the separator between them, and
no piece contains the separator.  The other way round, pieces that are joined come back from the
cut, provided that the separator does not overlap with itself.
-/

namespace Recase.Text

variable {separator : Text}

@[simp] theorem cutAt_nil (separator : Text) : cutAt separator [] = [[]] := by
  rw [cutAt]

/-- A separator at the front ends the first piece right away. -/
theorem cutAt_of_prefix {text : Text} (nonempty : separator ≠ [])
    (starts : separator <+: text) :
    cutAt separator text = [] :: cutAt separator (text.drop separator.length) := by
  cases text with
  | nil => exact absurd (List.prefix_nil.mp starts) nonempty
  | cons c rest =>
      rw [cutAt, if_pos ⟨nonempty, List.isPrefixOf_iff_prefix.mpr starts⟩]

theorem cutAt_cons {c : Char} {rest : Text} (elsewhere : ¬ separator <+: c :: rest) :
    cutAt separator (c :: rest) =
      match cutAt separator rest with
      | [] => [[c]]
      | piece :: pieces => (c :: piece) :: pieces := by
  have no : ¬ (separator ≠ [] ∧ separator.isPrefixOf (c :: rest) = true) :=
    fun both => elsewhere (List.isPrefixOf_iff_prefix.mp both.2)
  rw [cutAt]
  exact if_neg no

theorem cutAt_ne_nil (separator text : Text) : cutAt separator text ≠ [] := by
  fun_induction cutAt separator text <;> simp_all

@[simp] theorem intercalate_cutAt (separator text : Text) :
    List.intercalate separator (cutAt separator text) = text := by
  fun_induction cutAt separator text with
  | case1 => simp
  | case2 c rest cut ih =>
      obtain ⟨behind, split⟩ := List.isPrefixOf_iff_prefix.mp cut.2
      rw [List.intercalate_cons_of_ne_nil (cutAt_ne_nil _ _), ih, ← split]
      simp
  | case3 c rest elsewhere none ih => exact absurd none (cutAt_ne_nil _ _)
  | case4 c rest elsewhere piece pieces cut ih =>
      rw [cut] at ih
      rw [List.intercalate_cons_cons_left, ih]

/-- The text goes on behind its first piece. -/
theorem prefix_of_cutAt {text piece : Text} {pieces : List Text}
    (cut : cutAt separator text = piece :: pieces) : piece <+: text := by
  have joined := intercalate_cutAt separator text
  rw [cut] at joined
  cases pieces with
  | nil => exact ⟨[], by simpa using joined⟩
  | cons next pieces =>
      rw [List.intercalate_cons_cons, List.append_assoc] at joined
      exact ⟨_, joined⟩

theorem not_infix_of_mem_cutAt (nonempty : separator ≠ []) {text piece : Text}
    (member : piece ∈ cutAt separator text) : ¬ separator <:+: piece := by
  fun_induction cutAt separator text generalizing piece with
  | case1 =>
      cases List.mem_singleton.mp member
      simpa using nonempty
  | case2 c rest cut ih =>
      rcases List.mem_cons.mp member with rfl | member
      · simpa using nonempty
      · exact ih member
  | case3 c rest elsewhere none ih => exact absurd none (cutAt_ne_nil _ _)
  | case4 c rest elsewhere first pieces cut ih =>
      rcases List.mem_cons.mp member with rfl | member
      · intro inside
        rcases List.infix_cons_iff.mp inside with starts | inside
        · have longer : c :: first <+: c :: rest :=
            (List.prefix_cons_inj c).mpr (prefix_of_cutAt cut)
          exact elsewhere ⟨nonempty, List.isPrefixOf_iff_prefix.mpr (starts.trans longer)⟩
        · exact ih (by simp [cut]) inside
      · exact ih (by simp [cut, member])

theorem cutAt_of_not_infix {text : Text} (absent : ¬ separator <:+: text) :
    cutAt separator text = [text] := by
  induction text with
  | nil => simp
  | cons c rest ih =>
      have elsewhere : ¬ separator <+: c :: rest := fun starts => absent starts.isInfix
      have tail : cutAt separator rest = [rest] := ih fun inside => absent (List.infix_cons inside)
      rw [cutAt_cons elsewhere, tail]

/-- No text that ends a separator also begins it, unless it is the separator itself. -/
def IsUnbordered (separator : Text) : Prop :=
  ∀ border, border ≠ [] → border <+: separator → border <:+ separator → border = separator

theorem isUnbordered_singleton (c : Char) : IsUnbordered [c] := by
  intro border nonempty starts _
  cases border with
  | nil => exact absurd rfl nonempty
  | cons first rest =>
      have equal := List.cons_prefix_cons.mp starts
      rw [equal.1, List.prefix_nil.mp equal.2]

/-- A separator that begins in a text without it, and goes on behind it, overlaps with the
separator that follows. -/
theorem not_prefix_append (unbordered : IsUnbordered separator) {text : Text}
    (nonempty : text ≠ []) (absent : ¬ separator <:+: text) (rest : Text) :
    ¬ separator <+: text ++ (separator ++ rest) := by
  intro starts
  rcases List.prefix_or_prefix_of_prefix starts (List.prefix_append text _) with inside | longer
  · exact absent inside.isInfix
  · obtain ⟨border, split⟩ := longer
    have borderNonempty : border ≠ [] := by
      rintro rfl
      exact absent ⟨[], [], by simpa using split.symm⟩
    have borderStarts : border <+: separator ++ rest := by
      apply (List.prefix_append_right_inj text).mp
      rw [split]
      exact starts
    have shorter : border.length ≤ separator.length := by
      simp [← split]
    have equal := unbordered border borderNonempty
      (List.prefix_of_prefix_length_le borderStarts (List.prefix_append separator rest) shorter)
      ⟨text, split⟩
    have lengths := congrArg List.length split
    rw [equal, List.length_append] at lengths
    have positive := List.length_pos_iff.mpr nonempty
    omega

/-- Behind a text without the separator, the next separator is the first one. -/
theorem cutAt_append (unbordered : IsUnbordered separator) (nonempty : separator ≠ [])
    {text : Text} (absent : ¬ separator <:+: text) (rest : Text) :
    cutAt separator (text ++ (separator ++ rest)) = text :: cutAt separator rest := by
  induction text with
  | nil =>
      rw [List.nil_append, cutAt_of_prefix nonempty (List.prefix_append _ _), List.drop_left]
  | cons c text ih =>
      have elsewhere : ¬ separator <+: c :: (text ++ (separator ++ rest)) :=
        not_prefix_append unbordered (List.cons_ne_nil c text) absent rest
      have tail := ih fun inside => absent (List.infix_cons inside)
      rw [List.cons_append, cutAt_cons elsewhere, tail]

theorem cutAt_intercalate (unbordered : IsUnbordered separator) (nonempty : separator ≠ [])
    {pieces : List Text} (some : pieces ≠ [])
    (absent : ∀ piece ∈ pieces, ¬ separator <:+: piece) :
    cutAt separator (List.intercalate separator pieces) = pieces := by
  induction pieces with
  | nil => exact absurd rfl some
  | cons piece pieces ih =>
      have pieceAbsent := absent piece (by simp)
      cases pieces with
      | nil => rw [List.intercalate_singleton, cutAt_of_not_infix pieceAbsent]
      | cons next pieces =>
          rw [List.intercalate_cons_cons, List.append_assoc,
            cutAt_append unbordered nonempty pieceAbsent,
            ih (by simp) fun other member => absent other (List.mem_cons_of_mem _ member)]

theorem infix_of_mem_intercalate (separator : Text) {piece : Text} {pieces : List Text}
    (member : piece ∈ pieces) : piece <:+: List.intercalate separator pieces := by
  induction pieces with
  | nil => simp at member
  | cons first pieces ih =>
      cases pieces with
      | nil =>
          cases List.mem_singleton.mp member
          simp
      | cons next pieces =>
          rw [List.intercalate_cons_cons]
          rcases List.mem_cons.mp member with rfl | member
          · rw [List.append_assoc]
            exact List.infix_append_left
          · exact List.infix_append_of_infix_right (ih member)

theorem mem_intercalate {separator : Text} {c : Char} {pieces : List Text}
    (member : c ∈ List.intercalate separator pieces) :
    c ∈ separator ∨ ∃ piece ∈ pieces, c ∈ piece := by
  induction pieces with
  | nil => cases member
  | cons piece pieces ih =>
      cases pieces with
      | nil =>
          rw [List.intercalate_singleton] at member
          exact .inr ⟨piece, List.mem_cons_self, member⟩
      | cons next pieces =>
          rw [List.intercalate_cons_cons, List.append_assoc, List.mem_append,
            List.mem_append] at member
          rcases member with first | between | later
          · exact .inr ⟨piece, List.mem_cons_self, first⟩
          · exact .inl between
          · rcases ih later with between | ⟨found, foundMember, inside⟩
            · exact .inl between
            · exact .inr ⟨found, List.mem_cons_of_mem piece foundMember, inside⟩

/-- A text without the mark between the pieces is found inside of one piece, if at all. -/
theorem exists_piece_of_infix {mark : Char} {needle : Text} (unmarked : mark ∉ needle)
    {pieces : List Text} (some : pieces ≠ [])
    (inside : needle <:+: List.intercalate [mark] pieces) :
    ∃ piece ∈ pieces, needle <:+: piece := by
  induction pieces with
  | nil => exact absurd rfl some
  | cons piece pieces ih =>
      cases pieces with
      | nil => exact ⟨piece, by simp, by simpa using inside⟩
      | cons next pieces =>
          rw [List.intercalate_cons_cons, List.append_assoc] at inside
          rcases List.infix_append_iff_ne_nil.mp inside with first | later | across
          · exact ⟨piece, by simp, first⟩
          · rcases List.infix_cons_iff.mp later with starts | later
            · cases needle with
              | nil => exact ⟨piece, by simp, List.nil_infix⟩
              | cons c needle =>
                  have equal := (List.cons_prefix_cons.mp starts).1
                  exact absurd (by simp [equal]) unmarked
            · obtain ⟨found, member, inside⟩ := ih (by simp) later
              exact ⟨found, List.mem_cons_of_mem _ member, inside⟩
          · obtain ⟨_, right, _, rightNonempty, rfl, _, rightStarts⟩ := across
            cases right with
            | nil => exact absurd rfl rightNonempty
            | cons c right =>
                have equal := (List.cons_prefix_cons.mp rightStarts).1
                exact absurd (by simp [equal]) unmarked

end Recase.Text
