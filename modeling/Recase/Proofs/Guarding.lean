import Recase.Guard
import Recase.Proofs.Cutting
import Mathlib.Data.List.Infix

/-!
# Guarding separators

Concealing the separators of a text and restoring them are inverse to each other.  One way round
this needs a text without the placeholder, which is what a guard insists on.  The other way round
it needs a text without the separator, and a separator that does not overlap with itself: otherwise
restored separators could be found at other places than where they were put.
-/

namespace Recase

/-- What does not hold a character is a prefix of what is in front of it, if it is a prefix at
all. -/
theorem Text.prefix_of_prefix_append_cons {needle left right : Text} {c : Char}
    (outside : c ∉ needle) (starts : needle <+: left ++ c :: right) : needle <+: left := by
  rcases List.prefix_or_prefix_of_prefix starts (List.prefix_append left _) with
    inside | ⟨more, rfl⟩
  · exact inside
  · cases more with
    | nil => simp
    | cons d more =>
        have begins := (List.prefix_append_right_inj left).mp starts
        exact absurd (by simp [(List.cons_prefix_cons.mp begins).1]) outside

namespace Guard

variable (guard : Guard)

@[simp] theorem restore_nil : guard.restore [] = [] := rfl

@[simp] theorem restore_append (left right : Text) :
    guard.restore (left ++ right) = guard.restore left ++ guard.restore right := by
  simp [restore]

@[simp] theorem restore_placeholder : guard.restore [guard.placeholder] = guard.separator := by
  simp [restore]

theorem restore_of_not_mem {text : Text} (absent : guard.placeholder ∉ text) :
    guard.restore text = text := by
  induction text with
  | nil => rfl
  | cons c rest ih =>
      simp only [List.mem_cons, not_or] at absent
      have different : c ≠ guard.placeholder := fun equal => absent.1 equal.symm
      change (if c = guard.placeholder then guard.separator else [c]) ++ guard.restore rest = _
      rw [if_neg different, ih absent.2, List.singleton_append]

theorem restore_intercalate {pieces : List Text}
    (absent : ∀ piece ∈ pieces, guard.placeholder ∉ piece) :
    guard.restore (List.intercalate [guard.placeholder] pieces) =
      List.intercalate guard.separator pieces := by
  induction pieces with
  | nil => rfl
  | cons piece pieces ih =>
      have pieceAbsent := absent piece (by simp)
      cases pieces with
      | nil => simpa using guard.restore_of_not_mem pieceAbsent
      | cons next pieces =>
          rw [List.intercalate_cons_cons, List.intercalate_cons_cons, restore_append,
            restore_append, restore_placeholder, guard.restore_of_not_mem pieceAbsent,
            ih fun other member => absent other (List.mem_cons_of_mem _ member)]

theorem not_mem_of_mem_pieces {text piece : Text} (absent : guard.placeholder ∉ text)
    (member : piece ∈ guard.pieces text) : guard.placeholder ∉ piece := by
  intro inside
  have part := Text.infix_of_mem_intercalate guard.separator member
  rw [pieces, Text.intercalate_cutAt] at part
  exact absent (part.subset inside)

theorem restore_conceal {text : Text} (absent : guard.placeholder ∉ text) :
    guard.restore (guard.conceal text) = text := by
  have piecesAbsent : ∀ piece ∈ guard.pieces text, guard.placeholder ∉ piece :=
    fun piece member => guard.not_mem_of_mem_pieces absent member
  rw [conceal, guard.restore_intercalate piecesAbsent, pieces, Text.intercalate_cutAt]

/-- Restoring puts the separator between the pieces that the placeholders keep apart, and changes
nothing else. -/
theorem restore_eq_intercalate (text : Text) :
    guard.restore text = List.intercalate guard.separator (Text.cutAt [guard.placeholder] text) := by
  have piecesUnmarked : ∀ piece ∈ Text.cutAt [guard.placeholder] text,
      guard.placeholder ∉ piece := by
    intro piece member inside
    exact Text.not_infix_of_mem_cutAt (by simp) member ((List.singleton_infix_iff _ _).mpr inside)
  rw [← guard.restore_intercalate piecesUnmarked, Text.intercalate_cutAt]

section Concealing

@[simp] theorem conceal_nil : guard.conceal [] = [] := by
  simp [conceal, pieces]

theorem conceal_of_not_infix {text : Text} (absent : ¬ guard.separator <:+: text) :
    guard.conceal text = text := by
  rw [conceal, pieces, Text.cutAt_of_not_infix absent, List.intercalate_singleton]

theorem conceal_cons {c : Char} {rest : Text} (elsewhere : ¬ guard.separator <+: c :: rest) :
    guard.conceal (c :: rest) = c :: guard.conceal rest := by
  rw [conceal, conceal, pieces, pieces, Text.cutAt_cons elsewhere]
  cases cut : Text.cutAt guard.separator rest with
  | nil => exact absurd cut (Text.cutAt_ne_nil guard.separator rest)
  | cons piece pieces => exact List.intercalate_cons_cons_left

variable {guard} (nonempty : guard.separator ≠ [])

include nonempty

theorem conceal_of_starts {text : Text} (starts : guard.separator <+: text) :
    guard.conceal text =
      guard.placeholder :: guard.conceal (text.drop guard.separator.length) := by
  rw [conceal, pieces, Text.cutAt_of_prefix nonempty starts,
    List.intercalate_cons_of_ne_nil (Text.cutAt_ne_nil _ _)]
  rfl

/-- A character that no separator holds keeps the separators in front of it apart from those behind
it. -/
theorem conceal_append_cons {c : Char} (outside : c ∉ guard.separator) (left right : Text) :
    guard.conceal (left ++ c :: right) = guard.conceal left ++ c :: guard.conceal right := by
  match left with
  | [] =>
      have elsewhere : ¬ guard.separator <+: c :: right := by
        intro starts
        have inside : guard.separator <+: [] := Text.prefix_of_prefix_append_cons outside starts
        exact nonempty (List.prefix_nil.mp inside)
      rw [List.nil_append, conceal_cons guard elsewhere, conceal_nil, List.nil_append]
  | first :: rest =>
      by_cases starts : guard.separator <+: first :: rest
      · have positive := List.length_pos_iff.mpr nonempty
        rw [conceal_of_starts nonempty (starts.trans (List.prefix_append _ _)),
          List.drop_append_of_le_length starts.length_le,
          conceal_append_cons outside ((first :: rest).drop guard.separator.length) right,
          conceal_of_starts nonempty starts, List.cons_append]
      · have elsewhere : ¬ guard.separator <+: first :: (rest ++ c :: right) :=
          fun longer => starts (Text.prefix_of_prefix_append_cons outside longer)
        rw [List.cons_append, conceal_cons guard elsewhere, conceal_append_cons outside rest right,
          conceal_cons guard starts, List.cons_append]
termination_by left.length

end Concealing

/-! ## Passing the guard -/

section Protecting

variable {guard} {text concealed : Text}

theorem protect_of_not_mem (absent : guard.placeholder ∉ text) :
    guard.protect text = .ok (guard.conceal text) := by
  have free : text.contains guard.placeholder = false := by simpa using absent
  rw [protect, free]
  rfl

theorem protect_of_mem (marked : guard.placeholder ∈ text) :
    guard.protect text = .error (.of (.placeholderCollision guard.placeholder none)) := by
  have found : text.contains guard.placeholder = true := by simpa using marked
  rw [protect, found]
  rfl

theorem protect_eq_ok_iff : guard.protect text = .ok concealed ↔
    guard.placeholder ∉ text ∧ guard.conceal text = concealed := by
  by_cases marked : guard.placeholder ∈ text
  · simp [protect_of_mem marked, marked]
  · simp [protect_of_not_mem marked, marked]

end Protecting

section Unmarked

variable (nonempty : guard.separator ≠ []) (unmarked : guard.placeholder ∉ guard.separator)

include unmarked in
/-- No placeholder is left in a restored text. -/
theorem not_mem_restore (text : Text) : guard.placeholder ∉ guard.restore text := by
  intro inside
  obtain ⟨c, _, member⟩ := List.mem_flatMap.mp inside
  split at member
  · exact unmarked member
  · next different => exact different (List.mem_singleton.mp member).symm

include nonempty unmarked in
theorem not_infix_conceal (text : Text) : ¬ guard.separator <:+: guard.conceal text := by
  intro inside
  obtain ⟨piece, member, inside⟩ :=
    Text.exists_piece_of_infix unmarked (Text.cutAt_ne_nil guard.separator text) inside
  exact Text.not_infix_of_mem_cutAt nonempty member inside

include nonempty in
/-- Restored separators are found where they were put. -/
theorem conceal_restore (unbordered : Text.IsUnbordered guard.separator) {text : Text}
    (absent : ¬ guard.separator <:+: text) : guard.conceal (guard.restore text) = text := by
  have joined := Text.intercalate_cutAt [guard.placeholder] text
  have piecesAbsent : ∀ piece ∈ Text.cutAt [guard.placeholder] text,
      ¬ guard.separator <:+: piece := by
    intro piece member inside
    have part := Text.infix_of_mem_intercalate [guard.placeholder] member
    rw [joined] at part
    exact absent (inside.trans part)
  calc guard.conceal (guard.restore text)
      = guard.conceal (List.intercalate guard.separator
          (Text.cutAt [guard.placeholder] text)) := by
        rw [restore_eq_intercalate]
    _ = List.intercalate [guard.placeholder] (Text.cutAt [guard.placeholder] text) := by
        rw [conceal, pieces,
          Text.cutAt_intercalate unbordered nonempty (Text.cutAt_ne_nil _ _) piecesAbsent]
    _ = text := joined

include nonempty unmarked in
/-- A restored text passes the guard again. -/
theorem protect_restore (unbordered : Text.IsUnbordered guard.separator) {text : Text}
    (absent : ¬ guard.separator <:+: text) :
    guard.protect (guard.restore text) = .ok text :=
  protect_eq_ok_iff.mpr
    ⟨guard.not_mem_restore unmarked text, guard.conceal_restore nonempty unbordered absent⟩

end Unmarked

end Guard

end Recase
