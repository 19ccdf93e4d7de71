import Recase.Proofs.Placeholders
import Mathlib

/-!
# Occurrences of separators

Which occurrences of a separator count is said here without a search: the first one, then the first
one behind it, and so on.  They cut a text into pieces, one in front of each and one behind the
last.  Only one list of pieces comes about in this way, also for a separator that overlaps with
itself, and it is the list that the search finds.  A guard keeps what it promises for any separator:
whatever it accepts comes back, and a separator worth the name leaves nothing but placeholders.
-/

namespace Recase

namespace Text

variable {separator text before behind : Text}

/-! ## The first occurrence -/

/-- Whether no occurrence of a separator begins in front of the one between two texts. -/
def IsFirst (separator before behind : Text) : Prop :=
  ∀ left right, before ++ separator ++ behind = left ++ separator ++ right →
    before.length ≤ left.length

theorem isFirst_nil (separator behind : Text) : IsFirst separator [] behind := by
  intro left right _
  exact Nat.zero_le left.length

theorem IsFirst.cons {c : Char} (first : IsFirst separator before behind)
    (elsewhere : ¬ separator <+: c :: (before ++ separator ++ behind)) :
    IsFirst separator (c :: before) behind := by
  intro left right split
  cases left with
  | nil => exact absurd ⟨right, split.symm⟩ elsewhere
  | cons d left =>
      have shorter := first left right (List.cons.inj split).2
      exact Nat.succ_le_succ shorter

theorem IsFirst.tail {c : Char} (first : IsFirst separator (c :: before) behind) :
    IsFirst separator before behind := by
  intro left right split
  have longer := first (c :: left) right (by
    rw [List.cons_append, List.cons_append, split, List.cons_append, List.cons_append])
  exact Nat.le_of_succ_le_succ longer

theorem IsFirst.not_prefix {c : Char} (first : IsFirst separator (c :: before) behind) :
    ¬ separator <+: c :: before ++ separator ++ behind := by
  rintro ⟨right, split⟩
  have bound := first [] right split.symm
  exact absurd bound (Nat.not_succ_le_zero before.length)

theorem exists_isFirst (occurs : separator <:+: text) :
    ∃ before behind, text = before ++ separator ++ behind ∧ IsFirst separator before behind := by
  induction text with
  | nil =>
      have empty := List.infix_nil.mp occurs
      exact ⟨[], [], by rw [empty]; rfl, isFirst_nil separator []⟩
  | cons c text ih =>
      by_cases starts : separator <+: c :: text
      · obtain ⟨behind, split⟩ := starts
        exact ⟨[], behind, split.symm, isFirst_nil separator behind⟩
      · have later := (List.infix_cons_iff.mp occurs).resolve_left starts
        obtain ⟨before, behind, rfl, first⟩ := ih later
        exact ⟨c :: before, behind, rfl, first.cons starts⟩

theorem IsFirst.unique {otherBefore otherBehind : Text} (first : IsFirst separator before behind)
    (other : IsFirst separator otherBefore otherBehind)
    (same : before ++ separator ++ behind = otherBefore ++ separator ++ otherBehind) :
    before = otherBefore ∧ behind = otherBehind := by
  have lengths : before.length = otherBefore.length :=
    Nat.le_antisymm (first _ _ same) (other _ _ same.symm)
  rw [List.append_assoc, List.append_assoc] at same
  obtain ⟨sameBefore, rest⟩ := List.append_inj same lengths
  exact ⟨sameBefore, List.append_cancel_left rest⟩

/-! ## All occurrences from the left -/

/-- The pieces that a text falls into at the occurrences of a separator, taken from the left and
without overlap. -/
inductive FallsInto (separator : Text) : Text → List Text → Prop where
  | whole {text : Text} (absent : ¬ separator <:+: text) : FallsInto separator text [text]
  | atFirst {before behind : Text} {pieces : List Text} (first : IsFirst separator before behind)
      (further : FallsInto separator behind pieces) :
      FallsInto separator (before ++ separator ++ behind) (before :: pieces)

/-- A text falls into pieces in one way only. -/
theorem FallsInto.unique {pieces others : List Text} (falls : FallsInto separator text pieces)
    (otherwise : FallsInto separator text others) : others = pieces := by
  induction falls generalizing others with
  | whole absent =>
      cases otherwise with
      | whole => rfl
      | @atFirst before behind _ first further =>
          exact absurd ⟨before, behind, rfl⟩ absent
  | @atFirst before behind pieces first further ih =>
      generalize same : before ++ separator ++ behind = text at otherwise
      cases otherwise with
      | whole absent => exact absurd ⟨before, behind, same⟩ absent
      | atFirst other otherFurther =>
          obtain ⟨rfl, rfl⟩ := first.unique other same
          rw [ih otherFurther]

/-- The search cuts at the first occurrence. -/
theorem cutAt_of_isFirst (nonempty : separator ≠ []) (first : IsFirst separator before behind) :
    cutAt separator (before ++ separator ++ behind) = before :: cutAt separator behind := by
  induction before with
  | nil =>
      have cut := cutAt_of_prefix nonempty (List.prefix_append separator behind)
      rw [List.nil_append, cut, List.drop_left]
  | cons c before ih =>
      have elsewhere := first.not_prefix
      rw [List.cons_append, List.cons_append] at elsewhere ⊢
      rw [cutAt_cons elsewhere, ih first.tail]

theorem fallsInto_cutAt (nonempty : separator ≠ []) (text : Text) :
    FallsInto separator text (cutAt separator text) := by
  induction length : text.length using Nat.strong_induction_on generalizing text with
  | h size ih =>
      by_cases occurs : separator <:+: text
      · obtain ⟨before, behind, rfl, first⟩ := exists_isFirst occurs
        have positive := List.length_pos_iff.mpr nonempty
        have shorter : behind.length < size := by
          rw [← length, List.length_append, List.length_append]
          omega
        rw [cutAt_of_isFirst nonempty first]
        exact .atFirst first (ih behind.length shorter behind rfl)
      · have whole := cutAt_of_not_infix occurs
        rw [whole]
        exact .whole occurs

theorem fallsInto_iff (nonempty : separator ≠ []) {pieces : List Text} :
    FallsInto separator text pieces ↔ pieces = cutAt separator text := by
  constructor
  · intro falls
    exact (fallsInto_cutAt nonempty text).unique falls
  · rintro rfl
    exact fallsInto_cutAt nonempty text

end Text

/-! ## What a guard promises -/

namespace Guard

variable {guard : Guard} {text : Text}

/-- A guard refuses the texts that hold its placeholder, and gives all others back.  This takes no
more of the separator than that it is a text.  If there is something to conceal, and no placeholder
in it, then no separator is left, and a placeholder stands in for each occurrence. -/
theorem protect_faithful (guard : Guard) (text : Text) :
    ((∃ error, guard.protect text = .error error ∧
        error.cause.code = "rewrite.placeholder_collision".toList) ↔ guard.placeholder ∈ text) ∧
    (guard.placeholder ∉ text → ∃ concealed, guard.protect text = .ok concealed ∧
      guard.restore concealed = text ∧
      (guard.separator ≠ [] → guard.placeholder ∉ guard.separator →
        ¬ guard.separator <:+: concealed ∧
        ∃ pieces, (∀ others, Text.FallsInto guard.separator text others ↔ others = pieces) ∧
          concealed = List.intercalate [guard.placeholder] pieces ∧
          pieces.length = concealed.count guard.placeholder + 1)) := by
  constructor
  · constructor
    · rintro ⟨error, refused, -⟩
      by_contra absent
      rw [protect_of_not_mem absent] at refused
      cases refused
    · intro marked
      exact ⟨_, protect_of_mem marked, rfl⟩
  · intro absent
    refine ⟨guard.conceal text, protect_of_not_mem absent, guard.restore_conceal absent, ?_⟩
    intro nonempty unmarked
    refine ⟨guard.not_infix_conceal nonempty unmarked text, guard.pieces text, ?_, rfl,
      length_pieces absent⟩
    intro others
    exact Text.fallsInto_iff nonempty

/-- A separator that overlaps with itself. -/
def overlapping : Guard where
  separator := ['_', '_']
  placeholder := '§'

/-- Five underscores hold the separator twice from the left, and one underscore is left. -/
theorem protect_faithful_overlapping :
    ∃ concealed, overlapping.protect "a_____b".toList = .ok concealed ∧
      concealed = "a§§_b".toList ∧ overlapping.restore concealed = "a_____b".toList ∧
      ¬ overlapping.separator <:+: concealed ∧
      Text.FallsInto overlapping.separator "a_____b".toList [['a'], [], ['_', 'b']] := by
  have absent : overlapping.placeholder ∉ "a_____b".toList := by decide
  obtain ⟨concealed, passes, restored, hidden⟩ :=
    (protect_faithful overlapping "a_____b".toList).2 absent
  obtain ⟨free, pieces, only, -, -⟩ := hidden (by decide) (by decide)
  have known : overlapping.protect "a_____b".toList = .ok "a§§_b".toList := by cbv
  have cut : overlapping.pieces "a_____b".toList = [['a'], [], ['_', 'b']] := by cbv
  have same : [['a'], [], ['_', 'b']] = pieces := by
    rw [← cut]
    exact (only _).mp (Text.fallsInto_cutAt (by decide) _)
  rw [known] at passes
  exact ⟨concealed, by rw [known, passes], (Except.ok.inj passes).symm, restored, free,
    (only _).mpr same⟩

end Guard

end Recase
