import Recase.Proofs.Overwriting
import Mathlib

/-!
# Placeholders between the two swaps

While names are replaced, placeholders stand where the separators were.  No name holds one, so the
old placeholders are all kept.  New ones come in with new names only: a placeholder may be one of
the eight combining marks that upper-case forms bring in.  With any other placeholder, just as many
separators are restored as were concealed.
-/

namespace Recase

open Character (isWord marks)

/-! ## What new names consist of -/

section Closed

variable {P : Char → Prop} (closed : ∀ c d, P c → d ∈ Character.uppercase c → P d)

include closed in
theorem forall_mem_capitalize {word : Text} (all : ∀ c ∈ word, P c) :
    ∀ d ∈ capitalize word, P d := by
  intro d member
  cases word with
  | nil => cases member
  | cons first rest =>
      rw [capitalize, List.mem_append] at member
      rcases member with capital | later
      · exact closed first d (all first List.mem_cons_self) capital
      · exact all d (List.mem_cons_of_mem first later)

include closed in
theorem forall_mem_flatMap_words {text : Text} (all : ∀ c ∈ text, P c) :
    ∀ d ∈ (words text).flatMap capitalize, P d := by
  intro d member
  obtain ⟨word, wordMember, inside⟩ := List.mem_flatMap.mp member
  refine forall_mem_capitalize closed ?_ d inside
  intro c inWord
  exact all c (mem_of_mem_words wordMember inWord)

namespace Convention

variable {convention : Convention} {name new : Text}

include closed in
theorem Joins.forall_mem (joins : convention.Joins name new) (all : ∀ c ∈ name, P c) :
    ∀ d ∈ new, P d := by
  intro d member
  cases joins with
  | @behindMarker head plain marker rest =>
      rcases List.mem_append.mp member with inside | inside
      · exact all d (List.mem_append_left _ inside)
      · rcases List.mem_cons.mp inside with rfl | inside
        · exact all '_' (by simp)
        · refine forall_mem_flatMap_words closed ?_ d inside
          intro c inRest
          exact all c (by simp [inRest])
  | @capitals head plain rest =>
      rcases List.mem_append.mp member with inside | inside
      · refine forall_mem_capitalize closed ?_ d inside
        intro c inHead
        exact all c (List.mem_append_left _ inHead)
      · refine forall_mem_flatMap_words closed ?_ d inside
        intro c inRest
        exact all c (by simp [inRest])

include closed in
/-- What holds of the characters of a name, of the letter of a member, and of upper-case forms holds
of the characters of a new name. -/
theorem forall_mem_of_rename? (letter : P 'm') (all : ∀ c ∈ name, P c)
    (renamed : convention.rename? name = some new) : ∀ d ∈ new, P d := by
  rcases rename?_cases renamed with ⟨-, rfl, -⟩ | ⟨marked, joins, -, equal⟩
  · exact forall_mem_marked (.inr rfl) letter all
  · exact joins.forall_mem closed (forall_mem_marked equal letter all)

theorem isWord_or_mem_marks_of_rename? (allWord : ∀ c ∈ name, isWord c = true)
    (renamed : convention.rename? name = some new) :
    ∀ d ∈ new, isWord d = true ∨ d ∈ marks := by
  have closed (c d : Char) (named : isWord c = true ∨ c ∈ marks)
      (member : d ∈ Character.uppercase c) : isWord d = true ∨ d ∈ marks := by
    rcases Character.isWord_or_mem_marks_of_mem_uppercase member with rfl | origin
    · exact named
    · exact origin
  apply forall_mem_of_rename? closed (.inl (by decide)) ?_ renamed
  intro c member
  exact .inl (allWord c member)

end Convention

end Closed

/-! ## Counting placeholders -/

namespace Text

theorem length_cutAt_singleton (c : Char) (text : Text) :
    (cutAt [c] text).length = text.count c + 1 := by
  induction text with
  | nil => simp
  | cons d text ih =>
      by_cases same : d = c
      · subst same
        have starts : [d] <+: d :: text := ⟨text, rfl⟩
        have cut := cutAt_of_prefix (by simp) starts
        rw [cut, List.length_cons, List.length_singleton,
          List.drop_succ_cons, List.drop_zero, ih, List.count_cons_self]
      · have elsewhere : ¬ [c] <+: d :: text := by
          intro starts
          exact same (List.cons_prefix_cons.mp starts).1.symm
        rw [cutAt_cons elsewhere, List.count_cons_of_ne same, ← ih]
        cases pieces : cutAt [c] text with
        | nil => exact absurd pieces (cutAt_ne_nil _ _)
        | cons piece pieces => rfl

end Text

namespace Guard

variable {guard : Guard}

theorem length_pieces {text : Text} (absent : guard.placeholder ∉ text) :
    (guard.pieces text).length = (guard.conceal text).count guard.placeholder + 1 := by
  have plain : ∀ piece ∈ guard.pieces text, ¬ [guard.placeholder] <:+: piece := by
    intro piece member inside
    exact guard.not_mem_of_mem_pieces absent member ((List.singleton_infix_iff _ _).mp inside)
  have same : Text.cutAt [guard.placeholder] (guard.conceal text) = guard.pieces text :=
    Text.cutAt_intercalate (Text.isUnbordered_singleton guard.placeholder) (by simp)
      (Text.cutAt_ne_nil _ _) plain
  rw [← same, Text.length_cutAt_singleton]

end Guard

namespace Convention

variable {convention : Convention}

/-- A character that belongs to no word occurs in a rewritten text as often as in the old one, and
once more for each time that it occurs in a new name. -/
theorem count_rewriteParts {isName : Char → Bool} {mark : Char} (noWord : isName mark = false)
    {parts : List Part} (bounded : Part.Bounded isName parts) :
    (convention.rewriteParts parts).count mark = (Part.join parts).count mark +
      ((convention.changes parts).map fun change => change.2.count mark).sum := by
  induction bounded with
  | nil => rfl
  | @name text parts allWord ends behind ih =>
      have absent : mark ∉ text := by
        intro member
        rw [allWord mark member] at noWord
        cases noWord
      have none : text.count mark = 0 := List.count_eq_zero_of_not_mem absent
      rw [rewriteParts_name, List.count_append, ih, Part.join_cons, List.count_append, none]
      cases renamed : convention.rename? text with
      | none =>
          rw [changes_name_of_none renamed, Option.getD_none, none, Nat.zero_add, Nat.zero_add]
      | some new =>
          rw [changes_name_of_some renamed, Option.getD_some, List.map_cons, List.sum_cons,
            Nat.zero_add]
          exact Nat.add_left_comm _ _ _
  | @other text parts behind ih =>
      rw [rewriteParts_other, List.count_append, ih, Part.join_cons, List.count_append,
        changes_other]
      exact (Nat.add_assoc _ _ _).symm

theorem mem_changes {isName : Char → Bool} {parts : List Part}
    (bounded : Part.Bounded isName parts) {change : Text × Text}
    (member : change ∈ convention.changes parts) :
    convention.rename? change.1 = some change.2 ∧ ∀ c ∈ change.1, isName c = true := by
  induction bounded with
  | nil => cases member
  | @name text parts allWord ends behind ih =>
      cases renamed : convention.rename? text with
      | none =>
          rw [changes_name_of_none renamed] at member
          exact ih member
      | some new =>
          rw [changes_name_of_some renamed] at member
          rcases List.mem_cons.mp member with rfl | later
          · exact ⟨renamed, allWord⟩
          · exact ih later
  | @other text parts behind ih =>
      rw [changes_other] at member
      exact ih member

/-- A new name holds a character that belongs to no word only if that is one of the marks. -/
theorem not_mem_of_mem_changes {mark : Char} (noWord : isWord mark = false) (unmarked : mark ∉ marks)
    {mode : Mode} {text : Text} {change : Text × Text}
    (member : change ∈ convention.changes (mode.parts text)) : mark ∉ change.2 := by
  intro inside
  obtain ⟨renamed, allName⟩ := mem_changes (mode.bounded_parts text) member
  have allWord : ∀ c ∈ change.1, isWord c = true :=
    fun c inName => Mode.isWord_of_isWord (allName c inName)
  rcases isWord_or_mem_marks_of_rename? allWord renamed _ inside with word | listed
  · rw [noWord] at word
    cases word
  · exact unmarked listed

theorem not_mem_rewriteParts {mark : Char} (noWord : isWord mark = false) (unmarked : mark ∉ marks)
    {mode : Mode} {text : Text} (absent : mark ∉ text) :
    mark ∉ convention.rewriteParts (mode.parts text) := by
  have noName := mode.isWord_eq_false noWord
  rw [← List.count_eq_zero, count_rewriteParts noName (mode.bounded_parts text), Mode.join_parts,
    List.count_eq_zero_of_not_mem absent, Nat.zero_add, List.sum_eq_zero_iff]
  intro count member
  obtain ⟨change, changed, rfl⟩ := List.mem_map.mp member
  exact List.count_eq_zero_of_not_mem (not_mem_of_mem_changes noWord unmarked changed)

end Convention

namespace Config

variable {config : Config}

/-- The text between the two swaps: the separators are concealed, and the names replaced. -/
def respelled (config : Config) (content : Text) : Text :=
  config.rewriteParts (config.mode.parts (config.conceal content))

/-- Between the two swaps placeholders only become more, by those that new names bring in. -/
theorem count_respelled (valid : config.validate = .ok ()) (content : Text) :
    (config.respelled content).count config.placeholder =
      (config.conceal content).count config.placeholder +
        ((config.changes (config.mode.parts (config.conceal content))).map fun change =>
          change.2.count config.placeholder).sum := by
  have noWord := isWord_eq_false_of_isPlaceholder (guard_of_validate valid).1
  have noName := config.mode.isWord_eq_false noWord
  have counted := config.toConvention.count_rewriteParts noName
    (Mode.bounded_parts config.mode (config.conceal content))
  rw [Mode.join_parts] at counted
  exact counted

theorem count_respelled_eq_iff (valid : config.validate = .ok ()) (content : Text) :
    (config.respelled content).count config.placeholder =
        (config.conceal content).count config.placeholder ↔
      ∀ change ∈ config.changes (config.mode.parts (config.conceal content)),
        config.placeholder ∉ change.2 := by
  rw [count_respelled valid, Nat.add_eq_left, List.sum_eq_zero_iff]
  constructor
  · intro zero change member
    exact List.count_eq_zero.mp (zero _ (List.mem_map_of_mem member))
  · intro absent count member
    obtain ⟨change, changed, rfl⟩ := List.mem_map.mp member
    exact List.count_eq_zero.mpr (absent change changed)

theorem rewritten_eq_or_not_mem (valid : config.validate = .ok ()) {text : Text} {part : Part}
    (member : part ∈ config.mode.parts text) :
    config.rewritten part = part.text ∨ config.placeholder ∉ part.text ∧
      (part.text, config.rewritten part) ∈ config.changes (config.mode.parts text) := by
  cases changes : config.change? part with
  | none =>
      left
      rw [Convention.rewritten, changes]
  | some change =>
      right
      have listed : change ∈ config.changes (config.mode.parts text) :=
        List.mem_filterMap.mpr ⟨part, member, changes⟩
      have old : change.1 = part.text := by
        rw [Convention.change?] at changes
        split at changes
        · obtain ⟨new, -, rfl⟩ := Option.map_eq_some_iff.mp changes
          rfl
        · cases changes
      have new : config.rewritten part = change.2 := by
        rw [Convention.rewritten, changes]
      rw [new, ← old]
      refine ⟨?_, listed⟩
      intro inside
      obtain ⟨-, allName⟩ := Convention.mem_changes (Mode.bounded_parts config.mode text) listed
      have word := Mode.isWord_of_isWord (allName _ inside)
      rw [isWord_eq_false_of_isPlaceholder (guard_of_validate valid).1] at word
      cases word

/-- Whether as many placeholders are restored in a content as were put in. -/
def KeepsCount (config : Config) (content : Text) : Prop :=
  (config.respelled content).count config.placeholder =
    (config.conceal content).count config.placeholder

/-- What becomes of the placeholders of a content that passes the guard.  As many are restored as
were put in if and only if no new name holds one, which is so for every placeholder but the marks.
Then all parts of the text that are not just kept are free of placeholders before and after, and the
new text has the old number of pieces between its separators. -/
structure CountsPlaceholders (config : Config) (content : Text) : Prop where
  passes : config.protect content = .ok (config.conceal content)
  rewritten : ∃ rewrite, config.rewrite content = .ok rewrite ∧
    rewrite.content = config.restore (config.respelled content)
  keepsCount_iff : config.KeepsCount content ↔
    ∀ change ∈ config.changes (config.mode.parts (config.conceal content)),
      config.placeholder ∉ change.2
  unmarked : config.placeholder ∉ marks → config.KeepsCount content
  parts : config.KeepsCount content → ∀ part ∈ config.mode.parts (config.conceal content),
    config.rewritten part = part.text ∨
      config.placeholder ∉ part.text ∧ config.placeholder ∉ config.rewritten part
  pieces : config.KeepsCount content →
    ∃ pieces : List Text, pieces.length = (config.pieces content).length ∧
      config.respelled content = List.intercalate [config.placeholder] pieces ∧
      config.restore (config.respelled content) = List.intercalate config.separator pieces

/-- The placeholders of a text that holds none itself are those of its separators. -/
theorem count_placeholder_iff (config : Config) (valid : config.validate = .ok ())
    {content : Text} (absent : config.placeholder ∉ content) :
    config.CountsPlaceholders content := by
  have passes : config.protect content = .ok (config.conceal content) :=
    Guard.protect_of_not_mem absent
  constructor
  · exact passes
  · exact ⟨_, Guard.rewriteContentBy_of_protect passes config.toConvention config.mode.parts, rfl⟩
  · exact count_respelled_eq_iff valid content
  · intro unmarked
    apply (count_respelled_eq_iff valid content).mpr
    intro change member
    exact Convention.not_mem_of_mem_changes
      (isWord_eq_false_of_isPlaceholder (guard_of_validate valid).1) unmarked member
  · intro kept part member
    rcases rewritten_eq_or_not_mem valid member with same | ⟨free, changed⟩
    · exact .inl same
    · exact .inr ⟨free, (count_respelled_eq_iff valid content).mp kept _ changed⟩
  · intro kept
    refine ⟨Text.cutAt [config.placeholder] (config.respelled content), ?_,
      (Text.intercalate_cutAt _ _).symm, config.restore_eq_intercalate _⟩
    rw [Text.length_cutAt_singleton, kept, config.length_pieces absent]

set_option maxRecDepth 2000 in
/-- Two names change, and the separator between them comes back. -/
theorem count_placeholder_iff_one :
    ((unfiltered [] .lexical).respelled
        ("a_b".toList ++ (unfiltered [] .lexical).separator ++ "c_d".toList)).count '§' = 1 := by
  have absent : '§' ∉ "a_b".toList ++ (unfiltered [] .lexical).separator ++ "c_d".toList := by decide
  have concealed : (unfiltered [] .lexical).conceal
      ("a_b".toList ++ (unfiltered [] .lexical).separator ++ "c_d".toList) = "a_b§c_d".toList := by cbv
  have kept := (count_placeholder_iff (unfiltered [] .lexical) (validate_unfiltered [] .lexical)
    absent).unmarked (by decide)
  rw [KeepsCount, concealed] at kept
  exact kept

/-- A configuration whose placeholder is the caron. -/
def caron : Config :=
  { unfiltered [] .lexical with placeholder := '\u030C' }

set_option maxRecDepth 2000 in
/-- The capital of a letter brings in a caron, and a separator appears where there was none. -/
theorem count_placeholder_caron :
    caron.validate = .ok () ∧ '\u030C' ∉ "ǰ_x".toList ∧
      caron.protect "ǰ_x".toList = .ok "ǰ_x".toList ∧
      ("ǰ_x".toList.count caron.placeholder) = 0 ∧
      (caron.respelled "ǰ_x".toList).count caron.placeholder = 1 ∧
      ∃ rewrite, caron.rewrite "ǰ_x".toList = .ok rewrite ∧
        rewrite.content = 'J' :: (unfiltered [] .lexical).separator ++ ['X'] := by
  have valid : caron.validate = .ok () :=
    validate_eq_ok rfl (by decide : isMarker ['m'] = true) (by decide : isMarker ['a'] = true)
      (by decide : isPlaceholder '\u030C' = true) rfl rfl
  have respelt : caron.respelled "ǰ_x".toList = ['J', '\u030C', 'X'] := by cbv
  have rewritten : caron.rewrite "ǰ_x".toList =
      .ok { content := 'J' :: (unfiltered [] .lexical).separator ++ ['X']
            replacements := 1
            renames := Index.ofList [("ǰ_x".toList, ['J', '\u030C', 'X'])] } := by
    cbv
  refine ⟨valid, by decide, by cbv, by decide, ?_, _, rewritten, rfl⟩
  rw [respelt]
  decide

end Config

end Recase
