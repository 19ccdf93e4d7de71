import Recase.Proofs.Bounds
import Recase.Proofs.Guarding
import Recase.Proofs.Marks
import Recase.Run
import Mathlib

/-!
# Changed texts

A rewriting changes a text if and only if it replaces a name.  A new name differs from the old one
in some character, unless all that it lacks is underscores at its end; then the character behind
the old name tells the two apart.  Restored separators do not blur this.  They could only if they
consisted of underscores, but then a concealed text has no underscore in front of a separator,
since separators are taken from the left.
-/

namespace Recase

open Character (isWord)

/-! ## How new names differ -/

/-- How a new name differs from the old one: they go apart at some character, which in the new name
is a word character, or the new name lacks underscores at the end. -/
inductive Diverges (old new : Text) : Prop where
  | apart (shared oldRest newRest : Text) {c d : Char} (different : c ≠ d)
      (inWord : isWord d = true) (oldSplit : old = shared ++ c :: oldRest)
      (newSplit : new = shared ++ d :: newRest)
  | shorter (count : Nat) (split : old = new ++ List.replicate (count + 1) '_')

theorem Diverges.append {old new : Text} (diverges : Diverges old new) (shared : Text) :
    Diverges (shared ++ old) (shared ++ new) := by
  cases diverges with
  | apart front oldRest newRest different inWord oldSplit newSplit =>
      refine .apart (shared ++ front) oldRest newRest different inWord ?_ ?_
      · rw [oldSplit, List.append_assoc]
      · rw [newSplit, List.append_assoc]
  | shorter count split =>
      refine .shorter count ?_
      rw [split, List.append_assoc]

theorem capitalize_eq_or_diverges {word : Text} (allWord : ∀ c ∈ word, isWord c = true)
    (rest newRest : Text) :
    capitalize word = word ∨ Diverges (word ++ rest) (capitalize word ++ newRest) := by
  cases word with
  | nil => exact .inl rfl
  | cons c word =>
      by_cases same : Character.uppercase c = [c]
      · left
        rw [capitalize, same, List.singleton_append]
      · right
        obtain ⟨first, form, split⟩ := List.exists_cons_of_ne_nil (Character.uppercase_ne_nil c)
        have head : (Character.uppercase c).head? = some first := by rw [split, List.head?_cons]
        have different : c ≠ first := by
          rintro rfl
          exact same (Character.uppercase_of_head head)
        have inWord := Character.isWord_of_head_uppercase (allWord c List.mem_cons_self) head
        refine .apart [] (word ++ rest) (form ++ word ++ newRest) different inWord rfl ?_
        rw [capitalize, split]
        simp

/-- What begins words joined by capitals is the capital of one of their characters. -/
theorem exists_of_head?_flatMap_capitalize {parts : List Text} {first : Char}
    (head : (parts.flatMap capitalize).head? = some first) :
    ∃ part ∈ parts, ∃ c ∈ part, (Character.uppercase c).head? = some first := by
  induction parts with
  | nil => cases head
  | cons part parts ih =>
      cases part with
      | nil =>
          obtain ⟨later, member, found⟩ := ih head
          exact ⟨later, List.mem_cons_of_mem _ member, found⟩
      | cons c part =>
          refine ⟨c :: part, List.mem_cons_self, c, List.mem_cons_self, ?_⟩
          obtain ⟨form, forms, split⟩ := List.exists_cons_of_ne_nil (Character.uppercase_ne_nil c)
          rw [List.flatMap_cons, capitalize, split] at head
          rw [split]
          exact head

theorem eq_replicate_of_flatMap_capitalize {text : Text}
    (nothing : (words text).flatMap capitalize = []) :
    text = List.replicate text.length '_' := by
  have emptyWords : ∀ word ∈ words text, word = [] := by
    intro word member
    have empty := List.flatMap_eq_nil_iff.mp nothing word member
    cases word with
    | nil => rfl
    | cons c rest => exact absurd (List.append_eq_nil_iff.mp empty).1 (Character.uppercase_ne_nil c)
  apply List.eq_replicate_of_mem
  intro c member
  rw [← Text.intercalate_cutAt ['_'] text] at member
  rcases Text.mem_intercalate member with underscore | ⟨word, wordMember, inside⟩
  · exact List.mem_singleton.mp underscore
  · rw [emptyWords word wordMember] at inside
    cases inside

theorem diverges_capitals {head rest : Text}
    (allWord : ∀ c ∈ head ++ '_' :: rest, isWord c = true) :
    Diverges (head ++ '_' :: rest) (capitalize head ++ (words rest).flatMap capitalize) := by
  have headWord : ∀ c ∈ head, isWord c = true := by
    intro c member
    exact allWord c (List.mem_append_left _ member)
  rcases capitalize_eq_or_diverges headWord ('_' :: rest) ((words rest).flatMap capitalize) with
    same | diverges
  · rw [same]
    cases joined : (words rest).flatMap capitalize with
    | nil =>
        refine .shorter rest.length ?_
        rw [List.append_nil, List.replicate_succ, ← eq_replicate_of_flatMap_capitalize joined]
    | cons d more =>
        have begins : ((words rest).flatMap capitalize).head? = some d := by
          rw [joined, List.head?_cons]
        obtain ⟨word, wordMember, c, inside, capital⟩ := exists_of_head?_flatMap_capitalize begins
        have inRest : c ∈ rest := mem_of_mem_words wordMember inside
        have inWord := allWord c (List.mem_append_right _ (List.mem_cons_of_mem _ inRest))
        refine .apart head rest more ?_ (Character.isWord_of_head_uppercase inWord capital) rfl rfl
        rintro rfl
        exact not_mem_flatMap_words rest (List.mem_of_head? begins)
  · exact diverges

theorem flatMap_words_eq_or_diverges {text : Text} (allWord : ∀ c ∈ text, isWord c = true) :
    (words text).flatMap capitalize = text ∨
      Diverges text ((words text).flatMap capitalize) := by
  by_cases underscore : '_' ∈ text
  · right
    obtain ⟨head, rest, rfl, plain⟩ := List.eq_append_cons_of_mem underscore
    rw [words_append plain, List.flatMap_cons]
    exact diverges_capitals allWord
  · rw [words_of_not_mem underscore, List.flatMap_singleton]
    have capital := capitalize_eq_or_diverges allWord [] []
    rwa [List.append_nil, List.append_nil] at capital

namespace Convention

variable {convention : Convention} {name new : Text}

theorem Joins.diverges (joins : convention.Joins name new) (different : new ≠ name)
    (allWord : ∀ c ∈ name, isWord c = true) : Diverges name new := by
  cases joins with
  | @behindMarker head plain marker rest =>
      have restWord : ∀ c ∈ rest, isWord c = true := by
        intro c member
        exact allWord c (List.mem_append_right _ (List.mem_cons_of_mem _ member))
      rcases flatMap_words_eq_or_diverges restWord with same | diverges
      · exact absurd (by rw [same]) different
      · have behind := diverges.append (head ++ ['_'])
        rwa [List.append_assoc, List.append_assoc] at behind
  | @capitals head plain rest => exact diverges_capitals allWord

theorem Joins.isWord_head (joins : convention.Joins name new) (plain : name.head? ≠ some '_')
    (allWord : ∀ c ∈ name, isWord c = true) :
    ∃ first rest, new = first :: rest ∧ first ≠ '_' ∧ isWord first = true := by
  obtain ⟨c, first, rest, head, rfl, origin⟩ := joins.exists_head plain
  have inWord : isWord c = true := allWord c (List.mem_of_head? head)
  have noUnderscore : c ≠ '_' := by
    rintro rfl
    exact plain head
  refine ⟨first, rest, rfl, ?_, ?_⟩
  · rintro rfl
    rcases origin with ⟨same, -⟩ | capital
    · exact noUnderscore same.symm
    · rcases Character.eq_or_of_mem_uppercase (List.mem_of_head? capital) with same | form
      · exact noUnderscore same.symm
      · exact not_isCapitalForm_underscore form
  · rcases origin with ⟨rfl, -⟩ | capital
    · exact inWord
    · exact Character.isWord_of_head_uppercase inWord capital

/-- A new name differs from the old one in some character, or lacks underscores at its end. -/
theorem diverges_of_rename? (renamed : convention.rename? name = some new)
    (allWord : ∀ c ∈ name, isWord c = true) : Diverges name new := by
  by_cases first : name.head? = some '_'
  · obtain ⟨rest, rfl⟩ := List.head?_eq_some_iff.mp first
    have begins : ∃ d more, new = d :: more ∧ d ≠ '_' ∧ isWord d = true := by
      rcases rename?_cases renamed with ⟨-, marked, -⟩ | ⟨marked, joins, plain, same | same⟩
      · exact ⟨'m', _, marked, by decide, by decide⟩
      · rw [same] at plain
        exact absurd first plain
      · apply joins.isWord_head plain
        intro c member
        rw [same] at member
        rcases List.mem_cons.mp member with rfl | member
        · decide
        · exact allWord c member
    obtain ⟨d, more, split, different, inWord⟩ := begins
    exact .apart [] rest more different.symm inWord rfl split
  · rw [rename?_of_head first] at renamed
    have found := (Option.ite_none_right_eq_some.mp renamed).2
    refine (joins_of_camelCase? found).diverges ?_ allWord
    rintro rfl
    simp [camelCase?] at found

end Convention

/-! ## Separators taken from the left -/

namespace Guard

variable {guard : Guard}

/-- A concealed text begins with a placeholder only where a separator was. -/
theorem prefix_of_head?_conceal {text : Text} (absent : guard.placeholder ∉ text)
    (begins : (guard.conceal text).head? = some guard.placeholder) : guard.separator <+: text := by
  by_cases starts : guard.separator <+: text
  · exact starts
  · cases text with
    | nil => simp [conceal, pieces] at begins
    | cons c rest =>
        rw [conceal, pieces, Text.cutAt_cons starts] at begins
        have same : c = guard.placeholder := by
          split at begins
          · simpa using begins
          · rw [List.intercalate_cons_cons_left, List.head?_cons] at begins
            exact Option.some.inj begins
        exact absurd (by simp [same]) absent

/-- If a separator consists of one character over and over, this character stands in front of no
separator. -/
theorem not_infix_conceal_of_replicate {c : Char} {count : Nat}
    (uniform : guard.separator = List.replicate (count + 1) c) {text : Text}
    (absent : guard.placeholder ∉ text) : ¬ [c, guard.placeholder] <:+: guard.conceal text := by
  rw [conceal, pieces]
  fun_induction Text.cutAt guard.separator text with
  | case1 => simp
  | case2 d rest cut ih =>
      have starts := List.isPrefixOf_iff_prefix.mp cut.2
      have inside : c ∈ d :: rest := starts.subset (by simp [uniform])
      rw [List.intercalate_cons_of_ne_nil (Text.cutAt_ne_nil _ _)]
      intro found
      rcases List.infix_cons_iff.mp found with begins | later
      · obtain ⟨same, -⟩ := List.cons_prefix_cons.mp begins
        rw [same] at inside
        exact absent inside
      · refine ih (fun member => ?_) later
        exact absent ((List.drop_suffix _ _).subset member)
  | case3 d rest elsewhere none ih => exact absurd none (Text.cutAt_ne_nil _ _)
  | case4 d rest elsewhere piece pieces cut ih =>
      rw [cut] at ih
      simp only [List.mem_cons, not_or] at absent
      rw [List.intercalate_cons_cons_left]
      intro found
      rcases List.infix_cons_iff.mp found with begins | later
      · obtain ⟨rfl, next⟩ := List.cons_prefix_cons.mp begins
        have head : (guard.conceal rest).head? = some guard.placeholder := by
          rw [conceal, Guard.pieces, cut]
          obtain ⟨more, split⟩ := next
          rw [← split]
          rfl
        have behind := prefix_of_head?_conceal absent.2 head
        have longer : guard.separator <+: c :: rest := by
          rw [uniform, List.replicate_succ, List.cons_prefix_cons]
          refine ⟨rfl, List.IsPrefix.trans ?_ behind⟩
          rw [uniform, List.replicate_succ']
          exact List.prefix_append _ _
        apply elsewhere
        exact ⟨by simp [uniform], List.isPrefixOf_iff_prefix.mpr longer⟩
      · exact ih absent.2 later

end Guard

/-! ## Separators do not blur a difference -/

theorem eq_replicate_of_append_eq {c : Char} {count : Nat} {text left right : Text}
    (same : List.replicate (count + 1) c ++ (text ++ left) = text ++ right) :
    text = List.replicate text.length c := by
  induction text with
  | nil => rfl
  | cons d text ih =>
      rw [List.replicate_succ, List.cons_append, List.cons_append, List.cons_append] at same
      obtain ⟨rfl, behind⟩ := List.cons.inj same
      rw [List.length_cons, List.replicate_succ]
      congr 1
      apply ih
      rw [← behind, List.replicate_succ']
      simp

theorem restore_ne_of_ne {guard : Guard} {shared oldRest newRest : Text} {c d : Char}
    (different : c ≠ d) (oldPlain : c ≠ guard.placeholder) (newPlain : d ≠ guard.placeholder) :
    guard.restore (shared ++ d :: newRest) ≠ guard.restore (shared ++ c :: oldRest) := by
  intro same
  rw [guard.restore_append, guard.restore_append] at same
  have behind := List.append_cancel_left same
  change (if d = guard.placeholder then guard.separator else [d]) ++ guard.restore newRest =
    (if c = guard.placeholder then guard.separator else [c]) ++ guard.restore oldRest at behind
  rw [if_neg newPlain, if_neg oldPlain] at behind
  exact different (List.cons.inj behind).1.symm

section Restored

variable {guard : Guard} {convention : Convention}

theorem ne_placeholder (noWord : isWord guard.placeholder = false) {c : Char}
    (inWord : isWord c = true) : c ≠ guard.placeholder := by
  rintro rfl
  rw [noWord] at inWord
  cases inWord

theorem restore_of_isWord (noWord : isWord guard.placeholder = false) {text : Text}
    (allWord : ∀ c ∈ text, isWord c = true) : guard.restore text = text := by
  apply guard.restore_of_not_mem
  intro member
  exact ne_placeholder noWord (allWord _ member) rfl

/-- Underscores that a new name lacks are not made up for by what stands behind it. -/
theorem restore_ne_of_shorter {count : Nat} {oldRest newRest : Text}
    (nonempty : guard.separator ≠ [])
    (follows : oldRest.head? ≠ some '_') (alike : newRest.head? = oldRest.head?)
    (fresh : ∀ length, guard.separator = List.replicate (length + 1) '_' →
      ¬ ['_', guard.placeholder] <:+: List.replicate (count + 1) '_' ++ oldRest) :
    guard.restore newRest ≠ List.replicate (count + 1) '_' ++ guard.restore oldRest := by
  intro same
  cases oldRest with
  | nil =>
      have empty : newRest = [] := by simpa using alike
      rw [empty] at same
      simp at same
  | cons c oldRest =>
      obtain ⟨newRest, rfl⟩ := List.head?_eq_some_iff.mp alike
      change (if c = guard.placeholder then guard.separator else [c]) ++ guard.restore newRest =
        List.replicate (count + 1) '_' ++
          ((if c = guard.placeholder then guard.separator else [c]) ++ guard.restore oldRest)
        at same
      by_cases placeholder : c = guard.placeholder
      · subst placeholder
        rw [if_pos rfl] at same
        have uniform := eq_replicate_of_append_eq same.symm
        obtain ⟨length, positive⟩ := Nat.exists_eq_succ_of_ne_zero
          (Nat.ne_of_gt (List.length_pos_iff.mpr nonempty))
        rw [positive] at uniform
        apply fresh length uniform
        refine ⟨List.replicate count '_', oldRest, ?_⟩
        rw [List.replicate_succ']
        simp
      · rw [if_neg placeholder, List.replicate_succ] at same
        obtain ⟨underscore, -⟩ := List.cons.inj same
        exact follows (by rw [underscore, List.head?_cons])

/-- A name that changes is told apart from its new name by what stands behind it, at the latest. -/
theorem restore_ne_of_diverges (noWord : isWord guard.placeholder = false)
    (nonempty : guard.separator ≠ []) {old new oldRest newRest : Text}
    (allWord : ∀ c ∈ old, isWord c = true) (diverges : Diverges old new)
    (follows : oldRest.head? ≠ some '_') (alike : newRest.head? = oldRest.head?)
    (fresh : ∀ length, guard.separator = List.replicate (length + 1) '_' →
      ¬ ['_', guard.placeholder] <:+: old ++ oldRest) :
    guard.restore (new ++ newRest) ≠ guard.restore (old ++ oldRest) := by
  cases diverges with
  | @apart shared oldTail newTail c d different inWord oldSplit newSplit =>
      subst oldSplit newSplit
      rw [List.append_assoc, List.append_assoc, List.cons_append, List.cons_append]
      apply restore_ne_of_ne different
      · exact ne_placeholder noWord (allWord c (by simp))
      · exact ne_placeholder noWord inWord
  | shorter count split =>
      subst split
      have newWord : ∀ c ∈ new, isWord c = true := by
        intro c member
        exact allWord c (List.mem_append_left _ member)
      have underscores : ∀ c ∈ List.replicate (count + 1) '_', isWord c = true := by
        intro c member
        rw [List.eq_of_mem_replicate member]
        decide
      rw [List.append_assoc] at fresh ⊢
      rw [guard.restore_append, guard.restore_append, guard.restore_append,
        restore_of_isWord noWord newWord, restore_of_isWord noWord underscores]
      intro same
      refine restore_ne_of_shorter nonempty follows alike ?_
        (List.append_cancel_left same)
      intro length uniform found
      exact fresh length uniform (List.infix_append_of_infix_right found)

/-- Parts some of which change make up another text, also when their separators are restored. -/
theorem restore_rewriteParts_ne (noWord : isWord guard.placeholder = false)
    (nonempty : guard.separator ≠ []) {isName : Char → Bool}
    (named : ∀ c, isName c = true → isWord c = true) (underscore : isName '_' = true)
    {parts : List Part} (bounded : Part.Bounded isName parts)
    (fresh : ∀ length, guard.separator = List.replicate (length + 1) '_' →
      ¬ ['_', guard.placeholder] <:+: Part.join parts)
    (changed : convention.changes parts ≠ []) :
    guard.restore (convention.rewriteParts parts) ≠ guard.restore (Part.join parts) := by
  induction bounded with
  | nil => exact absurd rfl changed
  | @name text parts allWord ends behind ih =>
      have textWord : ∀ c ∈ text, isWord c = true := by
        intro c member
        exact named c (allWord c member)
      rw [Part.join_cons] at fresh ⊢
      rw [Convention.rewriteParts_name]
      cases renamed : convention.rename? text with
      | none =>
          rw [Convention.changes_name_of_none renamed] at changed
          rw [Option.getD_none, guard.restore_append, guard.restore_append]
          intro same
          refine ih ?_ changed (List.append_cancel_left same)
          intro length uniform found
          exact fresh length uniform (List.infix_append_of_infix_right found)
      | some new =>
          have follows : (Part.join parts).head? ≠ some '_' := by
            intro head
            rw [ends '_' head] at underscore
            cases underscore
          exact restore_ne_of_diverges noWord nonempty textWord
            (Convention.diverges_of_rename? renamed textWord) follows
            (Convention.head?_rewriteParts behind ends) fresh
  | @other text parts behind ih =>
      rw [Convention.changes_other] at changed
      rw [Part.join_cons] at fresh ⊢
      rw [Convention.rewriteParts_other, guard.restore_append, guard.restore_append]
      intro same
      refine ih ?_ changed (List.append_cancel_left same)
      intro length uniform found
      exact fresh length uniform (List.infix_append_of_infix_right found)

end Restored

end Recase
