import Recase.Proofs.Visits

/-!
# Canonical names

The names that a convention leaves alone are told by their looks: which character they begin with,
whether they hold an underscore, and what stands around it.  These are the canonical names.  Every
other name has a canonical one, which is reached in one step.
-/

namespace Recase

theorem capitalize_eq_self_iff {text : Text} : capitalize text = text ↔ IsCapitalized text := by
  refine ⟨fun same => ?_, capitalize_of_isCapitalized⟩
  intro first head
  obtain ⟨rest, rfl⟩ := List.head?_eq_some_iff.mp head
  rw [capitalize, ← List.singleton_append (x := first)] at same
  exact List.append_cancel_right same

namespace Convention

variable {convention : Convention} {name : Text}

/-- The names whose words a convention does not join: it joins none at all, there is but one word,
the name begins with a capital or as a number, it is ignored, or the words behind a marker have been
joined already. -/
inductive LeavesWords (convention : Convention) : Text → Prop where
  | apart (off : convention.camelCase = false) (name : Text) : LeavesWords convention name
  | unbroken {name : Text} (plain : '_' ∉ name) : LeavesWords convention name
  | capital {first : Char} (isUppercase : Character.isUppercase first = true) (rest : Text) :
      LeavesWords convention (first :: rest)
  | digit {first : Char} (isDigit : first.isDigit = true) (rest : Text) :
      LeavesWords convention (first :: rest)
  | ignored {name : Text} (kept : convention.ignores name = true) : LeavesWords convention name
  | joined {marker tail : Text}
      (isMarker : marker = convention.memberMarker ∨ marker = convention.argumentMarker)
      (plainMarker : '_' ∉ marker) (plainTail : '_' ∉ tail) (capitalized : capitalize tail = tail) :
      LeavesWords convention (marker ++ '_' :: tail)

theorem leavesWords_of_isCandidate (excluded : convention.isCandidate name = false) :
    convention.LeavesWords name := by
  cases name with
  | nil => exact .unbroken List.not_mem_nil
  | cons first rest =>
      by_cases plain : '_' ∉ first :: rest
      · exact .unbroken plain
      cases upper : Character.isUppercase first with
      | true => exact .capital upper rest
      | false =>
          cases digit : first.isDigit with
          | true => exact .digit digit rest
          | false =>
              refine .ignored ?_
              have holds : (first :: rest).contains '_' = true :=
                List.contains_iff_mem.mpr (not_not.mp plain)
              rw [isCandidate, holds, upper, digit] at excluded
              simpa using excluded

theorem leavesWords_of_joinWords (same : convention.joinWords (words name) = name) :
    convention.LeavesWords name := by
  by_cases plain : '_' ∉ name
  · exact .unbroken plain
  obtain ⟨head, tail, rfl, plainHead⟩ := List.eq_append_cons_of_mem (not_not.mp plain)
  rw [words_append plainHead, joinWords, Convention.head] at same
  split at same
  · next isMarker =>
      rw [List.append_assoc, List.singleton_append] at same
      have joinedTail : (words tail).flatMap capitalize = tail :=
        (List.cons.inj (List.append_cancel_left same)).2
      have plainTail : '_' ∉ tail := joinedTail ▸ not_mem_flatMap_words tail
      rw [words_of_not_mem plainTail, List.flatMap_singleton] at joinedTail
      exact .joined isMarker plainHead plainTail joinedTail
  · have inside : '_' ∈ capitalize head ++ (words tail).flatMap capitalize := by
      rw [same]
      exact not_not.mp plain
    rcases List.mem_append.mp inside with first | later
    · exact absurd first (not_mem_capitalize plainHead)
    · exact absurd later (not_mem_flatMap_words tail)

/-- A name whose words are left is left alone, but for a leading underscore. -/
theorem LeavesWords.rename?_eq_none (leaves : convention.LeavesWords name)
    (head : name.head? ≠ some '_') : convention.rename? name = none := by
  have excluded (notCandidate : convention.isCandidate name = false) :
      convention.rename? name = none := by
    rw [rename?_of_head head, camelCase?, notCandidate, if_neg Bool.false_ne_true, ite_self]
  cases leaves with
  | apart off => rw [rename?_of_head head, off, if_neg Bool.false_ne_true]
  | unbroken plain => exact rename?_of_not_mem plain
  | capital upper rest => exact excluded (by simp [isCandidate, upper])
  | digit isDigit rest => exact excluded (by simp [isCandidate, isDigit])
  | ignored kept => exact excluded (by cases name <;> simp [isCandidate, kept])
  | @joined marker tail isMarker plainMarker plainTail capitalized =>
      have nonempty : marker ≠ [] := by
        rintro rfl
        exact head rfl
      exact rename?_behindMarker nonempty plainMarker isMarker plainTail
        (capitalize_eq_self_iff.mp capitalized)

theorem leavesWords_of_rename?_eq_none (alone : convention.rename? name = none) :
    name.head? ≠ some '_' ∧ convention.LeavesWords name := by
  have head : name.head? ≠ some '_' := by
    intro underscore
    obtain ⟨rest, rfl⟩ := List.head?_eq_some_iff.mp underscore
    rw [rename?, markMember?_eq_some, Option.or_eq_none_iff] at alone
    cases alone.2
  refine ⟨head, ?_⟩
  cases joins : convention.camelCase with
  | false => exact .apart joins name
  | true =>
      rw [rename?_of_head head, joins, if_pos rfl, camelCase?] at alone
      split at alone
      · exact leavesWords_of_joinWords (by simpa using alone)
      · next notCandidate =>
          exact leavesWords_of_isCandidate (Bool.eq_false_iff.mpr notCandidate)

/-- A new name is another name, it is not empty, and it is left alone.  The names that are left
alone are those without an underscore in front whose words are left. -/
theorem rename?_canonical (convention : Convention) (name : Text) :
    (∀ new, convention.rename? name = some new →
      new ≠ name ∧ new ≠ [] ∧ convention.rename? new = none) ∧
    (convention.rename? name = none ↔
      name.head? ≠ some '_' ∧ convention.LeavesWords name) := by
  constructor
  · intro new renamed
    refine ⟨ne_of_rename? renamed, ?_, ?_⟩
    · obtain ⟨first, head, -⟩ := head_of_rename? renamed
      rintro rfl
      cases head
    · have whole : convention.rename? (new.takeWhile fun _ => true) = none :=
        rename?_takeWhile rfl rfl (fun _ _ => rfl) renamed
      rwa [List.takeWhile_eq_self_iff.mpr fun _ _ => rfl] at whole
  · constructor
    · exact leavesWords_of_rename?_eq_none
    · rintro ⟨head, leaves⟩
      exact leaves.rename?_eq_none head

/-- A convention that marks members by a letter of its own. -/
def foreign : Convention where
  ignored := Index.ofList []
  memberMarker := ['f']
  argumentMarker := ['a']
  camelCase := true

/-- The letter that is put in front of an underscore is no marker here, so it gets a capital.  What
stands behind the marker is left. -/
theorem rename?_canonical_foreign :
    foreign.rename? "_item_count".toList = some "MItemCount".toList ∧
      foreign.rename? "MItemCount".toList = none ∧
      foreign.rename? "f_item_count".toList = some "f_ItemCount".toList ∧
      foreign.rename? "f_ItemCount".toList = none ∧
      foreign.LeavesWords "f_ItemCount".toList := by
  have member : foreign.rename? "_item_count".toList = some "MItemCount".toList := by cbv
  have marked : foreign.rename? "f_item_count".toList = some "f_ItemCount".toList := by cbv
  obtain ⟨-, -, settled⟩ := (rename?_canonical foreign _).1 _ member
  have leaves : foreign.LeavesWords (['f'] ++ '_' :: "ItemCount".toList) :=
    .joined (.inl rfl) (by decide) (by decide) (by decide)
  have alone : foreign.rename? "f_ItemCount".toList = none :=
    (rename?_canonical foreign _).2.mpr ⟨by decide, leaves⟩
  exact ⟨member, settled, marked, alone, leaves⟩

end Convention

end Recase
