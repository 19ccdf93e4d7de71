import Recase.Proofs.Marking
import Recase.Proofs.Numerals
import Recase.Proofs.Placeholders
import Recase.Proofs.Visits
import Mathlib

/-!
# New names of identifiers

Capitals are upper-case forms, and some of these take more than one character.  Most of them are
letters throughout.  There are letters, however, which have no capital of their own and are spelt
as a capital with combining marks, which belong to no word.  A word that is to get such a capital
breaks the new name into several words, so that it is no identifier any more.  All other new names
of identifiers are identifiers.
-/

namespace Recase

open Character (isWord isWordStart isIdentifier marks)

namespace Character

/-! ## Letters without a capital of their own -/

/-- The letters whose upper-case forms bring in marks. -/
def brokenLetters : List Char :=
  ['\u01F0', '\u0390', '\u03B0', '\u1E96', '\u1E97', '\u1E98', '\u1E99', '\u1F50', '\u1F52',
    '\u1F54', '\u1F56', '\u1FB6', '\u1FB7', '\u1FC6', '\u1FC7', '\u1FD2', '\u1FD3', '\u1FD6',
    '\u1FD7', '\u1FE2', '\u1FE3', '\u1FE4', '\u1FE6', '\u1FE7', '\u1FF6', '\u1FF7']

theorem expansions_broken :
    (expansions.all fun change => brokenLetters.contains (Char.ofNat change.1) ||
      (change.2.map Char.ofNat).all (!marks.contains ·)) = true := by
  decide +kernel

theorem brokenLetters_bring_marks :
    (brokenLetters.all fun letter => (uppercase letter).any (!isWord ·)) = true := by
  decide +kernel

theorem uppercase_eq_singleton_or (c : Char) :
    (∃ d, uppercase c = [d]) ∨
      ∃ codes, (c.toNat, codes) ∈ expansions ∧ uppercase c = codes.map Char.ofNat := by
  unfold uppercase
  split
  · next codes found =>
      right
      obtain ⟨before, behind, split, -⟩ := List.lookup_eq_some_iff.mp found
      exact ⟨codes, by simp [split], rfl⟩
  · exact .inl ⟨_, rfl⟩

/-- The upper-case form of a word character consists of word characters, unless the character is a
broken letter. -/
theorem forall_isWord_uppercase_iff {c : Char} (inWord : isWord c = true) :
    (∀ d ∈ uppercase c, isWord d = true) ↔ c ∉ brokenLetters := by
  constructor
  · intro allWord broken
    have brings := List.all_eq_true.mp brokenLetters_bring_marks c broken
    obtain ⟨d, member, noWord⟩ := List.any_eq_true.mp brings
    rw [allWord d member] at noWord
    cases noWord
  · intro whole d member
    rcases uppercase_eq_singleton_or c with ⟨form, single⟩ | ⟨codes, change, form⟩
    · rw [single, List.mem_singleton] at member
      rw [member]
      exact isWord_of_head_uppercase inWord (by rw [single, List.head?_cons])
    · have checked := List.all_eq_true.mp expansions_broken _ change
      rw [Char.ofNat_toNat, ← form, Bool.or_eq_true, List.contains_iff_mem,
        List.all_eq_true] at checked
      have unmarked : d ∉ marks := by simpa using checked.resolve_left whole d member
      rcases isWord_or_mem_marks_of_mem_uppercase member with rfl | word | mark
      · exact inWord
      · exact word
      · exact absurd mark unmarked

theorem isWord_eq_false_of_mem_marks {mark : Char} (listed : mark ∈ marks) : isWord mark = false :=
  (mem_marks_iff.mp listed).1

end Character

open Character (brokenLetters)

/-- A word with a capital is a word again, unless it begins with a broken letter. -/
theorem forall_isWord_capitalize_iff {word : Text} (allWord : ∀ c ∈ word, isWord c = true) :
    (∀ d ∈ capitalize word, isWord d = true) ↔
      ∀ first, word.head? = some first → first ∉ brokenLetters := by
  cases word with
  | nil => simp [capitalize]
  | cons c rest =>
      have inWord : isWord c = true := allWord c List.mem_cons_self
      simp only [capitalize, List.forall_mem_append, Character.forall_isWord_uppercase_iff inWord,
        List.head?_cons, Option.some.injEq, forall_eq']
      exact and_iff_left fun d member => allWord d (List.mem_cons_of_mem c member)

namespace Convention

variable {convention : Convention} {name new : Text}

/-! ## Words that get capitals -/

/-- The words of a name that get capitals: all but a marker in front, once the name is marked. -/
def capitalWords (convention : Convention) (name : Text) : List Text :=
  match words (markName name) with
  | [] => []
  | first :: rest =>
    if first = convention.memberMarker ∨ first = convention.argumentMarker then rest
    else first :: rest

theorem mem_words_of_mem_capitalWords {word : Text} (member : word ∈ convention.capitalWords name) :
    word ∈ words (markName name) := by
  rw [capitalWords] at member
  split at member
  · cases member
  · next first rest split =>
      rw [split]
      split at member
      · exact List.mem_cons_of_mem first member
      · exact member

theorem exists_joinWords_eq (convention : Convention) (name : Text) :
    ∃ front : Text, (∀ c ∈ front, c ∈ markName name ∨ c = '_') ∧
      convention.joinWords (words (markName name)) =
        front ++ (convention.capitalWords name).flatMap capitalize := by
  rw [capitalWords]
  cases split : words (markName name) with
  | nil => exact ⟨[], by simp, rfl⟩
  | cons first rest =>
      rw [joinWords, Convention.head]
      by_cases marker : first = convention.memberMarker ∨ first = convention.argumentMarker
      · rw [if_pos marker]
        simp only [if_pos marker]
        refine ⟨first ++ ['_'], ?_, rfl⟩
        intro c member
        rcases List.mem_append.mp member with inside | underscore
        · have listed : first ∈ words (markName name) := split ▸ List.mem_cons_self
          exact .inl (mem_of_mem_words listed inside)
        · exact .inr (List.mem_singleton.mp underscore)
      · rw [if_neg marker]
        simp only [if_neg marker]
        exact ⟨[], by simp, rfl⟩

theorem eq_joinWords_of_rename? (renamed : convention.rename? name = some new) :
    new = 'm' :: name ∨ new = convention.joinWords (words (markName name)) := by
  cases camel : (if convention.camelCase then
      convention.camelCase? ((markMember? name).getD name) else none) with
  | none =>
      left
      simp only [rename?, camel, Option.none_or] at renamed
      unfold markMember? at renamed
      split at renamed
      · exact (Option.some.inj renamed).symm
      · cases renamed
  | some joined =>
      right
      simp only [rename?, camel, Option.some_or, Option.some.injEq] at renamed
      have found := (Option.ite_none_right_eq_some.mp camel).2
      rw [camelCase?, Option.ite_none_right_eq_some, Option.ite_none_left_eq_some] at found
      rw [← renamed, ← Option.some.inj found.2.2, markName]

/-! ## Words again -/

/-- Joined words are one word again, unless one of them gets the capital of a broken letter. -/
theorem forall_isWord_joinWords_iff (allWord : ∀ c ∈ name, isWord c = true) :
    (∀ d ∈ convention.joinWords (words (markName name)), isWord d = true) ↔
      ∀ word ∈ convention.capitalWords name, ∀ first, word.head? = some first →
        first ∉ brokenLetters := by
  have allMarked : ∀ c ∈ markName name, isWord c = true :=
    forall_mem_marked (markName_eq_or name) (by decide) allWord
  obtain ⟨front, origin, split⟩ := convention.exists_joinWords_eq name
  have frontWord : ∀ c ∈ front, isWord c = true := by
    intro c member
    rcases origin c member with inside | rfl
    · exact allMarked c inside
    · decide
  have wholes (word : Text) (member : word ∈ convention.capitalWords name) :
      (∀ d ∈ capitalize word, isWord d = true) ↔
        ∀ first, word.head? = some first → first ∉ brokenLetters :=
    forall_isWord_capitalize_iff fun c inside =>
      allMarked c (mem_of_mem_words (mem_words_of_mem_capitalWords member) inside)
  rw [split, List.forall_mem_append, and_iff_right frontWord, List.forall_mem_flatMap]
  exact forall₂_congr wholes

theorem exists_isWordStart_of_rename? (identifier : isIdentifier name = true)
    (renamed : convention.rename? name = some new) :
    ∃ first rest, new = first :: rest ∧ isWordStart first = true := by
  have starts : ∀ c, name.head? = some c → isWordStart c = true := by
    intro c head
    obtain ⟨rest, rfl⟩ := List.head?_eq_some_iff.mp head
    exact (Bool.and_eq_true_iff.mp identifier).1
  rcases rename?_cases renamed with ⟨-, rfl, -⟩ | ⟨marked, joins, plain, equal⟩
  · exact ⟨'m', name, rfl, by decide⟩
  · have markedStarts : ∀ c, marked.head? = some c → isWordStart c = true :=
      forall_head_marked equal (by decide) starts
    obtain ⟨c, first, rest, head, rfl, ⟨rfl, -⟩ | capital⟩ := joins.exists_head plain
    · exact ⟨first, rest, rfl, markedStarts first head⟩
    · refine ⟨first, rest, rfl, ?_⟩
      rcases Character.eq_or_isWordStart_of_head_uppercase capital with rfl | letter
      · exact markedStarts first head
      · exact letter

theorem isIdentifier_cons_iff {first : Char} {rest : Text} (starts : isWordStart first = true) :
    isIdentifier (first :: rest) = true ↔ ∀ c ∈ first :: rest, isWord c = true := by
  rw [isIdentifier, starts, Bool.true_and, List.all_eq_true, List.forall_mem_cons,
    and_iff_right (Character.isWord_of_isWordStart starts)]

/-- The new name of an identifier begins as an identifier, and goes on with word characters and
marks.  It is an identifier if and only if no mark is among them, that is, if none of its words had
to get the capital of a broken letter.  Then, and only then, it is a longest run of word characters
wherever the old name was one. -/
theorem new_identifier_tfae (convention : Convention) (identifier : isIdentifier name = true)
    (renamed : convention.rename? name = some new) :
    (∃ first rest, new = first :: rest ∧ isWordStart first = true ∧
      ∀ c ∈ rest, isWord c = true ∨ c ∈ marks) ∧
    [isIdentifier new = true,
      ∀ mark ∈ marks, mark ∉ new,
      ∀ before behind, IsRun isWord before name behind → IsRun isWord before new behind,
      new = 'm' :: name ∨ ∀ word ∈ convention.capitalWords name,
        ∀ first, word.head? = some first → first ∉ brokenLetters].TFAE := by
  have allWord : ∀ c ∈ name, isWord c = true :=
    fun c member => Character.isWord_of_isIdentifier identifier member
  have letters := isWord_or_mem_marks_of_rename? allWord renamed
  obtain ⟨first, rest, rfl, starts⟩ := exists_isWordStart_of_rename? identifier renamed
  refine ⟨⟨first, rest, rfl, starts, fun c member =>
    letters c (List.mem_cons_of_mem first member)⟩, ?_⟩
  rw [isIdentifier_cons_iff starts]
  tfae_have 1 → 3 := by
    intro newWord before behind run
    exact ⟨List.cons_ne_nil first rest, newWord, run.begins, run.ends⟩
  tfae_have 3 → 2 := by
    intro anywhere mark listed inside
    have nonempty : name ≠ [] := by
      rintro rfl
      cases identifier
    have word := (anywhere [] [] (.alone nonempty allWord)).inWord mark inside
    rw [Character.isWord_eq_false_of_mem_marks listed] at word
    cases word
  tfae_have 2 → 1 := by
    intro unmarked c member
    exact (letters c member).resolve_right fun listed => unmarked c listed member
  tfae_have 1 ↔ 4 := by
    rcases eq_joinWords_of_rename? renamed with marked | joined
    · have newWord : ∀ c ∈ first :: rest, isWord c = true := by
        rw [marked, List.forall_mem_cons]
        exact ⟨by decide, allWord⟩
      exact iff_of_true newWord (.inl marked)
    · rw [← forall_isWord_joinWords_iff allWord, ← joined]
      refine (or_iff_right_of_imp fun marked => ?_).symm
      rw [marked, List.forall_mem_cons]
      exact ⟨by decide, allWord⟩
  tfae_finish

end Convention

namespace Config

/-- The capitals of these letters take two characters each, all of them letters. -/
theorem new_identifier_letters :
    isIdentifier "ß_ŉ".toList = true ∧
      (unfiltered [] .lexical).rename? "ß_ŉ".toList = some "SSʼN".toList ∧
      isIdentifier "SSʼN".toList = true := by
  have identifier : isIdentifier "ß_ŉ".toList = true := by decide
  have renamed : (unfiltered [] .lexical).rename? "ß_ŉ".toList = some "SSʼN".toList := by cbv
  have words : (unfiltered [] .lexical).capitalWords "ß_ŉ".toList = [['ß'], ['ŉ']] := by cbv
  obtain ⟨-, equivalent⟩ :=
    Convention.new_identifier_tfae (unfiltered [] .lexical).toConvention identifier renamed
  refine ⟨identifier, renamed, (equivalent.out 0 3).mpr (Or.inr ?_)⟩
  rw [words]
  simp [brokenLetters]

/-- The capital of a j with a caron is a J with a combining caron behind it.  The new name of an
identifier is no identifier then, and it falls into two words. -/
theorem new_identifier_caron :
    (unfiltered [] .lexical).validate = .ok () ∧ isIdentifier "ǰ_x".toList = true ∧
      (unfiltered [] .lexical).rename? "ǰ_x".toList = some ['J', '\u030C', 'X'] ∧
      isIdentifier ['J', '\u030C', 'X'] = false ∧
      IsRun isWord [] "ǰ_x".toList [] ∧ ¬ IsRun isWord [] ['J', '\u030C', 'X'] [] ∧
      Mode.lexical.visited ['J', '\u030C', 'X'] = [['J'], ['X']] := by
  have identifier : isIdentifier "ǰ_x".toList = true := by decide
  have run : IsRun isWord [] "ǰ_x".toList [] :=
    .alone (by decide) fun c member => Character.isWord_of_isIdentifier identifier member
  refine ⟨validate_unfiltered [] .lexical, identifier, by cbv, by decide, run, ?_, by cbv⟩
  intro unbroken
  have word := unbroken.inWord '\u030C' (by decide)
  exact absurd word (by decide)

end Config

end Recase
