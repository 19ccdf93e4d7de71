import Recase.Convention
import Recase.Proofs.Capitals
import Recase.Proofs.Cutting
import Mathlib.Data.List.TakeWhile

/-!
# New names

A name without underscores is never changed.  A new name holds at most the one underscore that
follows a marker, unless it is the old name with the letter of a member in front.  From this it
follows that a new name is not changed again, and that the words it falls into are not changed
either, should an upper-case form have brought in a character that belongs to no word.
-/

namespace Recase

open Character (IsCapitalForm)

/-! ## Capitals -/

/-- The character that begins a text, if any, is its own upper-case form. -/
def IsCapitalized (text : Text) : Prop :=
  ∀ first, text.head? = some first → Character.uppercase first = [first]

theorem capitalize_of_isCapitalized {text : Text} (capitalized : IsCapitalized text) :
    capitalize text = text := by
  cases text with
  | nil => rfl
  | cons first rest => rw [capitalize, capitalized first rfl, List.singleton_append]

theorem IsCapitalized.takeWhile {text : Text} (capitalized : IsCapitalized text)
    (isWord : Char → Bool) : IsCapitalized (text.takeWhile isWord) := by
  intro first head
  cases text with
  | nil => simp at head
  | cons c rest =>
      rw [List.takeWhile_cons] at head
      split at head
      · exact capitalized first (by simpa using head)
      · simp at head

theorem isCapitalized_flatMap (parts : List Text) : IsCapitalized (parts.flatMap capitalize) := by
  induction parts with
  | nil => simp [IsCapitalized]
  | cons part parts ih =>
      cases part with
      | nil => simpa [capitalize] using ih
      | cons c rest =>
          intro first head
          obtain ⟨form, forms, split⟩ := List.exists_cons_of_ne_nil (Character.uppercase_ne_nil c)
          refine Character.uppercase_of_head (c := c) ?_
          simpa [capitalize, split] using head

theorem mem_capitalize {word : Text} {d : Char} (member : d ∈ capitalize word) :
    d ∈ word ∨ IsCapitalForm d := by
  cases word with
  | nil => simp [capitalize] at member
  | cons first rest =>
      rw [capitalize, List.mem_append] at member
      rcases member with form | later
      · exact (Character.eq_or_of_mem_uppercase form).imp (fun same => by simp [same]) id
      · exact .inl (List.mem_cons_of_mem _ later)

theorem mem_flatMap_capitalize {parts : List Text} {d : Char}
    (member : d ∈ parts.flatMap capitalize) :
    (∃ part ∈ parts, d ∈ part) ∨ IsCapitalForm d := by
  obtain ⟨part, partMember, member⟩ := List.mem_flatMap.mp member
  exact (mem_capitalize member).imp (fun inside => ⟨part, partMember, inside⟩) id

theorem not_isCapitalForm_underscore : ¬ IsCapitalForm '_' := by
  rintro ⟨range, _⟩
  simp at range

theorem not_mem_capitalize {word : Text} (plain : '_' ∉ word) : '_' ∉ capitalize word := by
  intro member
  exact (mem_capitalize member).elim plain not_isCapitalForm_underscore

/-! ## Words -/

theorem words_of_not_mem {name : Text} (plain : '_' ∉ name) : words name = [name] := by
  refine Text.cutAt_of_not_infix fun inside => plain ?_
  exact inside.subset (by simp)

theorem words_append {head : Text} (plain : '_' ∉ head) (rest : Text) :
    words (head ++ '_' :: rest) = head :: words rest := by
  have absent : ¬ ['_'] <:+: head := fun inside => plain (inside.subset (by simp))
  exact Text.cutAt_append (Text.isUnbordered_singleton '_') (by simp) absent rest

theorem not_mem_of_mem_words {name word : Text} (member : word ∈ words name) : '_' ∉ word := by
  intro inside
  obtain ⟨before, behind, split⟩ := List.append_of_mem inside
  exact Text.not_infix_of_mem_cutAt (by simp) member ⟨before, behind, by simp [split]⟩

theorem mem_of_mem_words {name word : Text} {c : Char} (member : word ∈ words name)
    (inside : c ∈ word) : c ∈ name := by
  have part := Text.infix_of_mem_intercalate ['_'] member
  rw [words, Text.intercalate_cutAt] at part
  exact part.subset inside

theorem not_mem_flatMap_words (name : Text) : '_' ∉ (words name).flatMap capitalize := by
  intro member
  obtain ⟨word, wordMember, inside⟩ := List.mem_flatMap.mp member
  exact not_mem_capitalize (not_mem_of_mem_words wordMember) inside

namespace Convention

variable {convention : Convention} {name new : Text}

/-! ## Names in camel case -/

/-- How a name becomes one in camel case.  A marker stays in front, and any other word gets a
capital. -/
inductive Joins (convention : Convention) : Text → Text → Prop where
  | behindMarker {head : Text} (plain : '_' ∉ head)
      (marker : head = convention.memberMarker ∨ head = convention.argumentMarker) (rest : Text) :
      Joins convention (head ++ '_' :: rest) (head ++ '_' :: (words rest).flatMap capitalize)
  | capitals {head : Text} (plain : '_' ∉ head) (rest : Text) :
      Joins convention (head ++ '_' :: rest) (capitalize head ++ (words rest).flatMap capitalize)

theorem camelCase?_eq_none_of_not_mem (plain : '_' ∉ name) :
    convention.camelCase? name = none := by
  have notCandidate : convention.isCandidate name = false := by
    cases name with
    | nil => rfl
    | cons first rest =>
        have absent : (first :: rest).contains '_' = false := by simpa using plain
        rw [isCandidate, absent]
        rfl
  rw [camelCase?, notCandidate]
  rfl

theorem joins_of_camelCase? (found : convention.camelCase? name = some new) :
    convention.Joins name new := by
  by_cases underscore : '_' ∈ name
  · obtain ⟨head, rest, rfl, plain⟩ := List.eq_append_cons_of_mem underscore
    have joined : convention.head head ++ (words rest).flatMap capitalize = new := by
      simp only [camelCase?, words_append plain, joinWords, Option.ite_none_right_eq_some,
        Option.ite_none_left_eq_some, Option.some.injEq] at found
      exact found.2.2
    rw [← joined, Convention.head]
    split
    · next marker =>
        rw [List.append_assoc, List.singleton_append]
        exact .behindMarker plain marker rest
    · exact .capitals plain rest
  · rw [camelCase?_eq_none_of_not_mem underscore] at found
    cases found

/-! ## Names that are left alone -/

theorem markMember?_eq_none (plain : name.head? ≠ some '_') : markMember? name = none := by
  unfold markMember?
  split
  · simp at plain
  · rfl

theorem rename?_of_head (plain : name.head? ≠ some '_') :
    convention.rename? name =
      if convention.camelCase then convention.camelCase? name else none := by
  simp only [rename?, markMember?_eq_none plain, Option.getD_none, Option.or_none]

theorem rename?_of_not_mem (plain : '_' ∉ name) : convention.rename? name = none := by
  have head : name.head? ≠ some '_' := fun first => plain (List.mem_of_head? first)
  rw [rename?_of_head head, camelCase?_eq_none_of_not_mem plain, ite_self]

/-- A name in camel case behind a marker is left alone. -/
theorem rename?_behindMarker {head tail : Text} (nonempty : head ≠ []) (plainHead : '_' ∉ head)
    (marker : head = convention.memberMarker ∨ head = convention.argumentMarker)
    (plainTail : '_' ∉ tail) (capitalized : IsCapitalized tail) :
    convention.rename? (head ++ '_' :: tail) = none := by
  have first : (head ++ '_' :: tail).head? ≠ some '_' := by
    obtain ⟨c, rest, rfl⟩ := List.exists_cons_of_ne_nil nonempty
    simp only [List.mem_cons, not_or] at plainHead
    simpa using Ne.symm plainHead.1
  have same : convention.joinWords (words (head ++ '_' :: tail)) = head ++ '_' :: tail := by
    rw [words_append plainHead, words_of_not_mem plainTail, joinWords, Convention.head,
      if_pos marker, List.flatMap_singleton, capitalize_of_isCapitalized capitalized]
    simp
  have unchanged : convention.camelCase? (head ++ '_' :: tail) = none := by
    rw [camelCase?]
    split
    · exact if_pos same
    · rfl
  rw [rename?_of_head first, unchanged, ite_self]

/-! ## Names that change -/

/-- A name with the letter of a member in front, if it begins with an underscore. -/
theorem markMember?_eq_some (rest : Text) : markMember? ('_' :: rest) = some ('m' :: '_' :: rest) :=
  rfl

/-- A changed name is the old one with the letter of a member in front, or it is in camel case.  It
was given the letter before that if it began with an underscore. -/
theorem rename?_cases (renamed : convention.rename? name = some new) :
    (name.head? = some '_' ∧ new = 'm' :: name ∧ convention.rename? new = none) ∨
      ∃ marked, convention.Joins marked new ∧ marked.head? ≠ some '_' ∧
        (marked = name ∨ marked = 'm' :: name) := by
  by_cases first : name.head? = some '_'
  · obtain ⟨rest, rfl⟩ := List.head?_eq_some_iff.mp first
    have marked : ('m' :: '_' :: rest).head? ≠ some '_' := by simp
    simp only [rename?, markMember?_eq_some, Option.getD_some] at renamed
    cases camel : (if convention.camelCase then
        convention.camelCase? ('m' :: '_' :: rest) else none) with
    | none =>
        left
        rw [camel, Option.none_or, Option.some.injEq] at renamed
        subst renamed
        refine ⟨first, rfl, ?_⟩
        rw [rename?_of_head marked, camel]
    | some joined =>
        right
        rw [camel, Option.some_or, Option.some.injEq] at renamed
        subst renamed
        have found := (Option.ite_none_right_eq_some.mp camel).2
        exact ⟨_, joins_of_camelCase? found, marked, .inr rfl⟩
  · right
    rw [rename?_of_head first] at renamed
    have found := (Option.ite_none_right_eq_some.mp renamed).2
    exact ⟨name, joins_of_camelCase? found, first, .inl rfl⟩

theorem Joins.mem (joins : convention.Joins name new) {d : Char} (member : d ∈ new) :
    d ∈ name ∨ IsCapitalForm d := by
  have ofTail {rest : Text} (inside : d ∈ (words rest).flatMap capitalize) :
      d ∈ rest ∨ IsCapitalForm d :=
    (mem_flatMap_capitalize inside).imp
      (fun ⟨_, wordMember, wordInside⟩ => mem_of_mem_words wordMember wordInside) id
  cases joins with
  | behindMarker plain marker rest =>
      rw [List.mem_append, List.mem_cons] at member
      rcases member with inside | rfl | inside
      · exact .inl (List.mem_append_left _ inside)
      · simp
      · exact (ofTail inside).imp (fun inRest => by simp [inRest]) id
  | capitals plain rest =>
      rcases List.mem_append.mp member with inside | inside
      · exact (mem_capitalize inside).imp (fun inHead => by simp [inHead]) id
      · exact (ofTail inside).imp (fun inRest => by simp [inRest]) id

/-- A name in camel case has one underscore at most. -/
theorem Joins.count_underscore (joins : convention.Joins name new) : new.count '_' ≤ 1 := by
  cases joins with
  | behindMarker plain marker rest =>
      rw [List.count_append, List.count_cons_self, List.count_eq_zero_of_not_mem plain,
        List.count_eq_zero_of_not_mem (not_mem_flatMap_words rest)]
  | capitals plain rest =>
      rw [List.count_append, List.count_eq_zero_of_not_mem (not_mem_capitalize plain),
        List.count_eq_zero_of_not_mem (not_mem_flatMap_words rest)]
      exact Nat.zero_le 1

/-- A name in camel case begins with the character that begins the old name, if a marker stays in
front, and else with the upper-case form of that character. -/
theorem Joins.exists_head (joins : convention.Joins name new) (plain : name.head? ≠ some '_') :
    ∃ c first rest, name.head? = some c ∧ new = first :: rest ∧
      (first = c ∧ '_' ∈ new ∨ (Character.uppercase c).head? = some first) := by
  cases joins with
  | @behindMarker head plainHead marker rest =>
      cases head with
      | nil => exact absurd rfl plain
      | cons c head => exact ⟨c, c, _, rfl, rfl, .inl ⟨rfl, by simp⟩⟩
  | @capitals head plainHead rest =>
      cases head with
      | nil => exact absurd rfl plain
      | cons c head =>
          obtain ⟨first, form, split⟩ := List.exists_cons_of_ne_nil (Character.uppercase_ne_nil c)
          refine ⟨c, first, form ++ head ++ (words rest).flatMap capitalize, rfl, ?_, .inr ?_⟩
          · rw [capitalize, split, List.cons_append, List.cons_append]
          · rw [split, List.head?_cons]

/-- A name in camel case begins as the old name does, or with a capital. -/
theorem Joins.head (joins : convention.Joins name new) (plain : name.head? ≠ some '_') :
    ∃ first, new.head? = some first ∧ (name.head? = some first ∨ IsCapitalForm first) ∧
      (IsCapitalized new ∨ '_' ∈ new) := by
  obtain ⟨c, first, rest, head, rfl, ⟨rfl, underscore⟩ | capital⟩ := joins.exists_head plain
  · exact ⟨first, rfl, .inl head, .inr underscore⟩
  · refine ⟨first, rfl, ?_, .inl ?_⟩
    · rcases Character.eq_or_of_mem_uppercase (List.mem_of_head? capital) with rfl | form
      · exact .inl head
      · exact .inr form
    · intro other same
      cases same
      exact Character.uppercase_of_head capital

theorem mem_of_rename? (renamed : convention.rename? name = some new) {d : Char}
    (member : d ∈ new) : d ∈ name ∨ d = 'm' ∨ IsCapitalForm d := by
  rcases rename?_cases renamed with ⟨_, rfl, _⟩ | ⟨marked, joins, _, equal⟩
  · rcases List.mem_cons.mp member with rfl | inName
    · exact .inr (.inl rfl)
    · exact .inl inName
  · rcases joins.mem member with inMarked | capital
    · rcases equal with rfl | rfl
      · exact .inl inMarked
      · rcases List.mem_cons.mp inMarked with rfl | inName
        · exact .inr (.inl rfl)
        · exact .inl inName
    · exact .inr (.inr capital)

theorem head_of_rename? (renamed : convention.rename? name = some new) :
    ∃ first, new.head? = some first ∧
      ((name.head? = some first ∧ first ≠ '_') ∨ first = 'm' ∨ IsCapitalForm first) := by
  rcases rename?_cases renamed with ⟨_, rfl, _⟩ | ⟨marked, joins, plain, equal⟩
  · exact ⟨'m', rfl, .inr (.inl rfl)⟩
  · obtain ⟨first, head, origin, _⟩ := joins.head plain
    refine ⟨first, head, ?_⟩
    rcases origin with sameHead | capital
    · rcases equal with rfl | rfl
      · refine .inl ⟨sameHead, ?_⟩
        rintro rfl
        exact plain sameHead
      · exact .inr (.inl (Option.some.inj sameHead).symm)
    · exact .inr (.inr capital)

section Marked

variable {marked : Text} (equal : marked = name ∨ marked = 'm' :: name)

include equal in
/-- What holds of the characters of a name and of the letter of a member holds of the characters of
the marked name. -/
theorem forall_mem_marked {P : Char → Prop} (letter : P 'm') (all : ∀ c ∈ name, P c) :
    ∀ c ∈ marked, P c := by
  rcases equal with rfl | rfl
  · exact all
  · exact List.forall_mem_cons.mpr ⟨letter, all⟩

include equal in
theorem forall_head_marked {P : Char → Prop} (letter : P 'm')
    (starts : ∀ c, name.head? = some c → P c) : ∀ c, marked.head? = some c → P c := by
  rcases equal with rfl | rfl
  · exact starts
  · intro c head
    cases head
    exact letter

end Marked

/-- A new name without underscores is the only kind of name that may begin as no name does, namely
with a capital that is no letter. -/
theorem head_or_not_mem_of_rename? {isStart : Char → Bool} (letter : isStart 'm' = true)
    (starts : ∀ c, name.head? = some c → isStart c = true)
    (renamed : convention.rename? name = some new) :
    (∀ c, new.head? = some c → isStart c = true) ∨ '_' ∉ new := by
  rcases rename?_cases renamed with ⟨_, rfl, _⟩ | ⟨marked, joins, plainMarked, equal⟩
  · exact .inl (forall_head_marked (.inr rfl) letter starts)
  · cases joins with
    | @behindMarker head plain marker rest =>
        left
        cases head with
        | nil => simp at plainMarked
        | cons d head =>
            intro c same
            exact forall_head_marked equal letter starts c same
    | @capitals head plain rest =>
        right
        intro inside
        rcases List.mem_append.mp inside with first | later
        · exact not_mem_capitalize plain first
        · exact not_mem_flatMap_words rest later

theorem uppercase_of_rename?_singleton {c : Char} (renamed : convention.rename? name = some [c]) :
    Character.uppercase c = [c] := by
  rcases rename?_cases renamed with ⟨first, equal, _⟩ | ⟨marked, joins, plain, _⟩
  · obtain ⟨rfl, rfl⟩ := List.cons.inj equal
    simp at first
  · obtain ⟨first, head, origin, capitalized | underscore⟩ := joins.head plain
    · exact capitalized c rfl
    · have same : c = '_' := (List.mem_singleton.mp underscore).symm
      subst same
      obtain rfl := Option.some.inj head
      exact (origin.elim plain not_isCapitalForm_underscore).elim

/-- Several underscores at the end of a new name are already there in the old one. -/
theorem replicate_suffix_of_rename? (renamed : convention.rename? name = some new) {count : Nat}
    (several : 1 < count) (ends : List.replicate count '_' <:+ new) :
    List.replicate count '_' <:+ name := by
  rcases rename?_cases renamed with ⟨_, rfl, _⟩ | ⟨marked, joins, _, _⟩
  · rcases List.suffix_cons_iff.mp ends with whole | shorter
    · obtain ⟨count, rfl⟩ := Nat.exists_eq_add_of_lt several
      rw [List.replicate_succ] at whole
      simp at whole
    · exact shorter
  · have fewer := ends.sublist.count_le '_'
    have most := joins.count_underscore
    rw [List.count_replicate_self] at fewer
    omega

section Words

variable {isWord : Char → Bool} (letter : isWord 'm' = true) (underscore : isWord '_' = true)

include letter underscore in
/-- The word that begins a new name is left alone.  It is the whole name unless a capital has
brought in a character that belongs to no word. -/
theorem rename?_takeWhile (allWord : ∀ c ∈ name, isWord c = true)
    (renamed : convention.rename? name = some new) :
    convention.rename? (new.takeWhile isWord) = none := by
  rcases rename?_cases renamed with ⟨_, rfl, final⟩ | ⟨marked, joins, plainMarked, equal⟩
  · have newWord : ∀ c ∈ 'm' :: name, isWord c = true :=
      forall_mem_marked (.inr rfl) letter allWord
    rwa [List.takeWhile_eq_self_iff.mpr newWord]
  · have markedWord : ∀ c ∈ marked, isWord c = true := forall_mem_marked equal letter allWord
    cases joins with
    | @behindMarker head plain marker rest =>
        have nonempty : head ≠ [] := by
          rintro rfl
          simp at plainMarked
        rw [List.takeWhile_append_of_pos fun c member => markedWord c (by simp [member]),
          List.takeWhile_cons_of_pos underscore]
        refine rename?_behindMarker nonempty plain marker ?_
          ((isCapitalized_flatMap _).takeWhile isWord)
        exact fun inside => not_mem_flatMap_words rest ((List.takeWhile_prefix _).subset inside)
    | @capitals head plain rest =>
        refine rename?_of_not_mem fun inside => ?_
        rcases List.mem_append.mp ((List.takeWhile_prefix _).subset inside) with first | later
        · exact not_mem_capitalize plain first
        · exact not_mem_flatMap_words rest later

include letter underscore in
theorem not_mem_dropWhile (allWord : ∀ c ∈ name, isWord c = true)
    (renamed : convention.rename? name = some new) : '_' ∉ new.dropWhile isWord := by
  rcases rename?_cases renamed with ⟨_, rfl, _⟩ | ⟨marked, joins, _, equal⟩
  · have newWord : ∀ c ∈ 'm' :: name, isWord c = true :=
      forall_mem_marked (.inr rfl) letter allWord
    simp [List.dropWhile_eq_nil_iff.mpr newWord]
  · have markedWord : ∀ c ∈ marked, isWord c = true := forall_mem_marked equal letter allWord
    cases joins with
    | @behindMarker head plain marker rest =>
        rw [List.dropWhile_append_of_pos fun c member => markedWord c (by simp [member]),
          List.dropWhile_cons_of_pos underscore]
        exact fun inside => not_mem_flatMap_words rest ((List.dropWhile_suffix _).subset inside)
    | @capitals head plain rest =>
        intro inside
        rcases List.mem_append.mp ((List.dropWhile_suffix _).subset inside) with first | later
        · exact not_mem_capitalize plain first
        · exact not_mem_flatMap_words rest later

end Words

end Convention

end Recase
