import Recase.Character.Word
import Recase.Proofs.Capitals
import Mathlib

/-!
# Letters and marks in capitals

An upper-case form begins with a letter.  Behind that letter it may bring in a combining mark,
which belongs to no word.  There are eight such marks.
-/

namespace Recase

/-! ## Ranges as sets -/

theorem mem_of_testBit_codeSet {codes : List Nat} {code : Nat}
    (bit : (codeSet codes).testBit code = true) : code ∈ codes := by
  induction codes with
  | nil => simp [codeSet] at bit
  | cons first codes ih =>
      change (codeSet codes ||| 1 <<< first).testBit code = true at bit
      rw [Nat.testBit_or, Bool.or_eq_true, Nat.one_shiftLeft, Nat.testBit_two_pow] at bit
      rcases bit with later | same
      · exact List.mem_cons_of_mem first (ih later)
      · rw [of_decide_eq_true same]
        exact List.mem_cons_self

theorem testBit_of_and_eq {left right : Nat} {code : Nat} (inside : left &&& right = left)
    (bit : left.testBit code = true) : right.testBit code = true := by
  rw [← inside, Nat.testBit_and, Bool.and_eq_true] at bit
  exact bit.2

namespace CodeRange

/-- The codes of some ranges as the bits of a number. -/
def set (ranges : List CodeRange) : Nat :=
  ranges.foldr (fun range bits => bits ||| (2 ^ (range.last + 1 - range.first) - 1) <<< range.first)
    0

theorem exists_range_of_testBit_set {ranges : List CodeRange} {code : Nat}
    (bit : (set ranges).testBit code = true) :
    ∃ range ∈ ranges, range.first ≤ code ∧ code ≤ range.last := by
  induction ranges with
  | nil => simp [set] at bit
  | cons range ranges ih =>
      change (set ranges ||| (2 ^ (range.last + 1 - range.first) - 1) <<< range.first).testBit code =
        true at bit
      rw [Nat.testBit_or, Bool.or_eq_true] at bit
      rcases bit with later | first
      · obtain ⟨found, member, bounds⟩ := ih later
        exact ⟨found, List.mem_cons_of_mem range member, bounds⟩
      · refine ⟨range, List.mem_cons_self, ?_⟩
        rw [Nat.testBit_shiftLeft, Nat.testBit_two_pow_sub_one] at first
        simp only [Bool.and_eq_true, decide_eq_true_eq] at first
        omega

/-- Whether each range begins behind the beginning of the one in front of it. -/
def ascends : List CodeRange → Bool
  | first :: second :: ranges => first.first.ble second.first && ascends (second :: ranges)
  | _ => true

/-- A search through ascending ranges finds every code that lies in one of them. -/
theorem covers_of_mem {ranges : List CodeRange} (ascending : ascends ranges = true)
    {range : CodeRange} (member : range ∈ ranges) {code : Nat} (low : range.first ≤ code)
    (high : code ≤ range.last) : covers ranges code = true := by
  induction ranges with
  | nil => cases member
  | cons first ranges ih =>
      rcases List.mem_cons.mp member with rfl | later
      · simp [covers, low, high]
      · cases ranges with
        | nil => cases later
        | cons second ranges =>
            rw [ascends, Bool.and_eq_true, Nat.ble_eq] at ascending
            have found := ih ascending.2 later
            have behind : ¬ code < second.first := by
              intro before
              rw [covers, if_pos before] at found
              cases found
            have notBefore : ¬ code < first.first := by omega
            rw [covers, if_neg notBefore, found, Bool.or_true]

end CodeRange

namespace Character

/-! ## What upper-case forms bring in -/

/-- The combining marks that upper-case forms bring in and that belong to no word. -/
def marks : List Char :=
  ['\u0300', '\u0301', '\u0308', '\u030A', '\u030C', '\u0313', '\u0331', '\u0342']

theorem alphabeticRanges_ascend : CodeRange.ascends alphabeticRanges = true := by
  decide +kernel

theorem caseChanges_begin_with_letters :
    codeSet (caseChanges.filterMap fun change => change.2.head?) &&&
      CodeRange.set alphabeticRanges =
        codeSet (caseChanges.filterMap fun change => change.2.head?) := by
  decide +kernel

theorem caseChanges_letters_or_marks :
    codeSet (caseChanges.flatMap Prod.snd) &&&
      (CodeRange.set alphabeticRanges ||| codeSet (marks.map Char.toNat)) =
        codeSet (caseChanges.flatMap Prod.snd) := by
  decide +kernel

theorem isWordStart_of_testBit_set {code : Nat} (capital : isCapitalCode code = true)
    (bit : (CodeRange.set alphabeticRanges).testBit code = true) :
    isWordStart (Char.ofNat code) = true := by
  obtain ⟨range, member, low, high⟩ := CodeRange.exists_range_of_testBit_set bit
  have alphabetic : isAlphabetic (Char.ofNat code) = true := by
    rw [isAlphabetic, toNat_ofNat capital]
    exact CodeRange.covers_of_mem alphabeticRanges_ascend member low high
  rw [isWordStart, alphabetic, Bool.or_true]

/-- What begins an upper-case form is a letter, unless the character is its own form. -/
theorem eq_or_isWordStart_of_head_uppercase {c first : Char}
    (head : (uppercase c).head? = some first) : first = c ∨ isWordStart first = true := by
  rcases uppercase_eq_or c with same | ⟨codes, change, form⟩
  · left
    rw [same, List.head?_cons, Option.some.injEq] at head
    exact head.symm
  · right
    obtain ⟨nonempty, capitals⟩ := isCapitalCode_of_mem change
    obtain ⟨code, codes, rfl⟩ := List.exists_cons_of_ne_nil nonempty
    have begins : code ∈ caseChanges.filterMap fun change => change.2.head? :=
      List.mem_filterMap.mpr ⟨_, change, rfl⟩
    have letter := testBit_of_and_eq caseChanges_begin_with_letters (testBit_codeSet begins)
    have image : Char.ofNat code = first := by simpa [form] using head
    rw [← image]
    exact isWordStart_of_testBit_set (capitals code List.mem_cons_self) letter

/-- What begins the upper-case form of a word character is a word character. -/
theorem isWord_of_head_uppercase {c first : Char} (inWord : isWord c = true)
    (head : (uppercase c).head? = some first) : isWord first = true := by
  rcases eq_or_isWordStart_of_head_uppercase head with rfl | starts
  · exact inWord
  · exact isWord_of_isWordStart starts

/-- An upper-case form brings in word characters and marks only. -/
theorem isWord_or_mem_marks_of_mem_uppercase {c d : Char} (member : d ∈ uppercase c) :
    d = c ∨ isWord d = true ∨ d ∈ marks := by
  rcases uppercase_eq_or c with same | ⟨codes, change, form⟩
  · left
    simpa [same] using member
  · right
    rw [form] at member
    obtain ⟨code, codeMember, rfl⟩ := List.mem_map.mp member
    have capital := (isCapitalCode_of_mem change).2 code codeMember
    have broughtIn : code ∈ caseChanges.flatMap Prod.snd :=
      List.mem_flatMap.mpr ⟨_, change, codeMember⟩
    have bit := testBit_of_and_eq caseChanges_letters_or_marks (testBit_codeSet broughtIn)
    rw [Nat.testBit_or, Bool.or_eq_true] at bit
    rcases bit with letter | mark
    · exact .inl (isWord_of_isWordStart (isWordStart_of_testBit_set capital letter))
    · right
      obtain ⟨found, listed, same⟩ := List.mem_map.mp (mem_of_testBit_codeSet mark)
      rw [← same, Char.ofNat_toNat]
      exact listed

/-- Letters whose upper-case forms bring in the marks, one for each. -/
def markedLetters : List Char :=
  ['\u1FD2', '\u0390', '\u1E97', '\u1E98', '\u01F0', '\u1FE4', '\u1E96', '\u1FB6']

theorem mem_marks_iff {mark : Char} : mark ∈ marks ↔
    isWord mark = false ∧ ∃ letter, isWord letter = true ∧ mark ∈ uppercase letter := by
  constructor
  · intro listed
    have checked : (marks.all fun mark => !isWord mark && markedLetters.any fun letter =>
        isWord letter && (uppercase letter).contains mark) = true := by
      decide +kernel
    have found := List.all_eq_true.mp checked mark listed
    rw [Bool.and_eq_true, Bool.not_eq_true', List.any_eq_true] at found
    obtain ⟨noWord, letter, -, brings⟩ := found
    rw [Bool.and_eq_true, List.contains_iff_mem] at brings
    exact ⟨noWord, letter, brings⟩
  · rintro ⟨noWord, letter, inWord, member⟩
    rcases isWord_or_mem_marks_of_mem_uppercase member with rfl | word | listed
    · rw [noWord] at inWord
      cases inWord
    · rw [noWord] at word
      cases word
    · exact listed

end Character

end Recase
