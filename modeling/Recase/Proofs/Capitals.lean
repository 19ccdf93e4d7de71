import Recase.Character.Word
import Recase.Character.Uppercase

/-!
# Capitals

The upper-case mapping is given by tables.  This module lists the characters that it changes, with
what they become, and checks the list once for what the conventions rely on: the characters of an
upper-case form are their own upper-case forms, and no upper-case form brings in white space or an
ASCII character other than a capital.
-/

namespace Recase

/-- The codes of a stepped range. -/
def SteppedRange.codes (range : SteppedRange) : List Nat :=
  List.range' range.first ((range.last - range.first) / range.step + 1) range.step

theorem SteppedRange.mem_codes {range : SteppedRange} {code : Nat}
    (contained : range.contains code = true) : code ∈ range.codes := by
  simp only [contains, Bool.and_eq_true, decide_eq_true_eq, beq_iff_eq] at contained
  obtain ⟨⟨low, high⟩, aligned⟩ := contained
  apply List.mem_range'.mpr
  refine ⟨(code - range.first) / range.step, ?_, ?_⟩
  · exact Nat.lt_succ_of_le (Nat.div_le_div_right (by omega))
  · have division := Nat.div_add_mod (code - range.first) range.step
    omega

/-- The codes of a closed range. -/
def CodeRange.codes (range : CodeRange) : List Nat :=
  List.range' range.first (range.last - range.first + 1)

theorem CodeRange.mem_codes_of_covers {ranges : List CodeRange} {code : Nat}
    (covered : covers ranges code = true) : code ∈ ranges.flatMap codes := by
  induction ranges with
  | nil => simp [covers] at covered
  | cons range ranges ih =>
      simp only [covers] at covered
      split at covered
      · cases covered
      · next low =>
          simp only [Bool.or_eq_true, decide_eq_true_eq] at covered
          rw [List.flatMap_cons, List.mem_append]
          rcases covered with high | later
          · left
            refine List.mem_range'.mpr ⟨code - range.first, ?_, ?_⟩ <;> omega
          · right
            exact ih later

/-- A set of codes as the bits of a number.  Two sets are compared in one step. -/
def codeSet (codes : List Nat) : Nat :=
  codes.foldr (fun code bits => bits ||| 1 <<< code) 0

theorem testBit_codeSet {codes : List Nat} {code : Nat} (member : code ∈ codes) :
    (codeSet codes).testBit code = true := by
  induction codes with
  | nil => simp at member
  | cons first codes ih =>
      change (codeSet codes ||| 1 <<< first).testBit code = true
      rw [Nat.testBit_or]
      rcases List.mem_cons.mp member with rfl | member
      · simp
      · simp [ih member]

/-- Sets of codes without a common bit have no common member. -/
theorem not_mem_of_codeSet {left right : List Nat} {code : Nat}
    (disjoint : codeSet left &&& codeSet right = 0) (member : code ∈ left) : code ∉ right := by
  intro other
  have common := congrArg (Nat.testBit · code) disjoint
  simp [Nat.testBit_and, testBit_codeSet member, testBit_codeSet other] at common

namespace Character

/-- The codes that have an upper-case form other than themselves, with that form. -/
def caseChanges : List (Nat × List Nat) :=
  expansions ++ caseRuns.flatMap fun run =>
    run.range.codes.map fun code : Nat => (code, [((code : Int) + run.shift).toNat])

/-- Whether a code may occur in an upper-case form: as a capital of ASCII, or as a character beyond
ASCII. -/
def isCapitalCode (code : Nat) : Bool :=
  0x41 ≤ code && code ≤ 0x5A || 0x80 ≤ code && code < 0xD800 ||
    0xE000 ≤ code && code < 0x110000

theorem caseChanges_capital :
    (caseChanges.all fun change => !change.2.isEmpty && change.2.all isCapitalCode) = true := by
  decide +kernel

theorem caseChanges_settled :
    codeSet (caseChanges.map Prod.fst) &&& codeSet (caseChanges.flatMap Prod.snd) = 0 := by
  decide +kernel

theorem caseChanges_not_blank :
    codeSet (blankRanges.flatMap CodeRange.codes) &&&
      codeSet (caseChanges.flatMap Prod.snd) = 0 := by
  decide +kernel

/-- A code that is shifted is one of the changes, with the shifted code. -/
theorem shiftToUppercase_eq_or (runs : List CaseRun) (code : Nat) :
    shiftToUppercase runs code = code ∨
      (code, [shiftToUppercase runs code]) ∈ runs.flatMap fun run =>
        run.range.codes.map fun code : Nat => (code, [((code : Int) + run.shift).toNat]) := by
  induction runs with
  | nil => exact .inl rfl
  | cons run runs ih =>
      rw [shiftToUppercase, List.flatMap_cons]
      split
      · next contained =>
          right
          apply List.mem_append_left
          exact List.mem_map.mpr ⟨code, run.range.mem_codes contained, rfl⟩
      · rcases ih with same | member
        · exact .inl same
        · exact .inr (List.mem_append_right _ member)

/-- A character is its own upper-case form, or one of the changes tells the form. -/
theorem uppercase_eq_or (c : Char) :
    uppercase c = [c] ∨
      ∃ codes, (c.toNat, codes) ∈ caseChanges ∧ uppercase c = codes.map Char.ofNat := by
  unfold uppercase
  split
  · next codes found =>
      right
      obtain ⟨before, behind, split, _⟩ := List.lookup_eq_some_iff.mp found
      exact ⟨codes, List.mem_append_left _ (by simp [split]), rfl⟩
  · rcases shiftToUppercase_eq_or caseRuns c.toNat with same | member
    · left
      rw [same, Char.ofNat_toNat]
    · exact .inr ⟨_, List.mem_append_right _ member, rfl⟩

theorem toNat_ofNat {code : Nat} (capital : isCapitalCode code = true) :
    (Char.ofNat code).toNat = code := by
  have valid : code.isValidChar := by
    simp only [isCapitalCode, Bool.or_eq_true, Bool.and_eq_true, decide_eq_true_eq] at capital
    unfold Nat.isValidChar
    omega
  rw [Char.ofNat, dif_pos valid]
  rfl

theorem isCapitalCode_of_mem {key : Nat} {codes : List Nat} (change : (key, codes) ∈ caseChanges) :
    codes ≠ [] ∧ ∀ code ∈ codes, isCapitalCode code = true := by
  have checked := List.all_eq_true.mp caseChanges_capital _ change
  simpa using checked

theorem uppercase_ne_nil (c : Char) : uppercase c ≠ [] := by
  rcases uppercase_eq_or c with same | ⟨codes, change, form⟩
  · simp [same]
  · simpa [form] using (isCapitalCode_of_mem change).1

/-- What an upper-case form consists of is its own upper-case form. -/
theorem uppercase_of_mem {c d : Char} (member : d ∈ uppercase c) : uppercase d = [d] := by
  rcases uppercase_eq_or c with same | ⟨codes, change, form⟩
  · rw [same, List.mem_singleton] at member
    rw [member, same]
  · rw [form] at member
    obtain ⟨code, inForm, rfl⟩ := List.mem_map.mp member
    have back := toNat_ofNat ((isCapitalCode_of_mem change).2 code inForm)
    rcases uppercase_eq_or (Char.ofNat code) with same | ⟨_, other, _⟩
    · exact same
    · have key : code ∈ caseChanges.map Prod.fst := by
        rw [← back]
        exact List.mem_map_of_mem other
      have value : code ∈ caseChanges.flatMap Prod.snd :=
        List.mem_flatMap.mpr ⟨_, change, inForm⟩
      exact absurd value (not_mem_of_codeSet caseChanges_settled key)

theorem uppercase_of_head {c first : Char} (head : (uppercase c).head? = some first) :
    uppercase first = [first] :=
  uppercase_of_mem (List.mem_of_head? head)

/-- What an upper-case form may bring in: a capital of ASCII or a character beyond ASCII, and no
white space. -/
def IsCapitalForm (c : Char) : Prop :=
  (0x41 ≤ c.toNat ∧ c.toNat ≤ 0x5A ∨ 0x80 ≤ c.toNat) ∧ isBlank c = false

/-- An upper-case form brings in capitals of ASCII and characters beyond ASCII only, and no white
space. -/
theorem eq_or_of_mem_uppercase {c d : Char} (member : d ∈ uppercase c) :
    d = c ∨ IsCapitalForm d := by
  rcases uppercase_eq_or c with same | ⟨codes, change, form⟩
  · left
    simpa [same] using member
  · right
    rw [form] at member
    obtain ⟨code, codeMember, rfl⟩ := List.mem_map.mp member
    have capital := (isCapitalCode_of_mem change).2 code codeMember
    have back := toNat_ofNat capital
    constructor
    · simp only [isCapitalCode, Bool.or_eq_true, Bool.and_eq_true, decide_eq_true_eq] at capital
      omega
    · apply Bool.eq_false_iff.mpr
      intro blank
      have listed : (Char.ofNat code).toNat ∈ caseChanges.flatMap Prod.snd := by
        rw [back]
        exact List.mem_flatMap.mpr ⟨_, change, codeMember⟩
      exact not_mem_of_codeSet caseChanges_not_blank (CodeRange.mem_codes_of_covers blank) listed

end Character

end Recase
