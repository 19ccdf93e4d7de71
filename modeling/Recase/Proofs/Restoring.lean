import Recase.Config
import Recase.Proofs.Guarding
import Recase.Proofs.Tokens
import Mathlib

/-!
# Lexing around separators

A separator is inert if it takes no part in how a text falls into tokens, as long as it stands
within a comment or a literal: its placeholder then does as well.  Lexing with the placeholders in
place and restoring the separators of each token gives the same as lexing the restored text.  The
one place within a literal where this fails is the delimiter of a raw string, which the placeholder
may be part of and the separator may not.
-/

namespace Recase

open Character (isWord isWordStart isBlank)
open Token (tokensFrom scan next)

/-! ## Inert separators -/

namespace Guard

/-- The characters that close a comment, a literal or a header name, end a line, or open the body
of a raw string. -/
def closers : List Char :=
  ['\n', '\r', '"', '\'', '*', '/', '>', '(', ')']

/-- A separator that may stand within a comment or a literal without an effect on its extent: it
closes nothing, escapes nothing behind it, separates no digits and is part of no delimiter. -/
structure Inert (guard : Guard) : Prop where
  plain : ∀ c ∈ guard.separator, c ∉ closers
  last : guard.separator.getLast? ≠ some '\\'
  first : guard.separator.head?.any Char.isAlphanum = false
  refused : Lexeme.isDelimiter guard.separator = false

variable {guard : Guard}

namespace Inert

variable (inert : guard.Inert)

include inert

theorem nonempty : guard.separator ≠ [] := by
  intro empty
  have refused := inert.refused
  rw [empty] at refused
  cases refused

theorem not_mem {closer : Char} (closes : closer ∈ closers) : closer ∉ guard.separator :=
  fun member => inert.plain closer member closes

end Inert

theorem toNat_lt_of_mem_closers {c : Char} (closes : c ∈ closers) : c.toNat < 0x80 := by
  simp only [closers, List.mem_cons, List.not_mem_nil, or_false] at closes
  rcases closes with rfl | rfl | rfl | rfl | rfl | rfl | rfl | rfl | rfl <;> decide

theorem ne_placeholder_of_ascii (allowed : Config.isPlaceholder guard.placeholder = true) {c : Char}
    (ascii : c.toNat < 0x80) : c ≠ guard.placeholder := by
  rintro rfl
  rw [Config.isPlaceholder, Bool.and_eq_true, decide_eq_true_eq] at allowed
  omega

theorem isAlphanum_placeholder (allowed : Config.isPlaceholder guard.placeholder = true) :
    guard.placeholder.isAlphanum = false := by
  rw [Config.isPlaceholder, Bool.and_eq_true, decide_eq_true_eq] at allowed
  simp [Char.isAlphanum, Char.isAlpha, Char.isUpper, Char.isLower, Char.isDigit,
    UInt32.le_iff_toNat_le]
  omega

theorem isDigit_placeholder (allowed : Config.isPlaceholder guard.placeholder = true) :
    guard.placeholder.isDigit = false := by
  have plain := isAlphanum_placeholder allowed
  rw [Char.isAlphanum, Bool.or_eq_false_iff] at plain
  exact plain.2

theorem Inert.any_isDigit_head? (inert : guard.Inert) :
    guard.separator.head?.any Char.isDigit = false := by
  have plain := inert.first
  cases head : guard.separator.head? with
  | none => rfl
  | some c =>
      rw [head, Option.any_some, Char.isAlphanum, Bool.or_eq_false_iff] at plain
      exact plain.2

/-! ## Restoring character by character -/

theorem restore_cons_of_ne {c : Char} (different : c ≠ guard.placeholder) (text : Text) :
    guard.restore (c :: text) = c :: guard.restore text := by
  change (if c = guard.placeholder then guard.separator else [c]) ++ guard.restore text = _
  rw [if_neg different, List.singleton_append]

theorem restore_cons_placeholder (text : Text) :
    guard.restore (guard.placeholder :: text) = guard.separator ++ guard.restore text := by
  change (if _ then guard.separator else _) ++ guard.restore text = _
  rw [if_pos rfl]

theorem restore_ne_nil (nonempty : guard.separator ≠ []) {text : Text} (some : text ≠ []) :
    guard.restore text ≠ [] := by
  obtain ⟨c, rest, rfl⟩ := List.exists_cons_of_ne_nil some
  by_cases same : c = guard.placeholder
  · subst same
    rw [restore_cons_placeholder]
    exact fun empty => nonempty (List.append_eq_nil_iff.mp empty).1
  · rw [restore_cons_of_ne same]
    exact List.cons_ne_nil c _

theorem mem_of_mem_restore {c : Char} (absent : c ∉ guard.separator) {text : Text}
    (member : c ∈ guard.restore text) : c ∈ text := by
  obtain ⟨d, inText, origin⟩ := List.mem_flatMap.mp member
  split at origin
  · exact absurd origin absent
  · rwa [List.mem_singleton.mp origin]

/-- A test that neither a placeholder nor the beginning of a separator passes has the same result
once the separators are restored. -/
theorem any_head?_restore (nonempty : guard.separator ≠ []) (test : Char → Bool)
    (mark : test guard.placeholder = false) (first : guard.separator.head?.any test = false)
    (text : Text) : (guard.restore text).head?.any test = text.head?.any test := by
  cases text with
  | nil => rfl
  | cons c text =>
      by_cases same : c = guard.placeholder
      · subst same
        obtain ⟨d, separator, split⟩ := List.exists_cons_of_ne_nil nonempty
        rw [split] at first
        rw [restore_cons_placeholder, split]
        exact first.trans mark.symm
      · rw [restore_cons_of_ne same]
        rfl

/-- A character that neither is a placeholder nor begins the separator begins the restored text if
and only if it begins the text. -/
theorem head?_restore_iff (nonempty : guard.separator ≠ []) {c : Char}
    (noMark : c ≠ guard.placeholder) (absent : c ∉ guard.separator) (text : Text) :
    (guard.restore text).head? = some c ↔ text.head? = some c := by
  rw [Text.head?_eq_some_iff_any, Text.head?_eq_some_iff_any, any_head?_restore nonempty]
  · exact beq_eq_false_iff_ne.mpr noMark.symm
  · cases head : guard.separator.head? with
    | none => rfl
    | some d =>
        apply beq_eq_false_iff_ne.mpr
        rintro rfl
        exact absent (List.mem_of_mem_head? head)

theorem getLast?_restore_iff (nonempty : guard.separator ≠ []) {c : Char}
    (noMark : c ≠ guard.placeholder) (absent : c ∉ guard.separator) (text : Text) :
    (guard.restore text).getLast? = some c ↔ text.getLast? = some c := by
  rcases List.eq_nil_or_concat text with rfl | ⟨text, d, rfl⟩
  · rfl
  · rw [List.concat_eq_append, restore_append, List.getLast?_concat]
    by_cases same : d = guard.placeholder
    · rw [same, restore_placeholder, List.getLast?_append_of_ne_nil _ nonempty]
      constructor
      · intro last
        exact absurd (List.mem_of_getLast? last) absent
      · intro last
        exact absurd (Option.some.inj last).symm noMark
    · rw [restore_cons_of_ne same, restore_nil, List.getLast?_concat]

/-- A run that holds no placeholder and stops at none is the same in the restored text. -/
theorem takeWhile_restore {isMember : Char → Bool} {text : Text}
    (absent : guard.placeholder ∉ text.takeWhile isMember)
    (ends : (text.dropWhile isMember).head? ≠ some guard.placeholder) :
    (guard.restore text).takeWhile isMember = text.takeWhile isMember ∧
      (guard.restore text).dropWhile isMember = guard.restore (text.dropWhile isMember) := by
  have allMember : ∀ c ∈ text.takeWhile isMember, isMember c = true :=
    fun c member => List.mem_takeWhile_imp member
  have stops : EndsWord isMember (guard.restore (text.dropWhile isMember)) := by
    intro c head
    cases behind : text.dropWhile isMember with
    | nil =>
        rw [behind] at head
        cases head
    | cons d rest =>
        rw [behind] at head ends
        have plain : d ≠ guard.placeholder := fun same => ends (by rw [same, List.head?_cons])
        rw [restore_cons_of_ne plain] at head
        cases head
        exact EndsWord.dropWhile isMember text _ (by rw [behind, List.head?_cons])
  have split : guard.restore text =
      text.takeWhile isMember ++ guard.restore (text.dropWhile isMember) := by
    conv_lhs => rw [← List.takeWhile_append_dropWhile (p := isMember) (l := text)]
    rw [restore_append, guard.restore_of_not_mem absent]
  rw [split]
  exact ⟨stops.takeWhile_append allMember, stops.dropWhile_append allMember⟩

end Guard

/-! ## Searching in restored texts -/

/-- A search does not stop in text without the first character of what it looks for. -/
theorem Text.through_append_of_not_mem {first : Char} {needle plain : Text}
    (absent : first ∉ plain) (text : Text) :
    through (first :: needle) (plain ++ text) =
      (plain ++ (through (first :: needle) text).1, (through (first :: needle) text).2) := by
  induction plain with
  | nil => rfl
  | cons c plain ih =>
      simp only [List.mem_cons, not_or] at absent
      have elsewhere : ¬ (first :: needle).isPrefixOf (c :: (plain ++ text)) = true := by
        intro begins
        have heads := List.cons_prefix_cons.mp (List.isPrefixOf_iff_prefix.mp begins)
        exact absent.1 heads.1
      rw [List.cons_append, through, if_neg elsewhere, ih absent.2]
      rfl

namespace Guard

variable {guard : Guard}

/-- Text without placeholders begins the restored text if and only if it begins the text, as long
as it neither holds a separator nor ends within one. -/
theorem prefix_restore_iff {needle : Text} (unmarked : guard.placeholder ∉ needle)
    (free : ¬ guard.separator <:+: needle)
    (last : ∀ c, needle.getLast? = some c → c ∉ guard.separator) {text : Text} :
    needle <+: guard.restore text ↔ needle <+: text := by
  induction text generalizing needle with
  | nil => rfl
  | cons c text ih =>
      cases needle with
      | nil => simp
      | cons d needle =>
          by_cases same : c = guard.placeholder
          · subst same
            rw [restore_cons_placeholder]
            constructor
            · intro begins
              rcases List.prefix_or_prefix_of_prefix begins
                (List.prefix_append guard.separator (guard.restore text)) with within | around
              · have ending := List.getLast?_eq_some_getLast (List.cons_ne_nil d needle)
                exact absurd (within.subset (List.mem_of_getLast? ending)) (last _ ending)
              · exact absurd around.isInfix free
            · intro begins
              obtain ⟨rfl, -⟩ := List.cons_prefix_cons.mp begins
              exact absurd List.mem_cons_self unmarked
          · rw [restore_cons_of_ne same, List.cons_prefix_cons, List.cons_prefix_cons]
            apply and_congr_right
            intro _
            cases needle with
            | nil => simp
            | cons e needle =>
                apply ih
                · exact fun member => unmarked (List.mem_cons_of_mem d member)
                · exact fun inside => free (inside.trans (List.suffix_cons d _).isInfix)
                · intro f ending
                  exact last f (by rw [List.getLast?_cons_cons, ending])

/-- A search finds in the restored text what it finds in the text. -/
theorem through_restore {first : Char} {needle : Text}
    (unmarked : guard.placeholder ∉ first :: needle)
    (free : ¬ guard.separator <:+: first :: needle) (absent : first ∉ guard.separator)
    (last : ∀ c, (first :: needle).getLast? = some c → c ∉ guard.separator) (text : Text) :
    Text.through (first :: needle) (guard.restore text) =
      (guard.restore (Text.through (first :: needle) text).1,
        guard.restore (Text.through (first :: needle) text).2) := by
  induction text with
  | nil => rfl
  | cons c text ih =>
      by_cases same : c = guard.placeholder
      · subst same
        have elsewhere : ¬ (first :: needle).isPrefixOf (guard.placeholder :: text) = true := by
          intro begins
          obtain ⟨rfl, -⟩ := List.cons_prefix_cons.mp (List.isPrefixOf_iff_prefix.mp begins)
          exact unmarked List.mem_cons_self
        rw [restore_cons_placeholder, Text.through_append_of_not_mem absent, ih, Text.through,
          if_neg elsewhere, restore_cons_placeholder]
      · have begins : first :: needle <+: guard.restore (c :: text) ↔ first :: needle <+: c :: text :=
          prefix_restore_iff unmarked free last
        rw [restore_cons_of_ne same] at begins ⊢
        rw [Text.through, Text.through]
        by_cases found : first :: needle <+: c :: text
        · have still := begins.mpr found
          obtain ⟨rest, split⟩ := found
          have plain := guard.restore_of_not_mem unmarked
          rw [if_pos (List.isPrefixOf_iff_prefix.mpr still),
            if_pos (List.isPrefixOf_iff_prefix.mpr ⟨rest, split⟩), plain, ← restore_cons_of_ne same,
            ← split, restore_append, plain, List.drop_left, List.drop_left]
        · rw [if_neg (fun here => found (begins.mp (List.isPrefixOf_iff_prefix.mp here))),
            if_neg (fun here => found (List.isPrefixOf_iff_prefix.mp here)), ih,
            restore_cons_of_ne same]

end Guard

namespace Lexeme

variable {guard : Guard}

/-! ## Lexemes that go past plain text -/

theorem headerName_append_of_plain {plain : Text} (noBracket : '>' ∉ plain)
    (noLineFeed : '\n' ∉ plain) (text : Text) :
    headerName (plain ++ text) = (plain ++ (headerName text).1, (headerName text).2) := by
  induction plain with
  | nil => rfl
  | cons c plain ih =>
      simp only [List.mem_cons, not_or] at noBracket noLineFeed
      rw [List.cons_append, headerName, if_neg (Ne.symm noBracket.1),
        if_neg (Ne.symm noLineFeed.1), ih noBracket.2 noLineFeed.2]
      rfl

/-- What is in front of a line comment matters only if it is a backslash. -/
theorem lineComment_previous {previous other : Char} (plain : previous ≠ '\\')
    (otherPlain : other ≠ '\\') (text : Text) :
    lineComment previous text = lineComment other text := by
  fun_induction lineComment previous text with
  | case1 previous => rw [lineComment]
  | case2 rest body after split ih => exact absurd rfl plain
  | case3 previous rest notSpliced => rw [lineComment, if_neg otherPlain]
  | case4 previous c rest notPair ends =>
      rw [lineComment.eq_3 _ _ _ notPair, if_pos ⟨ends.1, otherPlain⟩]
  | case5 previous c rest notPair goesOn body after split ih =>
      have notEnded : ¬ (c = '\n' ∧ other ≠ '\\') := fun ends => goesOn ⟨ends.1, plain⟩
      rw [lineComment.eq_3 _ _ _ notPair, if_neg notEnded]
      by_cases carriage : c = '\r'
      · rw [if_pos carriage] at split ih ⊢
        rw [← ih plain, split]
      · rw [if_neg carriage] at split ih ⊢
        rw [split]

/-- A line comment goes on past text that does not end its line, and that does not join the next
line to it. -/
theorem lineComment_append_of_plain {plain : Text} (nonempty : plain ≠ [])
    (noLineFeed : '\n' ∉ plain) (noCarriage : '\r' ∉ plain)
    (last : plain.getLast? ≠ some '\\') (previous : Char) {other : Char}
    (otherPlain : other ≠ '\\') (text : Text) :
    lineComment previous (plain ++ text) =
      (plain ++ (lineComment other text).1, (lineComment other text).2) := by
  induction plain generalizing previous with
  | nil => exact absurd rfl nonempty
  | cons c plain ih =>
      simp only [List.mem_cons, not_or] at noLineFeed noCarriage
      have notPair : ∀ rest, c = '\r' → plain ++ text = '\n' :: rest → False :=
        fun _ carriage _ => noCarriage.1 carriage.symm
      rw [List.cons_append, lineComment.eq_3 _ _ _ notPair,
        if_neg (fun ends => noLineFeed.1 ends.1.symm), if_neg (Ne.symm noCarriage.1)]
      cases plain with
      | nil =>
          have notBackslash : c ≠ '\\' := by
            rintro rfl
            exact last rfl
          rw [List.nil_append, lineComment_previous notBackslash otherPlain]
          rfl
      | cons d plain =>
          rw [List.getLast?_cons_cons] at last
          rw [ih (List.cons_ne_nil d plain) noLineFeed.2 noCarriage.2 last]
          rfl

/-- A literal goes on past text without its quote that does not escape what follows. -/
theorem quoted_append_of_plain {quote : Char} {plain : Text} (noLineFeed : '\n' ∉ plain)
    (noQuote : quote ∉ plain) (last : plain.getLast? ≠ some '\\') (text : Text) :
    quoted quote (plain ++ text) =
      (plain ++ (quoted quote text).1, (quoted quote text).2) := by
  fun_induction quoted quote plain with
  | case1 => rfl
  | case2 escaped rest body after split ih =>
      simp only [List.mem_cons, not_or] at noLineFeed noQuote
      have restLast : rest.getLast? ≠ some '\\' := by
        cases rest with
        | nil => simp
        | cons c rest => rwa [List.getLast?_cons_cons, List.getLast?_cons_cons] at last
      rw [List.cons_append, List.cons_append, quoted, ih noLineFeed.2.2 noQuote.2.2 restLast]
      rfl
  | case3 rest notEscape => exact absurd List.mem_cons_self noLineFeed
  | case4 rest notEscape notEnded => exact absurd List.mem_cons_self noQuote
  | case5 c rest notEscape notEnded notClosed body after split ih =>
      simp only [List.mem_cons, not_or] at noLineFeed noQuote
      cases rest with
      | nil =>
          have notBackslash : c ≠ '\\' := by
            rintro rfl
            exact last rfl
          rw [List.cons_append, quoted.eq_3 _ _ _ fun _ _ escape _ => notBackslash escape,
            if_neg notEnded, if_neg notClosed]
          rfl
      | cons d rest =>
          have stillNotEscape : ∀ escaped tail, c = '\\' →
              d :: rest ++ text = escaped :: tail → False :=
            fun _ _ escape _ => notEscape d rest escape rfl
          rw [List.getLast?_cons_cons] at last
          rw [List.cons_append, quoted.eq_3 _ _ _ stillNotEscape, if_neg notEnded,
            if_neg notClosed, ih noLineFeed.2 noQuote.2 last]
          rfl

theorem takeWhile_append_cons {delimiter : Text} (plain : '(' ∉ delimiter) (rest : Text) :
    (delimiter ++ '(' :: rest).takeWhile (· != '(') = delimiter := by
  have ends : EndsWord (· != '(') ('(' :: rest) := .cons rfl rest
  exact ends.takeWhile_append (bne_of_not_mem plain)

theorem takeWhile_of_rawString {text body after : Text}
    (found : rawString text = some (body, after)) :
    body.takeWhile (· != '(') = text.takeWhile (· != '(') := by
  by_cases opened : '(' ∈ text
  · obtain ⟨delimiter, rest, rfl, plain⟩ := List.eq_append_cons_of_mem opened
    rw [rawString_append_cons plain] at found
    split at found
    · cases found
      rw [takeWhile_append_cons plain, takeWhile_append_cons plain]
    · cases found
  · rw [rawString_of_not_mem opened] at found
    cases found

/-- What lies within a bracketed text without the brackets lies between them. -/
theorem infix_of_infix_brackets {first last : Char} {part body : Text} (nonempty : part ≠ [])
    (noFirst : first ∉ part) (noLast : last ∉ part) (inside : part <:+: first :: body ++ [last]) :
    part <:+: body := by
  rw [List.cons_append] at inside
  rcases List.infix_cons_iff.mp inside with begins | later
  · obtain ⟨c, rest, rfl⟩ := List.exists_cons_of_ne_nil nonempty
    obtain ⟨rfl, -⟩ := List.cons_prefix_cons.mp begins
    exact absurd List.mem_cons_self noFirst
  · rcases List.infix_concat_iff.mp later with ends | within
    · obtain ⟨before, split⟩ := ends
      obtain ⟨rest, c, rfl⟩ := List.eq_nil_or_concat part |>.resolve_left nonempty
      rw [List.concat_eq_append, ← List.append_assoc] at split
      obtain ⟨-, same⟩ := List.append_inj' split rfl
      obtain rfl := List.singleton_inj.mp same
      exact absurd (by simp) noLast
    · exact within

theorem isDelimiter_part {part delimiter : Text} (inside : part <:+: delimiter)
    (accepted : isDelimiter delimiter = true) : isDelimiter part = true := by
  obtain ⟨short, allowed⟩ := Bool.and_eq_true_iff.mp accepted
  rw [decide_eq_true_eq] at short
  rw [isDelimiter, Bool.and_eq_true, decide_eq_true_eq]
  constructor
  · obtain ⟨before, behind, rfl⟩ := inside
    rw [Text.byteCount_append, Text.byteCount_append] at short
    omega
  · apply List.all_eq_true.mpr
    intro c member
    exact List.all_eq_true.mp allowed c (inside.subset member)

theorem continuesNumber_placeholder (allowed : Config.isPlaceholder guard.placeholder = true)
    (previous : Char) (next : Option Char) :
    continuesNumber previous guard.placeholder next = false := by
  have different (c : Char) (ascii : c.toNat < 0x80) : (guard.placeholder == c) = false :=
    beq_eq_false_iff_ne.mpr (Guard.ne_placeholder_of_ascii allowed ascii).symm
  rw [continuesNumber, Guard.isAlphanum_placeholder allowed, different '_' (by decide),
    different '.' (by decide), different '\'' (by decide), different '+' (by decide),
    different '-' (by decide)]
  rfl

/-! ## Lexemes of restored texts -/

section Restored

variable (allowed : Config.isPlaceholder guard.placeholder = true) (inert : guard.Inert)

include allowed inert

theorem headerName_restore (text : Text) :
    headerName (guard.restore text) =
      (guard.restore (headerName text).1, guard.restore (headerName text).2) := by
  have noBracket := Guard.ne_placeholder_of_ascii allowed (c := '>') (by decide)
  have noLineFeed := Guard.ne_placeholder_of_ascii allowed (c := '\n') (by decide)
  fun_induction headerName text with
  | case1 => rfl
  | case2 rest => rw [Guard.restore_cons_of_ne noBracket, headerName, if_pos rfl,
      Guard.restore_cons_of_ne noBracket, Guard.restore_nil]
  | case3 rest notClosed =>
      rw [Guard.restore_cons_of_ne noLineFeed, headerName, if_neg notClosed, if_pos rfl,
        Guard.restore_nil]
  | case4 c rest notClosed notEnded body after split ih =>
      simp only [split] at ih
      by_cases same : c = guard.placeholder
      · subst same
        rw [Guard.restore_cons_placeholder, headerName_append_of_plain
          (inert.not_mem (by decide)) (inert.not_mem (by decide)), ih,
          Guard.restore_cons_placeholder]
      · rw [Guard.restore_cons_of_ne same, headerName, if_neg notClosed, if_neg notEnded, ih,
          Guard.restore_cons_of_ne same]

theorem lineComment_restore (previous : Char) (text : Text) :
    lineComment previous (guard.restore text) =
      (guard.restore (lineComment previous text).1,
        guard.restore (lineComment previous text).2) := by
  have noCarriage := Guard.ne_placeholder_of_ascii allowed (c := '\r') (by decide)
  have noLineFeed := Guard.ne_placeholder_of_ascii allowed (c := '\n') (by decide)
  have noBackslash := Guard.ne_placeholder_of_ascii allowed (c := '\\') (by decide)
  fun_induction lineComment previous text with
  | case1 previous => rw [Guard.restore_nil, lineComment]
  | case2 rest body after split ih =>
      simp only [split] at ih
      rw [Guard.restore_cons_of_ne noCarriage, Guard.restore_cons_of_ne noLineFeed, lineComment,
        if_pos rfl, ih, Guard.restore_cons_of_ne noCarriage, Guard.restore_cons_of_ne noLineFeed]
  | case3 previous rest notSpliced =>
      rw [Guard.restore_cons_of_ne noCarriage, Guard.restore_cons_of_ne noLineFeed, lineComment,
        if_neg notSpliced, Guard.restore_nil]
  | case4 previous c rest notPair ends =>
      obtain ⟨rfl, notSpliced⟩ := ends
      rw [Guard.restore_cons_of_ne noLineFeed, lineComment.eq_3 _ _ _ (by simp),
        if_pos ⟨rfl, notSpliced⟩, Guard.restore_nil]
  | case5 previous c rest notPair goesOn body after split ih =>
      simp only [split] at ih
      by_cases same : c = guard.placeholder
      · subst same
        rw [if_neg (Ne.symm noCarriage)] at ih
        rw [Guard.restore_cons_placeholder, lineComment_append_of_plain inert.nonempty
          (inert.not_mem (by decide)) (inert.not_mem (by decide)) inert.last previous
          (Ne.symm noBackslash), ih, Guard.restore_cons_placeholder]
      · have stillNotPair : ∀ tail, c = '\r' → guard.restore rest = '\n' :: tail → False := by
          intro tail carriage lineFeed
          have head : (guard.restore rest).head? = some '\n' := by rw [lineFeed, List.head?_cons]
          rw [Guard.head?_restore_iff inert.nonempty noLineFeed (inert.not_mem (by decide))] at head
          obtain ⟨behind, rfl⟩ := List.head?_eq_some_iff.mp head
          exact notPair behind carriage rfl
        rw [Guard.restore_cons_of_ne same, lineComment.eq_3 _ _ _ stillNotPair, if_neg goesOn, ih,
          Guard.restore_cons_of_ne same]

theorem quoted_restore {quote : Char} (closes : quote ∈ Guard.closers) (text : Text) :
    quoted quote (guard.restore text) =
      (guard.restore (quoted quote text).1, guard.restore (quoted quote text).2) := by
  have noLineFeed := Guard.ne_placeholder_of_ascii allowed (c := '\n') (by decide)
  have noBackslash := Guard.ne_placeholder_of_ascii allowed (c := '\\') (by decide)
  have noQuote := Guard.ne_placeholder_of_ascii allowed (Guard.toNat_lt_of_mem_closers closes)
  fun_induction quoted quote text with
  | case1 => rfl
  | case2 escaped rest body after split ih =>
      simp only [split] at ih
      rw [Guard.restore_cons_of_ne noBackslash, Guard.restore_cons_of_ne noBackslash]
      by_cases same : escaped = guard.placeholder
      · subst same
        obtain ⟨c, separator, split⟩ := List.exists_cons_of_ne_nil inert.nonempty
        have noLineFeed : '\n' ∉ guard.separator := inert.not_mem (by decide)
        have noQuote := inert.not_mem closes
        have last := inert.last
        rw [split] at noLineFeed noQuote last
        simp only [List.mem_cons, not_or] at noLineFeed noQuote
        have restLast : separator.getLast? ≠ some '\\' := by
          cases separator with
          | nil => simp
          | cons d separator => rwa [List.getLast?_cons_cons] at last
        rw [Guard.restore_cons_placeholder, Guard.restore_cons_placeholder, split,
          List.cons_append, quoted, quoted_append_of_plain noLineFeed.2 noQuote.2 restLast, ih]
        rfl
      · rw [Guard.restore_cons_of_ne same, quoted, ih, Guard.restore_cons_of_ne same]
  | case3 rest notEscape =>
      rw [Guard.restore_cons_of_ne noLineFeed, quoted.eq_3 _ _ _ (by simp), if_pos rfl,
        Guard.restore_nil]
  | case4 rest notEscape notEnded =>
      have plain : quote ≠ '\\' := by
        rintro rfl
        exact absurd closes (by decide)
      rw [Guard.restore_cons_of_ne noQuote, quoted.eq_3 _ _ _ fun _ _ escape _ => plain escape,
        if_neg notEnded, if_pos rfl, Guard.restore_cons_of_ne noQuote, Guard.restore_nil]
  | case5 c rest notEscape notEnded notClosed body after split ih =>
      simp only [split] at ih
      by_cases same : c = guard.placeholder
      · subst same
        rw [Guard.restore_cons_placeholder, quoted_append_of_plain (inert.not_mem (by decide))
          (inert.not_mem closes) inert.last, ih, Guard.restore_cons_placeholder]
      · have stillNotEscape : ∀ escaped tail, c = '\\' →
            guard.restore rest = escaped :: tail → False := by
          intro escaped tail backslash more
          cases rest with
          | nil => cases more
          | cons d rest => exact notEscape d rest backslash rfl
        rw [Guard.restore_cons_of_ne same, quoted.eq_3 _ _ _ stillNotEscape, if_neg notEnded,
          if_neg notClosed, ih, Guard.restore_cons_of_ne same]

theorem blockComment_restore {text : Text} (star : text.head? = some '*') :
    blockComment (guard.restore text) =
      (guard.restore (blockComment text).1, guard.restore (blockComment text).2) := by
  have noStar := Guard.ne_placeholder_of_ascii allowed (c := '*') (by decide)
  have noSlash := Guard.ne_placeholder_of_ascii allowed (c := '/') (by decide)
  obtain ⟨rest, rfl⟩ := List.head?_eq_some_iff.mp star
  have unmarked : guard.placeholder ∉ ['*', '/'] := by
    simp [Ne.symm noStar, Ne.symm noSlash]
  have free : ¬ guard.separator <:+: ['*', '/'] := by
    intro inside
    obtain ⟨c, member⟩ := List.exists_mem_of_ne_nil _ inert.nonempty
    have closer : c = '*' ∨ c = '/' := by simpa using inside.subset member
    rcases closer with rfl | rfl
    · exact inert.plain _ member (by decide)
    · exact inert.plain _ member (by decide)
  have last : ∀ c, ['*', '/'].getLast? = some c → c ∉ guard.separator := by
    intro c ending
    cases ending
    exact inert.not_mem (by decide)
  have found := Guard.through_restore unmarked free (inert.not_mem (by decide)) last rest
  rw [Guard.restore_cons_of_ne noStar, blockComment, blockComment, found,
    Guard.restore_cons_of_ne noStar]

/-- A raw string ends where it did, unless its delimiter holds a placeholder. -/
theorem rawString_restore {text : Text}
    (unmarked : (rawString text).isSome = true → guard.placeholder ∉ text.takeWhile (· != '(')) :
    rawString (guard.restore text) =
      (rawString text).map fun parts => (guard.restore parts.1, guard.restore parts.2) := by
  have noOpening := Guard.ne_placeholder_of_ascii allowed (c := '(') (by decide)
  have noClosing := Guard.ne_placeholder_of_ascii allowed (c := ')') (by decide)
  have noQuote := Guard.ne_placeholder_of_ascii allowed (c := '"') (by decide)
  have absent : '(' ∉ guard.separator := inert.not_mem (by decide)
  by_cases opened : '(' ∈ text
  · obtain ⟨delimiter, rest, rfl, plain⟩ := List.eq_append_cons_of_mem opened
    have delimits := takeWhile_append_cons plain rest
    have stillPlain : '(' ∉ guard.restore delimiter :=
      fun inside => plain (Guard.mem_of_mem_restore absent inside)
    rw [delimits, rawString_append_cons plain] at unmarked
    rw [Guard.restore_append, Guard.restore_cons_of_ne noOpening, rawString_append_cons stillPlain,
      rawString_append_cons plain]
    by_cases accepted : isDelimiter delimiter = true
    · rw [if_pos accepted] at unmarked ⊢
      have free := unmarked rfl
      have needleUnmarked : guard.placeholder ∉ ')' :: (delimiter ++ ['"']) := by
        simp [Ne.symm noClosing, Ne.symm noQuote, free]
      have needleFree : ¬ guard.separator <:+: ')' :: (delimiter ++ ['"']) := by
        intro inside
        have part := infix_of_infix_brackets inert.nonempty (inert.not_mem (by decide))
          (inert.not_mem (by decide)) inside
        have refused := inert.refused
        rw [isDelimiter_part part accepted] at refused
        cases refused
      have last : ∀ c, (')' :: (delimiter ++ ['"'])).getLast? = some c → c ∉ guard.separator := by
        intro c ending
        rw [← List.cons_append, List.getLast?_concat] at ending
        cases ending
        exact inert.not_mem (by decide)
      have found := Guard.through_restore needleUnmarked needleFree (inert.not_mem (by decide))
        last rest
      rw [guard.restore_of_not_mem free, if_pos accepted, Option.map_some, List.cons_append, found,
        Guard.restore_append, Guard.restore_cons_of_ne noOpening, guard.restore_of_not_mem free]
    · have stillRefused : ¬ isDelimiter (guard.restore delimiter) = true := by
        intro restored
        by_cases free : guard.placeholder ∉ delimiter
        · rw [guard.restore_of_not_mem free] at restored
          exact accepted restored
        · obtain ⟨before, behind, rfl⟩ := List.append_of_mem (not_not.mp free)
          rw [Guard.restore_append, Guard.restore_cons_placeholder] at restored
          have part : guard.separator <:+:
              guard.restore before ++ (guard.separator ++ guard.restore behind) :=
            ⟨guard.restore before, guard.restore behind, by rw [List.append_assoc]⟩
          have refused := inert.refused
          rw [isDelimiter_part part restored] at refused
          cases refused
      rw [if_neg accepted, if_neg stillRefused]
      rfl
  · have stillUnopened : '(' ∉ guard.restore text :=
      fun inside => opened (Guard.mem_of_mem_restore absent inside)
    rw [rawString_of_not_mem opened, rawString_of_not_mem stillUnopened]
    rfl

theorem number_restore {previous : Char} {text : Text}
    (follows : (number previous text).2.head? ≠ some guard.placeholder) :
    number previous (guard.restore text) =
      (guard.restore (number previous text).1, guard.restore (number previous text).2) := by
  have alphanumeric (text : Text) : (guard.restore text).head?.any Char.isAlphanum =
      text.head?.any Char.isAlphanum :=
    Guard.any_head?_restore inert.nonempty Char.isAlphanum (Guard.isAlphanum_placeholder allowed)
      inert.first text
  fun_induction number previous text with
  | case1 previous => rfl
  | case2 previous c rest goesOn body after split ih =>
      simp only [split] at ih follows
      have plain : c ≠ guard.placeholder := by
        rintro rfl
        rw [continuesNumber_placeholder allowed] at goesOn
        cases goesOn
      have stillGoesOn : continuesNumber previous c (guard.restore rest).head? = true := by
        rw [← goesOn, continuesNumber, continuesNumber, alphanumeric]
      rw [Guard.restore_cons_of_ne plain, number, if_pos stillGoesOn, ih follows,
        Guard.restore_cons_of_ne plain]
  | case3 previous c rest ended =>
      have plain : c ≠ guard.placeholder := fun same => follows (by rw [same, List.head?_cons])
      have stillEnded : ¬ continuesNumber previous c (guard.restore rest).head? = true := by
        rwa [continuesNumber, alphanumeric]
      rw [Guard.restore_cons_of_ne plain, number, if_neg stillEnded, Guard.restore_nil]

/-- A literal with an encoding word in front ends where it did, unless it is a raw string whose
delimiter holds a placeholder. -/
theorem encoded_restore {word text : Text} (follows : text.head? ≠ some guard.placeholder)
    (unmarked : ∀ rest, text = '"' :: rest → word ∈ rawEncodings →
      (rawString rest).isSome = true → guard.placeholder ∉ rest.takeWhile (· != '(')) :
    encoded word (guard.restore text) =
      (encoded word text).map fun parts => (guard.restore parts.1, guard.restore parts.2) := by
  cases text with
  | nil => rfl
  | cons c rest =>
      have plain : c ≠ guard.placeholder := fun same => follows (by rw [same, List.head?_cons])
      rw [Guard.restore_cons_of_ne plain]
      by_cases string : c = '"'
      · subst string
        rw [encoded, encoded]
        by_cases raw : word ∈ rawEncodings
        · rw [if_pos raw, if_pos raw, rawString_restore allowed inert (unmarked rest rfl raw),
            Option.map_map, Option.map_map]
          apply congrArg (Option.map · (rawString rest))
          funext parts
          exact congrArg (·, _) (Guard.restore_cons_of_ne plain parts.1).symm
        · rw [if_neg raw, if_neg raw]
          by_cases encodes : word ∈ encodings
          · rw [if_pos encodes, if_pos encodes, quoted_restore allowed inert (by decide),
              Option.map_some, Guard.restore_cons_of_ne plain]
          · rw [if_neg encodes, if_neg encodes, Option.map_none]
      · by_cases character : c = '\''
        · subst character
          rw [encoded, encoded]
          by_cases encodes : word ∈ encodings
          · rw [if_pos encodes, if_pos encodes, quoted_restore allowed inert (by decide),
              Option.map_some, Guard.restore_cons_of_ne plain]
          · rw [if_neg encodes, if_neg encodes, Option.map_none]
        · rw [encoded_eq_none_of_head (by simpa using string) (by simpa using character),
            encoded_eq_none_of_head (by simpa using string) (by simpa using character),
            Option.map_none]

end Restored

end Lexeme

theorem Config.mem_separator_default {c : Char} (member : c ∈ Config.default.separator) :
    c ∈ ['_', '\\', 'n'] := by
  rcases List.mem_append.mp member with line | escapes
  · rw [List.eq_of_mem_replicate line]
    decide
  · simp only [List.mem_cons, List.not_mem_nil, or_false] at escapes ⊢
    tauto

theorem Guard.inert_default : (Config.default).toGuard.Inert where
  plain := by
    intro c member
    have letter : c = '_' ∨ c = '\\' ∨ c = 'n' := by
      simpa using Config.mem_separator_default member
    rcases letter with rfl | rfl | rfl <;> decide
  last := by
    change (List.replicate 50 '_' ++ ['\\', 'n', '\\', 'n']).getLast? ≠ some '\\'
    rw [List.getLast?_append]
    decide
  first := by decide
  refused := by
    have backslash : ['\\'] <:+: (Config.default).separator :=
      ⟨List.replicate 50 '_', ['n', '\\', 'n'], rfl⟩
    apply Bool.eq_false_iff.mpr
    intro accepted
    exact absurd (Lexeme.isDelimiter_part backslash accepted) (by decide)

end Recase
