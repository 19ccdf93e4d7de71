import Recase.Proofs.Capitals
import Recase.Proofs.Runs
import Recase.Token.Lexer

/-!
# How far a lexeme looks ahead

A lexeme ends where it does because of what follows, yet it does not look far.  When the text behind
it is exchanged for another one that begins in the same way, the lexeme stays what it is.  Names
need not begin in the same way: it is enough if the new one begins with a letter too, unless the
lexeme is a number.
-/

namespace Recase

open Character (IsCapitalForm isWord isWordStart isBlank)

/-! ## Texts that begin alike -/

/-- What a new name may begin with in place of `c`. -/
def IsNameHead (c d : Char) : Prop :=
  d = c ∨ d = 'm' ∨ IsCapitalForm d

/-- A text that begins as an old one does, as far as a lexeme in front of it can tell.  What begins
a name may begin another one, and any other beginning is kept.  No quote comes to stand in front of
a digit or letter, or to open a raw string. -/
structure Alike (old new : Text) : Prop where
  nil : old = [] → new = []
  kept : ∀ c, old.head? = some c → isWordStart c = false → new.head? = some c
  name : ∀ c, old.head? = some c → isWordStart c = true →
    ∃ d, new.head? = some d ∧ IsNameHead c d
  lineEnd : ∀ rest, old = '\r' :: '\n' :: rest → ∃ more, new = '\r' :: '\n' :: more
  quote : ∀ rest, old = '\'' :: rest → ∃ more, new = '\'' :: more ∧
    (more.head?.any Char.isAlphanum = true → rest.head?.any Char.isAlphanum = true)
  raw : ∀ rest, old = '"' :: rest → Lexeme.rawString rest = none →
    ∃ more, new = '"' :: more ∧ Lexeme.rawString more = none

theorem isWord_of_isBlank {c : Char} (blank : isBlank c = true) : isWord c = false := by
  have checked : ((Character.blankRanges.flatMap CodeRange.codes).all fun code =>
      code != '_'.toNat && !CodeRange.covers Character.alphabeticRanges code &&
        !CodeRange.covers Character.numericRanges code) = true := by
    decide +kernel
  have separate := List.all_eq_true.mp checked _ (CodeRange.mem_codes_of_covers blank)
  simp only [Bool.and_eq_true, Bool.not_eq_true', bne_iff_ne, ne_eq] at separate
  obtain ⟨⟨different, notAlphabetic⟩, notNumeric⟩ := separate
  have noUnderscore : (c == '_') = false := by
    apply beq_eq_false_iff_ne.mpr
    rintro rfl
    exact different rfl
  rw [isWord, Character.isAlphanumeric, Character.isAlphabetic, Character.isNumeric, noUnderscore,
    notAlphabetic, notNumeric]
  rfl

theorem isWordStart_of_isWord_eq_false {c : Char} (noWord : isWord c = false) :
    isWordStart c = false := by
  apply Bool.eq_false_iff.mpr
  intro starts
  rw [Character.isWord_of_isWordStart starts] at noWord
  cases noWord

theorem Text.head?_eq_some_iff_any {text : Text} {c : Char} :
    text.head? = some c ↔ text.head?.any (· == c) = true := by
  cases text <;> simp

namespace Alike

variable {old new : Text}

/-- A test that only characters outside of names pass has the same result for both texts. -/
theorem any_head? (alike : Alike old new) (test : Char → Bool)
    (outside : ∀ c, test c = true → isWordStart c = false ∧ c ≠ 'm' ∧ ¬ IsCapitalForm c) :
    new.head?.any test = old.head?.any test := by
  cases old with
  | nil => rw [alike.nil rfl]
  | cons c rest =>
      cases starts : isWordStart c with
      | false => rw [alike.kept c rfl starts, List.head?_cons]
      | true =>
          obtain ⟨d, head, origin⟩ := alike.name c rfl starts
          have oldFails : test c = false := by
            apply Bool.eq_false_iff.mpr
            intro passes
            rw [(outside c passes).1] at starts
            cases starts
          have newFails : test d = false := by
            apply Bool.eq_false_iff.mpr
            intro passes
            obtain ⟨noStart, noLetter, noCapital⟩ := outside d passes
            rcases origin with rfl | letter | capital
            · rw [noStart] at starts
              cases starts
            · exact noLetter letter
            · exact noCapital capital
          rw [head, List.head?_cons, Option.any_some, Option.any_some, oldFails, newFails]

theorem any_head?_append {body : Text} (alike : Alike old new) (test : Char → Bool)
    (outside : ∀ c, test c = true → isWordStart c = false ∧ c ≠ 'm' ∧ ¬ IsCapitalForm c) :
    (body ++ new).head?.any test = (body ++ old).head?.any test := by
  cases body with
  | nil => exact alike.any_head? test outside
  | cons c body => rfl

theorem head?_append_iff {body : Text} (alike : Alike old new) {c : Char}
    (noStart : isWordStart c = false) (noLetter : c ≠ 'm') (noCapital : ¬ IsCapitalForm c) :
    (body ++ new).head? = some c ↔ (body ++ old).head? = some c := by
  rw [Text.head?_eq_some_iff_any, Text.head?_eq_some_iff_any, any_head?_append alike (· == c)]
  intro d same
  obtain rfl := beq_iff_eq.mp same
  exact ⟨noStart, noLetter, noCapital⟩

theorem endsWord (alike : Alike old new) (ends : EndsWord isWord old) : EndsWord isWord new := by
  intro c head
  cases old with
  | nil =>
      rw [alike.nil rfl] at head
      cases head
  | cons d rest =>
      have noWord := ends d rfl
      rw [alike.kept d rfl (isWordStart_of_isWord_eq_false noWord)] at head
      cases head
      exact noWord

theorem endsBlank (alike : Alike old new) (ends : EndsWord isBlank old) : EndsWord isBlank new := by
  intro c head
  cases old with
  | nil =>
      rw [alike.nil rfl] at head
      cases head
  | cons d rest =>
      cases starts : isWordStart d with
      | false =>
          rw [alike.kept d rfl starts] at head
          cases head
          exact ends _ rfl
      | true =>
          obtain ⟨e, newHead, origin⟩ := alike.name d rfl starts
          rw [newHead] at head
          cases head
          rcases origin with rfl | rfl | capital
          · exact ends _ rfl
          · decide
          · exact capital.2

end Alike

namespace Text

/-- A split is behind an occurrence of the needle, or at the end of the text. -/
theorem through_suffix_or (needle text : Text) :
    needle <:+ (through needle text).1 ∨ (through needle text).2 = [] := by
  induction text with
  | nil => exact .inr rfl
  | cons c rest ih =>
      rw [through]
      split
      · exact .inl (List.suffix_refl needle)
      · exact ih.imp_left fun ends => ends.trans (List.suffix_cons c _)

/-- A split stays where it is when what is behind it is exchanged. -/
theorem through_exchange {needle : Text} (nonempty : needle ≠ []) {text new : Text}
    (ended : (through needle text).2 = [] → new = []) :
    through needle ((through needle text).1 ++ new) = ((through needle text).1, new) := by
  induction text with
  | nil =>
      rw [ended rfl]
      rfl
  | cons c rest ih =>
      rw [through] at ended ⊢
      split
      · next found =>
          obtain ⟨first, needleRest, rfl⟩ := List.exists_cons_of_ne_nil nonempty
          have begins : (first :: needleRest).isPrefixOf (first :: (needleRest ++ new)) = true :=
            List.isPrefixOf_iff_prefix.mpr (List.prefix_append (first :: needleRest) new)
          rw [List.cons_append, through, if_pos begins, ← List.cons_append, List.drop_left]
      · next elsewhere =>
          rw [if_neg elsewhere] at ended
          have split := through_append needle rest
          have still : ¬ needle.isPrefixOf (c :: ((through needle rest).1 ++ new)) = true := by
            intro begins
            apply elsewhere
            rcases through_suffix_or needle rest with found | last
            · have inside : needle <+: c :: (through needle rest).1 := by
                apply List.prefix_of_prefix_length_le (List.isPrefixOf_iff_prefix.mp begins)
                · exact List.prefix_append (c :: (through needle rest).1) new
                · exact Nat.le_succ_of_le found.length_le
              rw [← split]
              exact List.isPrefixOf_iff_prefix.mpr (inside.trans (List.prefix_append _ _))
            · rw [ended last, List.append_nil] at begins
              rw [last, List.append_nil] at split
              rwa [split] at begins
          rw [List.cons_append, through, if_neg still, ih ended]

end Text

namespace Lexeme

variable {new : Text}

/-! ## Lexemes -/

theorem lineComment_exchange {previous : Char} {text : Text}
    (alike : Alike (lineComment previous text).2 new) :
    lineComment previous ((lineComment previous text).1 ++ new) =
      ((lineComment previous text).1, new) := by
  fun_induction lineComment previous text with
  | case1 previous => rw [alike.nil rfl, List.append_nil, lineComment]
  | case2 rest body after split ih =>
      simp only [split] at ih alike ⊢
      rw [List.cons_append, List.cons_append, lineComment, if_pos rfl, ih alike]
  | case3 previous rest plain =>
      obtain ⟨more, rfl⟩ := alike.lineEnd rest rfl
      rw [List.nil_append, lineComment, if_neg plain]
  | case4 previous c rest notPair ends =>
      have head := alike.kept c rfl (by rw [ends.1]; decide)
      obtain ⟨more, rfl⟩ := List.head?_eq_some_iff.mp head
      obtain ⟨rfl, plain⟩ := ends
      rw [List.nil_append, lineComment.eq_3 _ _ _ (by simp), if_pos ⟨rfl, plain⟩]
  | case5 previous c rest notPair goesOn body after split ih =>
      simp only [split] at ih alike ⊢
      have whole : body ++ after = rest := by
        have parts := lineComment_append (if c = '\r' then previous else c) rest
        rwa [split] at parts
      have stillNotPair : ∀ tail, c = '\r' → body ++ new = '\n' :: tail → False := by
        intro tail carriage lineFeed
        have head : (body ++ new).head? = some '\n' := by rw [lineFeed, List.head?_cons]
        rw [alike.head?_append_iff (by decide) (by decide) (by simp [IsCapitalForm]), whole] at head
        obtain ⟨behind, rfl⟩ := List.head?_eq_some_iff.mp head
        exact notPair behind carriage rfl
      rw [List.cons_append, lineComment.eq_3 _ _ _ stillNotPair, if_neg goesOn, ih alike]

theorem blockComment_exchange {text : Text} (ended : (blockComment text).2 = [] → new = [])
    (nonempty : text ≠ []) :
    blockComment ((blockComment text).1 ++ new) = ((blockComment text).1, new) := by
  cases text with
  | nil => exact absurd rfl nonempty
  | cons star rest =>
      rw [blockComment] at ended ⊢
      rw [List.cons_append, blockComment, Text.through_exchange (by simp) ended]

theorem headerName_exchange {text : Text} (alike : Alike (headerName text).2 new) :
    headerName ((headerName text).1 ++ new) = ((headerName text).1, new) := by
  fun_induction headerName text with
  | case1 => rw [alike.nil rfl, List.append_nil, headerName]
  | case2 rest => rw [List.singleton_append, headerName, if_pos rfl]
  | case3 rest notClosed =>
      have head := alike.kept '\n' rfl (by decide)
      obtain ⟨more, rfl⟩ := List.head?_eq_some_iff.mp head
      rw [List.nil_append, headerName, if_neg notClosed, if_pos rfl]
  | case4 c rest notClosed notEnded body after split ih =>
      simp only [split] at ih alike ⊢
      rw [List.cons_append, headerName, if_neg notClosed, if_neg notEnded, ih alike]

theorem quoted_exchange {quote : Char} (plain : quote ≠ '\\') {text : Text}
    (alike : Alike (quoted quote text).2 new) :
    quoted quote ((quoted quote text).1 ++ new) = ((quoted quote text).1, new) := by
  fun_induction quoted quote text with
  | case1 => rw [alike.nil rfl, List.append_nil, quoted]
  | case2 escaped rest body after split ih =>
      simp only [split] at ih alike ⊢
      rw [List.cons_append, List.cons_append, quoted, ih alike]
  | case3 rest notEscape =>
      have head := alike.kept '\n' rfl (by decide)
      obtain ⟨more, rfl⟩ := List.head?_eq_some_iff.mp head
      rw [List.nil_append, quoted.eq_3 _ _ _ (by simp), if_pos rfl]
  | case4 rest notEscape notEnded =>
      rw [List.singleton_append, quoted.eq_3 _ _ _ fun _ _ escape _ => plain escape,
        if_neg notEnded, if_pos rfl]
  | case5 c rest notEscape notEnded notClosed body after split ih =>
      simp only [split] at ih alike ⊢
      have stillNotEscape : ∀ escaped tail, c = '\\' → body ++ new = escaped :: tail → False := by
        intro escaped tail backslash more
        cases rest with
        | cons d rest => exact notEscape d rest backslash rfl
        | nil =>
            cases split
            rw [alike.nil rfl] at more
            cases more
      rw [List.cons_append, quoted.eq_3 _ _ _ stillNotEscape, if_neg notEnded, if_neg notClosed,
        ih alike]

/-! ## Raw strings -/

theorem bne_of_not_mem {body : Text} (absent : '(' ∉ body) : ∀ c ∈ body, (c != '(') = true := by
  intro c member
  apply bne_iff_ne.mpr
  rintro rfl
  exact absent member

theorem rawString_of_not_mem {text : Text} (absent : '(' ∉ text) : rawString text = none := by
  have unopened := List.dropWhile_eq_nil_iff.mpr (bne_of_not_mem absent)
  simp only [rawString, unopened]

/-- The delimiter of a raw string is what is in front of the first parenthesis. -/
theorem rawString_append_cons {delimiter : Text} (plain : '(' ∉ delimiter) (rest : Text) :
    rawString (delimiter ++ '(' :: rest) =
      if isDelimiter delimiter then
        some (delimiter ++ '(' :: (Text.through (')' :: delimiter ++ ['"']) rest).1,
          (Text.through (')' :: delimiter ++ ['"']) rest).2)
      else none := by
  have ends : EndsWord (· != '(') ('(' :: rest) := .cons rfl rest
  simp only [rawString, ends.takeWhile_append (bne_of_not_mem plain),
    ends.dropWhile_append (bne_of_not_mem plain)]

theorem rawString_eq_some_exchange {text body after : Text}
    (found : rawString text = some (body, after)) (ended : after = [] → new = []) :
    rawString (body ++ new) = some (body, new) := by
  by_cases opened : '(' ∈ text
  · obtain ⟨delimiter, rest, rfl, plain⟩ := List.eq_append_cons_of_mem opened
    rw [rawString_append_cons plain] at found
    split at found
    · next accepted =>
        cases found
        rw [List.append_assoc, List.cons_append, rawString_append_cons plain, if_pos accepted,
          Text.through_exchange (by simp) ended]
    · cases found
  · rw [rawString_of_not_mem opened] at found
    cases found

theorem rawString_eq_none {text : Text} {c : Char} (member : c ∈ text.takeWhile (· != '('))
    (excluded : isBlank c = true ∨ c = '"') : rawString text = none := by
  have noDelimiter : isDelimiter (text.takeWhile (· != '(')) = false := by
    apply Bool.eq_false_iff.mpr
    intro delimiter
    have passes := List.all_eq_true.mp (Bool.and_eq_true_iff.mp delimiter).2 c member
    rcases excluded with blank | rfl
    · simp [blank] at passes
    · simp at passes
  simp only [rawString, noDelimiter, Bool.false_eq_true, if_false]
  split <;> rfl

/-- A literal in quotes ends with the text, in front of a line feed, or with its closing quote. -/
theorem quoted_ends (quote : Char) (text : Text) :
    (quoted quote text).2 = [] ∨ (quoted quote text).2.head? = some '\n' ∨
      quote ∈ (quoted quote text).1 := by
  fun_induction quoted quote text with
  | case1 => exact .inl rfl
  | case2 escaped rest body after split ih =>
      simp only [split] at ih ⊢
      exact ih.imp_right fun later => later.imp_right fun member => by simp [member]
  | case3 rest notEscape => exact .inr (.inl rfl)
  | case4 rest notEnded notEscape => exact .inr (.inr (by simp))
  | case5 c rest notEscape notEnded notClosed body after split ih =>
      simp only [split] at ih ⊢
      exact ih.imp_right fun later => later.imp_right fun member => by simp [member]

/-- A literal in quotes that opens no raw string does not come to open one when what is behind it is
exchanged. -/
theorem rawString_eq_none_exchange {text : Text} (malformed : rawString text = none)
    (ended : (quoted '"' text).2 = [] → new = [])
    (lineFeed : (quoted '"' text).2.head? = some '\n' → new.head? = some '\n') :
    rawString ((quoted '"' text).1 ++ new) = none := by
  have whole := quoted_append '"' text
  have ends := quoted_ends '"' text
  generalize (quoted '"' text).1 = body at *
  generalize (quoted '"' text).2 = after at *
  by_cases opened : '(' ∈ body
  · obtain ⟨delimiter, rest, rfl, plain⟩ := List.eq_append_cons_of_mem opened
    subst whole
    rw [List.append_assoc, List.cons_append, rawString_append_cons plain] at malformed ⊢
    split at malformed
    · cases malformed
    · next refused => rw [if_neg refused]
  · rcases ends with last | line | closed
    · rw [ended last, List.append_nil, rawString_of_not_mem opened]
    · obtain ⟨more, rfl⟩ := List.head?_eq_some_iff.mp (lineFeed line)
      refine rawString_eq_none (c := '\n') ?_ (.inl (by decide))
      rw [List.takeWhile_append_of_pos (bne_of_not_mem opened)]
      simp
    · refine rawString_eq_none (c := '"') ?_ (.inr rfl)
      rw [List.takeWhile_append_of_pos (bne_of_not_mem opened)]
      exact List.mem_append_left _ closed

/-! ## Numbers -/

/-- What comes next matters for a quote only. -/
theorem continuesNumber_next {c : Char} (noQuote : c ≠ '\'') (previous : Char)
    (next other : Option Char) :
    continuesNumber previous c next = continuesNumber previous c other := by
  have different : (c == '\'') = false := beq_eq_false_iff_ne.mpr noQuote
  rw [continuesNumber, continuesNumber, different, Bool.false_and, Bool.false_and]

theorem continuesNumber_of_isAlphanum {c : Char} (alphanumeric : c.isAlphanum = true)
    (previous : Char) (next : Option Char) : continuesNumber previous c next = true := by
  simp [continuesNumber, alphanumeric]

theorem continuesNumber_of_isCapitalForm {c : Char} (capital : IsCapitalForm c)
    (plain : c.isAlphanum = false) (previous : Char) (next : Option Char) :
    continuesNumber previous c next = false := by
  have different (other : Char) (outside : ¬ IsCapitalForm other) : (c == other) = false := by
    apply beq_eq_false_iff_ne.mpr
    rintro rfl
    exact outside capital
  rw [continuesNumber, plain, different '_' (by simp [IsCapitalForm]),
    different '.' (by simp [IsCapitalForm]), different '\'' (by simp [IsCapitalForm]),
    different '+' (by simp [IsCapitalForm]), different '-' (by simp [IsCapitalForm])]
  rfl

/-- A number that has ended still ends there if no digit or letter comes next. -/
theorem number_eq_nil_exchange {previous c : Char} {rest : Text}
    (ended : ¬ continuesNumber previous c rest.head? = true) (alike : Alike (c :: rest) new)
    (calm : new.head?.any Char.isAlphanum = false) : number previous new = ([], new) := by
  have stops {d : Char} {more : Text} (still : continuesNumber previous d more.head? = false) :
      number previous (d :: more) = ([], d :: more) := by
    rw [number, still]
    rfl
  rw [Bool.not_eq_true] at ended
  cases starts : isWordStart c with
  | false =>
      obtain ⟨more, rfl⟩ := List.head?_eq_some_iff.mp (alike.kept c rfl starts)
      apply stops
      by_cases quote : c = '\''
      · subst quote
        obtain ⟨_, same, alphanumeric⟩ := alike.quote rest rfl
        obtain ⟨-, rfl⟩ := List.cons.inj same
        cases next : more.head?.any Char.isAlphanum with
        | false => simp [continuesNumber, next]
        | true => simp [continuesNumber, alphanumeric next] at ended
      · rwa [continuesNumber_next quote previous _ rest.head?]
  | true =>
      obtain ⟨d, head, origin⟩ := alike.name c rfl starts
      obtain ⟨more, rfl⟩ := List.head?_eq_some_iff.mp head
      have plain : d.isAlphanum = false := by simpa using calm
      apply stops
      rcases origin with rfl | rfl | capital
      · have noQuote : d ≠ '\'' := by
          rintro rfl
          exact absurd starts (by decide)
        rwa [continuesNumber_next noQuote previous _ rest.head?]
      · cases plain
      · exact continuesNumber_of_isCapitalForm capital plain _ _

theorem number_exchange {previous : Char} {text : Text} (alike : Alike (number previous text).2 new)
    (calm : new.head?.any Char.isAlphanum = false) :
    number previous ((number previous text).1 ++ new) = ((number previous text).1, new) := by
  fun_induction number previous text with
  | case1 previous => rw [alike.nil rfl, List.append_nil, number]
  | case2 previous c rest goesOn body after split ih =>
      simp only [split] at ih alike ⊢
      have whole : body ++ after = rest := by
        have parts := number_append c rest
        rwa [split] at parts
      have stillGoesOn : continuesNumber previous c (body ++ new).head? = true := by
        cases body with
        | cons d body =>
            rw [← whole] at goesOn
            exact goesOn
        | nil =>
            by_cases quote : c = '\''
            · subst quote
              cases rest with
              | nil => simp [continuesNumber] at goesOn
              | cons d rest =>
                  have alphanumeric : d.isAlphanum = true := by simpa [continuesNumber] using goesOn
                  rw [number, continuesNumber_of_isAlphanum alphanumeric] at split
                  cases split
            · rwa [continuesNumber_next quote previous _ rest.head?]
      rw [List.cons_append, number, if_pos stillGoesOn, ih alike]
  | case3 previous c rest ended => exact number_eq_nil_exchange ended alike calm

/-! ## Literals with an encoding -/

theorem encoded_eq_some_exchange {word text body after : Text}
    (found : encoded word text = some (body, after)) (alike : Alike after new) :
    encoded word (body ++ new) = some (body, new) := by
  rw [encoded.eq_def] at found
  split at found
  · next rest =>
      split at found
      · next raw =>
          obtain ⟨⟨rawBody, behind⟩, rawFound, equal⟩ := Option.map_eq_some_iff.mp found
          cases equal
          rw [List.cons_append, encoded, if_pos raw, rawString_eq_some_exchange rawFound alike.nil]
          rfl
      · next notRaw =>
          split at found
          · next plain =>
              cases found
              rw [List.cons_append, encoded, if_neg notRaw, if_pos plain,
                quoted_exchange (by decide) alike]
          · cases found
  · split at found
    · next plain =>
        cases found
        rw [List.cons_append, encoded, if_pos plain, quoted_exchange (by decide) alike]
    · cases found
  · cases found

theorem ne_nil_of_encoded {word text body after : Text}
    (found : encoded word text = some (body, after)) : body ≠ [] := by
  rw [encoded.eq_def] at found
  split at found
  · split at found
    · obtain ⟨_, _, equal⟩ := Option.map_eq_some_iff.mp found
      cases equal
      exact List.cons_ne_nil _ _
    · split at found
      · cases found
        exact List.cons_ne_nil _ _
      · cases found
  · split at found
    · cases found
      exact List.cons_ne_nil _ _
    · cases found
  · cases found

/-- A word in front of a text that does not begin with a quote is no part of a literal. -/
theorem encoded_eq_none_of_head {word text : Text} (noString : text.head? ≠ some '"')
    (noCharacter : text.head? ≠ some '\'') : encoded word text = none := by
  rw [encoded.eq_def]
  split
  · exact absurd rfl noString
  · exact absurd rfl noCharacter
  · rfl

theorem encoded_eq_none_exchange {word text : Text} (ends : EndsWord isWord text)
    (missed : encoded word text = none) (alike : Alike text new) : encoded word new = none := by
  cases text with
  | nil =>
      rw [alike.nil rfl]
      rfl
  | cons c rest =>
      have head := alike.kept c rfl (isWordStart_of_isWord_eq_false (ends c rfl))
      obtain ⟨more, rfl⟩ := List.head?_eq_some_iff.mp head
      by_cases string : c = '"'
      · subst string
        rw [encoded] at missed ⊢
        split at missed
        · next raw =>
            have malformed : rawString rest = none := by simpa using missed
            obtain ⟨_, same, stillMalformed⟩ := alike.raw rest rfl malformed
            obtain ⟨-, rfl⟩ := List.cons.inj same
            rw [if_pos raw, stillMalformed]
            rfl
        · next notRaw =>
            rw [if_neg notRaw]
            split at missed
            · cases missed
            · next notPlain => rw [if_neg notPlain]
      · by_cases character : c = '\''
        · subst character
          rw [encoded] at missed ⊢
          split at missed
          · cases missed
          · next notPlain => rw [if_neg notPlain]
        · apply encoded_eq_none_of_head
          · simpa using string
          · simpa using character

end Lexeme

/-! ## Tokens -/

namespace Token

/-- Whether a token is a number. -/
def isNumber (token : Token) : Bool :=
  token.kind = .literal && token.text.head?.any fun c => c.isDigit || c == '.'

variable {context : LineContext} {first : Char} {rest new : Text}

theorem outside_of_isDigit (c : Char) (digit : c.isDigit = true) :
    isWordStart c = false ∧ c ≠ 'm' ∧ ¬ IsCapitalForm c := by
  have range : 48 ≤ c.toNat ∧ c.toNat ≤ 57 := by
    simpa [Char.isDigit, UInt32.le_iff_toNat_le] using digit
  have checked : ∀ code ∈ List.range' 48 10, code ≠ '_'.toNat ∧
      CodeRange.covers Character.alphabeticRanges code = false := by
    decide
  obtain ⟨different, notAlphabetic⟩ := checked c.toNat (by simp; omega)
  refine ⟨?_, ?_, ?_⟩
  · have noUnderscore : (c == '_') = false := by
      apply beq_eq_false_iff_ne.mpr
      rintro rfl
      exact different rfl
    rw [isWordStart, Character.isAlphabetic, noUnderscore, notAlphabetic]
    rfl
  · rintro rfl
    simp at range
  · rintro ⟨capital, -⟩
    omega

theorem scan_word (context : LineContext) (starts : isWordStart first = true)
    (noBlank : isBlank first = false) (text : Text) :
    scan context first text =
      if context.directive = .opened then
        (.punctuation, text.takeWhile isWord, text.dropWhile isWord)
      else
        match Lexeme.encoded (first :: text.takeWhile isWord) (text.dropWhile isWord) with
        | some (body, after) => (.literal, text.takeWhile isWord ++ body, after)
        | none => (.identifier, text.takeWhile isWord, text.dropWhile isWord) := by
  have different (c : Char) (noStart : isWordStart c = false) : first ≠ c := by
    rintro rfl
    rw [noStart] at starts
    cases starts
  have noSlash := different '/' (by decide)
  have noSign := different '#' (by decide)
  have noAngle := different '<' (by decide)
  rw [scan, noBlank, starts]
  by_cases opened : context.directive = .opened
  · simp only [opened, noSlash, noSign, noAngle, false_and, Bool.false_eq_true, if_false, if_true]
  · cases encodes : Lexeme.encoded (first :: text.takeWhile isWord) (text.dropWhile isWord) <;>
      simp only [opened, encodes, noSlash, noSign, noAngle, false_and, Bool.false_eq_true, if_false,
        if_true]

theorem scan_word_exchange (starts : isWordStart first = true) (noBlank : isBlank first = false)
    (alike : Alike (scan context first rest).2.2 new) :
    scan context first ((scan context first rest).2.1 ++ new) =
      ((scan context first rest).1, (scan context first rest).2.1, new) := by
  have allWord : ∀ c ∈ rest.takeWhile isWord, isWord c = true :=
    fun c member => List.mem_takeWhile_imp member
  have behindEnds := EndsWord.dropWhile isWord rest
  by_cases opened : context.directive = .opened
  · have value : scan context first rest =
        (.punctuation, rest.takeWhile isWord, rest.dropWhile isWord) := by
      rw [scan_word context starts noBlank, if_pos opened]
    rw [value] at alike ⊢
    have ends := alike.endsWord behindEnds
    rw [scan_word context starts noBlank, if_pos opened, ends.takeWhile_append allWord,
      ends.dropWhile_append allWord]
  cases literal : Lexeme.encoded (first :: rest.takeWhile isWord) (rest.dropWhile isWord) with
  | none =>
      have value : scan context first rest =
          (.identifier, rest.takeWhile isWord, rest.dropWhile isWord) := by
        rw [scan_word context starts noBlank, if_neg opened, literal]
      rw [value] at alike ⊢
      have ends := alike.endsWord behindEnds
      rw [scan_word context starts noBlank, if_neg opened, ends.takeWhile_append allWord,
        ends.dropWhile_append allWord, Lexeme.encoded_eq_none_exchange behindEnds literal alike]
  | some parts =>
      obtain ⟨body, after⟩ := parts
      have value : scan context first rest = (.literal, rest.takeWhile isWord ++ body, after) := by
        rw [scan_word context starts noBlank, if_neg opened, literal]
      rw [value] at alike ⊢
      have whole := Lexeme.encoded_append literal
      have nonempty : body ≠ [] := Lexeme.ne_nil_of_encoded literal
      have ends : EndsWord isWord (body ++ new) := by
        intro c head
        apply behindEnds c
        obtain ⟨d, tail, rfl⟩ := List.exists_cons_of_ne_nil nonempty
        rw [← whole]
        exact head
      rw [List.append_assoc, scan_word context starts noBlank, if_neg opened,
        ends.takeWhile_append allWord, ends.dropWhile_append allWord,
        Lexeme.encoded_eq_some_exchange literal alike]

/-- Two texts that begin in the same way behind a character are read in the same way from there. -/
theorem scan_cases {motive : Kind × Text × Text → Kind × Text × Text → Prop} {old new : Text}
    (slash : new.head? = some '/' ↔ old.head? = some '/')
    (star : new.head? = some '*' ↔ old.head? = some '*')
    (digit : new.head?.any Char.isDigit = old.head?.any Char.isDigit)
    (whitespace : isBlank first = true →
      motive (.whitespace, old.takeWhile isBlank, old.dropWhile isBlank)
        (.whitespace, new.takeWhile isBlank, new.dropWhile isBlank))
    (line : motive (.comment, Lexeme.lineComment first old)
      (.comment, Lexeme.lineComment first new))
    (block : old.head? = some '*' →
      motive (.comment, Lexeme.blockComment old) (.comment, Lexeme.blockComment new))
    (header : motive (.literal, Lexeme.headerName old) (.literal, Lexeme.headerName new))
    (word : isWordStart first = true → isBlank first = false →
      motive (scan context first old) (scan context first new))
    (number : first.isDigit = true ∨ first = '.' →
      motive (.literal, Lexeme.number first old) (.literal, Lexeme.number first new))
    (quoted : first = '"' ∨ first = '\'' →
      motive (.literal, Lexeme.quoted first old) (.literal, Lexeme.quoted first new))
    (sign : motive (.punctuation, [], old) (.punctuation, [], new)) :
    motive (scan context first old) (scan context first new) := by
  by_cases blank : isBlank first = true
  · rw [scan, scan, if_pos blank, if_pos blank]
    exact whitespace blank
  by_cases starts : isWordStart first = true
  · exact word starts (Bool.eq_false_iff.mpr blank)
  have lines : first = '/' ∧ new.head? = some '/' ↔ first = '/' ∧ old.head? = some '/' :=
    and_congr_right fun _ => slash
  have blocks : first = '/' ∧ new.head? = some '*' ↔ first = '/' ∧ old.head? = some '*' :=
    and_congr_right fun _ => star
  rw [scan, scan, if_neg blank, if_neg blank]
  simp only [lines, blocks, digit, starts, if_false, Bool.false_eq_true]
  split
  · exact line
  split
  · next opens => exact block opens.2
  split
  · exact sign
  split
  · exact header
  split
  · next decimal => exact number (decimal.imp_right And.left)
  split
  · next quote => exact quoted quote
  · exact sign

/-- A token stays what it is when the text behind it is exchanged for one that begins alike. -/
theorem scan_exchange (alike : Alike (scan context first rest).2.2 new)
    (calm : (next context first rest).1.isNumber = true →
      new.head?.any Char.isAlphanum = false) :
    scan context first ((scan context first rest).2.1 ++ new) =
      ((scan context first rest).1, (scan context first rest).2.1, new) := by
  have slash : ((scan context first rest).2.1 ++ new).head? = some '/' ↔ rest.head? = some '/' := by
    rw [alike.head?_append_iff (by decide) (by decide) (by simp [IsCapitalForm]), scan_append]
  have star : ((scan context first rest).2.1 ++ new).head? = some '*' ↔ rest.head? = some '*' := by
    rw [alike.head?_append_iff (by decide) (by decide) (by simp [IsCapitalForm]), scan_append]
  have digit : ((scan context first rest).2.1 ++ new).head?.any Char.isDigit =
      rest.head?.any Char.isDigit := by
    rw [alike.any_head?_append Char.isDigit outside_of_isDigit, scan_append]
  generalize exchanged : (scan context first rest).2.1 ++ new = text at slash star digit ⊢
  refine scan_cases (motive := fun old now => Alike old.2.2 new →
    (Token.isNumber { kind := old.1, text := first :: old.2.1 } = true →
      new.head?.any Char.isAlphanum = false) →
    old.2.1 ++ new = text → now = (old.1, old.2.1, new)) slash star digit ?_ ?_ ?_ ?_ ?_ ?_ ?_ ?_
    alike calm exchanged
  · rintro - alike - rfl
    have ends := alike.endsBlank (.dropWhile isBlank rest)
    have allBlank : ∀ c ∈ rest.takeWhile isBlank, isBlank c = true :=
      fun c member => List.mem_takeWhile_imp member
    rw [ends.takeWhile_append allBlank, ends.dropWhile_append allBlank]
  · rintro alike - rfl
    rw [Lexeme.lineComment_exchange alike]
  · rintro opens alike - rfl
    have nonempty : rest ≠ [] := by
      rintro rfl
      cases opens
    rw [Lexeme.blockComment_exchange alike.nil nonempty]
  · rintro alike - rfl
    rw [Lexeme.headerName_exchange alike]
  · rintro starts noBlank alike - rfl
    exact scan_word_exchange starts noBlank alike
  · rintro begins alike calm rfl
    have isNumber : Token.isNumber
        { kind := .literal, text := first :: (Lexeme.number first rest).1 } = true := by
      rcases begins with decimal | rfl
      · simp [Token.isNumber, decimal]
      · simp [Token.isNumber]
    rw [Lexeme.number_exchange alike (calm isNumber)]
  · rintro quote alike - rfl
    have plain : first ≠ '\\' := by
      rcases quote with rfl | rfl <;> decide
    rw [Lexeme.quoted_exchange plain alike]
  · rintro - - rfl
    rfl

end Token

end Recase
