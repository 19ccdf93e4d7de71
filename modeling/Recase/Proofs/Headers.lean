import Recase.Proofs.Agreement
import Recase.Proofs.Gaps
import Recase.Proofs.Overwriting
import Recase.Proofs.Shielding
import Mathlib

/-!
# Header names

An inclusion names its header between angle brackets.  The lexer takes the name for a literal when
it has seen the directive from the beginning of the line on, whatever gaps there are within it, as
long as they splice no lines.  A literal is carried over by a rewriting.  A name that the lexer does
not recognize is ordinary text to it, and its words are renamed.
-/

namespace Recase

open Character (isWord isWordStart isBlank)
open Gap (join splices)
open LineContext (initial midLine inclusionNames)
open Token (tokensFrom tokenize scan render)

/-! ## Where a line begins -/

namespace Text

/-- The byte-order mark, as it may stand at the beginning of a file. -/
def byteOrderMark : Text := ['\ufeff']

/-- Whether the last token of a text is white space that holds a line feed. -/
def EndsLineFeed (text : Text) : Prop :=
  ∃ tokens last, tokenize text = tokens ++ [last] ∧ last.kind = .whitespace ∧ '\n' ∈ last.text

/-- Whether a line of a source text begins behind a text.  The first line begins behind the
byte-order mark, if there is one. -/
inductive OpensLine : Text → Prop where
  | source : OpensLine []
  | mark : OpensLine byteOrderMark
  | line {text : Text} (ends : EndsLineFeed text) : OpensLine text

variable {text : Text}

namespace EndsLineFeed

theorem exists_last (ends : EndsLineFeed text) :
    ∃ tokens last, tokenize text = tokens ++ [last] ∧ text = render tokens ++ last.text ∧
      last.text ≠ [] ∧ (∀ c ∈ last.text, isBlank c = true) ∧ '\n' ∈ last.text := by
  obtain ⟨tokens, last, split, whitespace, lineFeed⟩ := ends
  have formed := Token.wellFormed_of_tokenize split
  have whole : render (tokenize text) = text := Token.render_tokensFrom .initial text
  rw [split, Token.render_append, Token.render_cons, Token.render_nil, List.append_nil] at whole
  exact ⟨tokens, last, split, whole.symm, formed.nonempty, (formed.whitespace whitespace).1,
    lineFeed⟩

theorem mem (ends : EndsLineFeed text) : '\n' ∈ text := by
  obtain ⟨tokens, last, -, rfl, -, -, lineFeed⟩ := ends.exists_last
  exact List.mem_append_right _ lineFeed

theorem ne_byteOrderMark (ends : EndsLineFeed text) : text ≠ byteOrderMark := by
  rintro rfl
  exact absurd ends.mem (by decide)

end EndsLineFeed

end Text

/-! ## Inclusions -/

/-- An inclusion of a header in angle brackets, with the gaps in front of its parts.  The header is
named on one line, up to the first closing bracket. -/
structure Inclusion where
  beforeSign : List Gap
  beforeName : List Gap
  name : Text
  beforeHeader : List Gap
  header : Text
  isInclusion : name ∈ inclusionNames
  closed : '>' ∉ header
  sameLine : '\n' ∉ header

namespace Inclusion

/-- The inclusion up to its header. -/
def opening (inclusion : Inclusion) : Text :=
  join inclusion.beforeSign ++ '#' :: (join inclusion.beforeName ++ (inclusion.name ++
    join inclusion.beforeHeader))

/-- The header in its brackets. -/
def bracketed (inclusion : Inclusion) : Text :=
  '<' :: (inclusion.header ++ ['>'])

/-- How the inclusion is written. -/
def text (inclusion : Inclusion) : Text :=
  inclusion.opening ++ inclusion.bracketed

/-- Whether the lexer recognizes the header.  It does not if lines are spliced behind the number
sign.  In front of the number sign a splice even helps: it makes up for a byte-order mark. -/
def IsRecognized (inclusion : Inclusion) (preceding : Text) : Prop :=
  (preceding = Text.byteOrderMark → splices inclusion.beforeSign = true) ∧
    splices inclusion.beforeName = false ∧ splices inclusion.beforeHeader = false

instance (inclusion : Inclusion) (preceding : Text) :
    Decidable (inclusion.IsRecognized preceding) :=
  inferInstanceAs (Decidable (_ ∧ _ ∧ _))

end Inclusion

/-! ## The context of a header -/

namespace LineContext

variable {context : LineContext} {rest : Text}

/-- What stands in front of a number sign leads to the beginning of a line, but for a byte-order
mark without a splice behind it. -/
theorem leads_line {preceding : Text} (opens : Text.OpensLine preceding) (gaps : List Gap)
    (ends : EndsWord isBlank rest) :
    ∃ after, initial.Leads (preceding ++ join gaps) rest after ∧ after.directive = .outside ∧
      (after.atStart = true ↔ (preceding = Text.byteOrderMark → splices gaps = true)) := by
  cases opens with
  | source =>
      refine ⟨_, leads_join initial gaps ends, ?_, ?_⟩
      · cases splices gaps <;> rfl
      · cases splices gaps <;> simp [broken, initial, Text.byteOrderMark]
  | mark =>
      have mark : initial.Leads Text.byteOrderMark (join gaps ++ rest) midLine :=
        leads_mark (by decide) (by decide +kernel) (by decide) (by decide) _ _
      refine ⟨_, mark.trans (leads_join midLine gaps ends), ?_, ?_⟩
      · cases splices gaps <;> rfl
      · cases splices gaps <;> simp [broken, initial, midLine]
  | line lineFeed =>
      have noMark := lineFeed.ne_byteOrderMark
      obtain ⟨tokens, last, split, whole, nonempty, allBlank, lineFeed⟩ := lineFeed.exists_last
      obtain ⟨others, rendered, cut⟩ :
          (initial.behind tokens).Leads (last.text ++ join gaps) rest _ :=
        leads_gaps gaps allBlank ends
      have breaks : (last.text.contains '\n' || splices gaps) = true := by
        rw [List.contains_iff_mem.mpr lineFeed, Bool.true_or]
      rw [breaks] at cut
      refine ⟨initial, ⟨tokens ++ others, ?_, ?_⟩, rfl, by simp [initial, noMark]⟩
      · rw [Token.render_append, rendered, whole, List.append_assoc]
      · rw [List.append_assoc, Token.tokensFrom_append_of_blank split nonempty allBlank,
          ← List.append_assoc, cut, List.append_assoc]
        rfl

/-- The context behind a number sign, which opens a directive at the beginning of a line only. -/
def behindSign (context : LineContext) : LineContext where
  directive := if context.atStart then .opened else .outside
  atStart := false

/-- The context behind the name of an inclusion, which is recognized in a directive only. -/
def behindName (context : LineContext) : LineContext where
  directive := if context.directive = .opened then .inclusion else .outside
  atStart := false

/-- A header is recognized if the number sign is at the beginning of a line, and no line begins
between it and the header. -/
theorem directive_behindName_iff (context : LineContext) (beforeName beforeHeader : Bool) :
    (((context.behindSign.broken beforeName).behindName).broken beforeHeader).directive =
        .inclusion ↔
      context.atStart = true ∧ beforeName = false ∧ beforeHeader = false := by
  cases atStart : context.atStart <;> cases beforeName <;> cases beforeHeader <;>
    simp [broken, behindSign, behindName, initial, atStart]

theorem leads_sign (outside : context.directive = .outside) (rest : Text) :
    context.Leads ['#'] rest context.behindSign := by
  have value : scan context '#' ([] ++ rest) = (.punctuation, [], rest) := by
    cases atStart : context.atStart with
    | true =>
        simp only [scan, atStart, show isBlank '#' = false by decide,
          show ('#' : Char) ≠ '/' by decide, false_and, and_self, if_false, if_true,
          Bool.false_eq_true, List.nil_append]
    | false =>
        exact scan_of_mark (by decide) (by decide) (by decide) (by decide) (by simp [atStart])
          (by simp)
  have leads := Leads.of_scan value
  rw [after, directiveAfter, atStartAfter, outside] at leads
  simpa [behindSign] using leads

theorem leads_name (context : LineContext) {name : Text} (isInclusion : name ∈ inclusionNames)
    (ends : EndsWord isWord rest) : context.Leads name rest context.behindName := by
  have checked : ∀ name ∈ inclusionNames, Character.isIdentifier name = true ∧
      name ∉ Lexeme.encodings ∧ name ∉ Lexeme.rawEncodings := by
    decide
  obtain ⟨identifier, noEncoding, noRawEncoding⟩ := checked name isInclusion
  obtain ⟨first, word, rfl⟩ := List.exists_cons_of_ne_nil (l := name) (by
    rintro rfl
    cases identifier)
  obtain ⟨starts, others⟩ := Bool.and_eq_true_iff.mp identifier
  have allWord : ∀ c ∈ word, isWord c = true := List.all_eq_true.mp others
  have noBlank : isBlank first = false := by
    apply Bool.eq_false_iff.mpr
    intro blank
    rw [isWordStart_of_isWord_eq_false (isWord_of_isBlank blank)] at starts
    cases starts
  by_cases opened : context.directive = .opened
  · have value : scan context first (word ++ rest) = (.punctuation, word, rest) := by
      rw [Token.scan_word context starts noBlank, if_pos opened, ends.takeWhile_append allWord,
        ends.dropWhile_append allWord]
    have leads := Leads.of_scan value
    simp only [after, directiveAfter, atStartAfter, opened,
      List.contains_iff_mem.mpr isInclusion, if_true] at leads
    rw [behindName, if_pos opened]
    exact leads
  · have value : scan context first (word ++ rest) = (.identifier, word, rest) := by
      rw [Token.scan_word context starts noBlank, if_neg opened, ends.takeWhile_append allWord,
        ends.dropWhile_append allWord, Lexeme.encoded_eq_none_of_not_mem noRawEncoding noEncoding]
    rw [behindName, if_neg opened]
    exact Leads.of_scan value

theorem endsWord_join (gaps : List Gap) (rest : Text) :
    EndsWord isWord (join gaps ++ '<' :: rest) := by
  cases gaps with
  | nil => exact .cons (by decide) rest
  | cons gap gaps => cases gap <;> exact .cons (by decide) _

theorem endsBlank_name {name : Text} (isInclusion : name ∈ inclusionNames) (rest : Text) :
    EndsWord isBlank (name ++ rest) := by
  have checked : ∀ name ∈ inclusionNames, name ≠ [] ∧ name.head?.any isBlank = false := by
    decide
  obtain ⟨nonempty, noBlank⟩ := checked name isInclusion
  intro c head
  rw [List.head?_append_of_ne_nil _ nonempty] at head
  rwa [head] at noBlank

end LineContext

namespace Inclusion

variable {preceding : Text}

/-- What stands in front of a header leads to a context in which it is recognized or not. -/
theorem leads_opening (inclusion : Inclusion) (opens : Text.OpensLine preceding) (rest : Text) :
    ∃ after, initial.Leads (preceding ++ inclusion.opening) ('<' :: rest) after ∧
      (after.directive = .inclusion ↔ inclusion.IsRecognized preceding) := by
  let tail := join inclusion.beforeName ++ (inclusion.name ++ join inclusion.beforeHeader)
  have noBlankSign : EndsWord isBlank (['#'] ++ tail ++ '<' :: rest) := .cons (by decide) _
  have noBlankHeader : EndsWord isBlank ('<' :: rest) := .cons (by decide) rest
  obtain ⟨line, first, outside, atStart⟩ :=
    LineContext.leads_line opens inclusion.beforeSign noBlankSign
  have sign := LineContext.leads_sign outside (tail ++ '<' :: rest)
  have second := line.behindSign.leads_join inclusion.beforeName
    (LineContext.endsBlank_name inclusion.isInclusion (join inclusion.beforeHeader ++ '<' :: rest))
  rw [← List.append_assoc] at second
  have name := (line.behindSign.broken (splices inclusion.beforeName)).leads_name
    inclusion.isInclusion (LineContext.endsWord_join inclusion.beforeHeader rest)
  have third := LineContext.leads_join
    (line.behindSign.broken (splices inclusion.beforeName)).behindName inclusion.beforeHeader
    noBlankHeader
  have whole := first.trans (sign.trans (second.trans (name.trans third)))
  rw [List.append_assoc] at whole
  refine ⟨_, whole, ?_⟩
  rw [LineContext.directive_behindName_iff, atStart, IsRecognized]

/-- The bracket in front of a header opens a literal if the header is recognized, and else it is
punctuation, with ordinary text behind it. -/
theorem tokenize_inclusion (inclusion : Inclusion) (opens : Text.OpensLine preceding)
    (following : Text) :
    ∃ before, render before = preceding ++ inclusion.opening ∧
      tokenize (preceding ++ inclusion.text ++ following) = before ++
        if inclusion.IsRecognized preceding then
          { kind := .literal, text := inclusion.bracketed } :: tokensFrom midLine following
        else
          { kind := .punctuation, text := ['<'] } ::
            tokensFrom midLine (inclusion.header ++ '>' :: following) := by
  obtain ⟨after, ⟨before, rendered, cut⟩, recognized⟩ :=
    inclusion.leads_opening opens (inclusion.header ++ '>' :: following)
  have whole : preceding ++ inclusion.text ++ following =
      preceding ++ inclusion.opening ++ '<' :: (inclusion.header ++ '>' :: following) := by
    simp [text, bracketed]
  refine ⟨before, rendered, ?_⟩
  rw [whole, tokenize, cut, ← if_congr recognized rfl rfl]
  split
  · next inside =>
      have extent := Lexeme.headerName_append_of_plain inclusion.closed inclusion.sameLine
        ('>' :: following)
      have value : scan after '<' (inclusion.header ++ '>' :: following) =
          (.literal, inclusion.header ++ ['>'], following) := by
        have closing : Lexeme.headerName ('>' :: following) = (['>'], following) := rfl
        rw [closing] at extent
        simp [scan, inside, extent, show isBlank '<' = false by decide]
      rw [Token.tokensFrom_of_scan value, LineContext.after_eq_midLine (.inr rfl)]
      rfl
  · next outside =>
      have value : scan after '<' (inclusion.header ++ '>' :: following) =
          (.punctuation, [], inclusion.header ++ '>' :: following) :=
        LineContext.scan_of_mark (by decide) (by decide) (by decide) (by decide) (by simp)
          (by simp [outside])
      rw [Token.tokensFrom_of_scan value, LineContext.after_punctuation (by decide)]

end Inclusion

/-! ## Separators around inclusions -/

namespace Guard

variable {guard : Guard} {left right : Text}

/-- Whether no separator begins in a text and ends behind it, whatever follows. -/
def Closes (guard : Guard) (left : Text) : Prop :=
  ∀ right, guard.conceal (left ++ right) = guard.conceal left ++ guard.conceal right

theorem closes_nil (guard : Guard) : guard.Closes [] :=
  fun right => by rw [conceal_nil, List.nil_append, List.nil_append]

theorem Closes.append (first : guard.Closes left) (second : guard.Closes right) :
    guard.Closes (left ++ right) := by
  intro behind
  rw [List.append_assoc, first, second, first, List.append_assoc]

theorem closes_concat (nonempty : guard.separator ≠ []) {c : Char} (outside : c ∉ guard.separator)
    (left : Text) : guard.Closes (left ++ [c]) := by
  intro right
  rw [List.append_assoc, List.singleton_append, conceal_append_cons nonempty outside,
    conceal_append_cons nonempty outside, conceal_nil, List.append_assoc, List.singleton_append]

end Guard

namespace Guard

variable {guard : Guard} (standard : guard.separator = Config.default.separator)

include standard

theorem separator_ne_nil : guard.separator ≠ [] := by
  rw [standard]
  exact List.cons_ne_nil _ _

theorem not_mem_separator {c : Char} (other : c ∉ ['_', '\\', 'n']) : c ∉ guard.separator := by
  rw [standard]
  exact fun member => other (Config.mem_separator_default member)

theorem conceal_of_short {text : Text} (short : text.length < 54) : guard.conceal text = text := by
  apply conceal_of_not_infix
  intro inside
  have length : guard.separator.length = 54 := by rw [standard]; rfl
  have bound := inside.length_le
  omega

theorem closes_of_getLast {text : Text} {c : Char} (last : text.getLast? = some c)
    (other : c ∉ ['_', '\\', 'n']) : guard.Closes text := by
  obtain ⟨front, rfl⟩ := List.getLast?_eq_some_iff.mp last
  exact closes_concat (separator_ne_nil standard) (not_mem_separator standard other) front

/-- No separator goes on behind a text at whose end a line begins. -/
theorem closes_of_opensLine {preceding : Text} (opens : Text.OpensLine preceding) :
    guard.Closes preceding := by
  cases opens with
  | source => exact guard.closes_nil
  | mark => exact closes_of_getLast standard rfl (by decide)
  | line ends =>
      obtain ⟨tokens, last, -, whole, nonempty, allBlank, -⟩ := ends.exists_last
      obtain ⟨front, blank, shape⟩ : ∃ front blank, last.text = front ++ [blank] :=
        ⟨_, _, (List.dropLast_concat_getLast nonempty).symm⟩
      have isBlank : isBlank blank = true := allBlank blank (by simp [shape])
      have ends : preceding.getLast? = some blank := by
        rw [whole, shape, ← List.append_assoc, List.getLast?_concat]
      refine closes_of_getLast standard ends ?_
      intro member
      simp only [List.mem_cons, List.not_mem_nil, or_false] at member
      rcases member with rfl | rfl | rfl <;> exact absurd isBlank (by decide)

/-- A line still begins behind a text in which separators are concealed, if the line in front of it
still ends there. -/
theorem opensLine_conceal {preceding : Text} (opens : Text.OpensLine preceding)
    (stillEnds : Text.EndsLineFeed preceding → Text.EndsLineFeed (guard.conceal preceding)) :
    Text.OpensLine (guard.conceal preceding) ∧
      (guard.conceal preceding = Text.byteOrderMark ↔ preceding = Text.byteOrderMark) := by
  cases opens with
  | source =>
      rw [conceal_nil]
      exact ⟨.source, Iff.rfl⟩
  | mark =>
      rw [conceal_of_short standard (by decide)]
      exact ⟨.mark, Iff.rfl⟩
  | line ends =>
      have still := stillEnds ends
      exact ⟨.line still, iff_of_false still.ne_byteOrderMark ends.ne_byteOrderMark⟩

variable (allowed : Config.isPlaceholder guard.placeholder = true)

include allowed

theorem exists_concealed_gap (gap : Gap) :
    guard.Closes gap.text ∧ ∃ other : Gap, guard.conceal gap.text = other.text ∧
      other.isSplice = gap.isSplice := by
  cases gap with
  | space =>
      exact ⟨closes_of_getLast standard rfl (by decide), .space,
        conceal_of_short standard (by decide), rfl⟩
  | tab =>
      exact ⟨closes_of_getLast standard rfl (by decide), .tab,
        conceal_of_short standard (by decide), rfl⟩
  | splice =>
      exact ⟨closes_of_getLast standard rfl (by decide), .splice,
        conceal_of_short standard (by decide), rfl⟩
  | comment body closed =>
      have nonempty := separator_ne_nil standard
      have slash : '/' ∉ guard.separator := not_mem_separator standard (by decide)
      have star : '*' ∉ guard.separator := not_mem_separator standard (by decide)
      have last : (Gap.comment body closed).text.getLast? = some '/' := by
        rw [Gap.text, List.getLast?_append]
        rfl
      have unmarked : guard.placeholder ∉ ['*', '/'] := by
        have noStar := ne_placeholder_of_ascii allowed (c := '*') (by decide)
        have noSlash := ne_placeholder_of_ascii allowed (c := '/') (by decide)
        simp [noStar.symm, noSlash.symm]
      have stillClosed : ¬ ['*', '/'] <:+: guard.conceal body := by
        intro inside
        obtain ⟨piece, member, inside⟩ :=
          Text.exists_piece_of_infix unmarked (Text.cutAt_ne_nil guard.separator body) inside
        have part := Text.infix_of_mem_intercalate guard.separator member
        rw [Text.intercalate_cutAt] at part
        exact closed (inside.trans part)
      refine ⟨closes_of_getLast standard last (by decide),
        .comment (guard.conceal body) stillClosed, ?_, rfl⟩
      calc guard.conceal ('/' :: '*' :: body ++ ['*', '/'])
          = guard.conceal ([] ++ '/' :: ([] ++ '*' :: (body ++ '*' :: ([] ++ ['/'])))) := by simp
        _ = '/' :: '*' :: guard.conceal body ++ ['*', '/'] := by
            rw [conceal_append_cons nonempty slash, conceal_append_cons nonempty star,
              conceal_append_cons nonempty star, conceal_append_cons nonempty slash]
            simp

theorem exists_concealed_join (gaps : List Gap) :
    guard.Closes (join gaps) ∧ ∃ others, guard.conceal (join gaps) = join others ∧
      splices others = splices gaps := by
  induction gaps with
  | nil => exact ⟨guard.closes_nil, [], guard.conceal_nil, rfl⟩
  | cons gap gaps ih =>
      obtain ⟨closes, other, concealed, splice⟩ := exists_concealed_gap standard allowed gap
      obtain ⟨othersClose, others, othersConcealed, spliced⟩ := ih
      refine ⟨closes.append othersClose, other :: others, ?_, ?_⟩
      · rw [Gap.join_cons, closes, concealed, othersConcealed, Gap.join_cons]
      · rw [Gap.splices_cons, Gap.splices_cons, splice, spliced]

/-- An inclusion in which separators are concealed is an inclusion still, and its header is
recognized as before. -/
theorem exists_concealed_inclusion (inclusion : Inclusion) (following : Text) :
    ∃ other : Inclusion,
      guard.conceal (inclusion.text ++ following) = other.text ++ guard.conceal following ∧
      guard.conceal inclusion.opening = other.opening ∧
      other.header = guard.conceal inclusion.header ∧
      ∀ preceding, other.IsRecognized preceding ↔ inclusion.IsRecognized preceding := by
  obtain ⟨firstCloses, first, firstConcealed, firstSpliced⟩ :=
    exists_concealed_join standard allowed inclusion.beforeSign
  obtain ⟨secondCloses, second, secondConcealed, secondSpliced⟩ :=
    exists_concealed_join standard allowed inclusion.beforeName
  obtain ⟨thirdCloses, third, thirdConcealed, thirdSpliced⟩ :=
    exists_concealed_join standard allowed inclusion.beforeHeader
  have nonempty := separator_ne_nil standard
  have checked : ∀ name ∈ inclusionNames, name.length < 54 ∧
      (name.getLast? = some 'e' ∨ name.getLast? = some 't') := by
    decide
  obtain ⟨short, last⟩ := checked inclusion.name inclusion.isInclusion
  have nameCloses : guard.Closes inclusion.name :=
    last.elim (fun last => closes_of_getLast standard last (by decide))
      fun last => closes_of_getLast standard last (by decide)
  have noBracket : '>' ∉ guard.conceal inclusion.header := fun member =>
    (mem_of_mem_conceal member).elim (ne_placeholder_of_ascii allowed (by decide)) inclusion.closed
  have noLineFeed : '\n' ∉ guard.conceal inclusion.header := fun member =>
    (mem_of_mem_conceal member).elim (ne_placeholder_of_ascii allowed (by decide))
      inclusion.sameLine
  let other : Inclusion :=
    { beforeSign := first
      beforeName := second
      name := inclusion.name
      beforeHeader := third
      header := guard.conceal inclusion.header
      isInclusion := inclusion.isInclusion
      closed := noBracket
      sameLine := noLineFeed }
  have opening : guard.conceal inclusion.opening = other.opening := by
    rw [Inclusion.opening, conceal_append_cons nonempty (not_mem_separator standard (by decide)),
      firstConcealed, secondCloses, secondConcealed, nameCloses, conceal_of_short standard short,
      thirdConcealed]
    rfl
  refine ⟨other, ?_, opening, rfl, ?_⟩
  · have whole : inclusion.text ++ following =
        inclusion.opening ++ '<' :: (inclusion.header ++ '>' :: following) := by
      simp [Inclusion.text, Inclusion.bracketed]
    rw [whole, conceal_append_cons nonempty (not_mem_separator standard (by decide)),
      conceal_append_cons nonempty (not_mem_separator standard (by decide)), opening]
    simp [Inclusion.text, Inclusion.bracketed, other]
  · intro preceding
    simp only [Inclusion.IsRecognized, other, firstSpliced, secondSpliced, thirdSpliced]

end Guard

theorem Guard.restore_bracketed {guard : Guard}
    (allowed : Config.isPlaceholder guard.placeholder = true) {inclusion other : Inclusion}
    (absent : guard.placeholder ∉ inclusion.header)
    (header : other.header = guard.conceal inclusion.header) :
    guard.restore other.bracketed = inclusion.bracketed := by
  have bracket := ne_placeholder_of_ascii allowed (c := '<') (by decide)
  have closing := ne_placeholder_of_ascii allowed (c := '>') (by decide)
  rw [Inclusion.bracketed, header, restore_cons_of_ne bracket, restore_append,
    guard.restore_conceal absent, restore_cons_of_ne closing, restore_nil]
  rfl

/-! ## Rewriting inclusions -/

namespace Convention

variable {convention : Convention}

theorem rewriteTokens_append (left right : List Token) :
    convention.rewriteTokens (left ++ right) =
      convention.rewriteTokens left ++ convention.rewriteTokens right := by
  rw [rewriteTokens, List.map_append, rewriteParts_append]
  rfl

theorem rewriteTokens_cons_of_ne {token : Token} (other : token.kind ≠ .identifier)
    (tokens : List Token) :
    convention.rewriteTokens (token :: tokens) = token.text ++ convention.rewriteTokens tokens := by
  rw [rewriteTokens_cons, newName?, if_neg other, Option.getD_none]

end Convention

namespace Inclusion

/-- The inclusion of a header with an underscore in its name. -/
def underscored (beforeSign beforeName beforeHeader : List Gap) : Inclusion where
  beforeSign := beforeSign
  beforeName := beforeName
  name := "include".toList
  beforeHeader := beforeHeader
  header := ['x', '_', 'y']
  isInclusion := by decide
  closed := by decide
  sameLine := by decide

/-- The inclusion of a header that holds the end of a raw string. -/
def quoting : Inclusion :=
  { underscored [] [] [.space] with
    header := ")\" x_y".toList
    closed := by decide
    sameLine := by decide }

end Inclusion

namespace Config

variable {config : Config}

/-- The lexer takes the header of an inclusion for one literal if no lines are spliced between the
number sign and the header, and if a byte-order mark in front of the number sign is followed by a
splice.  Then a rewriting leaves the header as it is.  In the other cases the bracket is
punctuation, and the header is rewritten as ordinary text.  Concealed separators must not change
that the line begins where it does. -/
theorem rewrite_inclusion (config : Config) (valid : config.validate = .ok ())
    (lexical : config.mode = .lexical) (standard : config.separator = default.separator)
    {preceding : Text} (opens : Text.OpensLine preceding) (inclusion : Inclusion)
    (following : Text) :
    (∃ before, render before = preceding ++ inclusion.opening ∧
      tokenize (preceding ++ inclusion.text ++ following) = before ++
        if inclusion.IsRecognized preceding then
          { kind := .literal, text := inclusion.bracketed } :: tokensFrom midLine following
        else
          { kind := .punctuation, text := ['<'] } ::
            tokensFrom midLine (inclusion.header ++ '>' :: following)) ∧
    (config.placeholder ∉ preceding ++ inclusion.text ++ following →
      (Text.EndsLineFeed preceding → Text.EndsLineFeed (config.conceal preceding)) →
      ∃ rewrite before, config.rewrite (preceding ++ inclusion.text ++ following) = .ok rewrite ∧
        before <+: tokenize (config.conceal (preceding ++ inclusion.text ++ following)) ∧
        render before = config.conceal (preceding ++ inclusion.opening) ∧
        rewrite.content = config.restore (config.rewriteTokens before) ++
          if inclusion.IsRecognized preceding then
            inclusion.bracketed ++
              config.restore (config.rewriteTokens (tokensFrom midLine (config.conceal following)))
          else
            '<' :: config.restore (config.rewriteTokens
              (tokensFrom midLine (config.conceal (inclusion.header ++ '>' :: following))))) := by
  refine ⟨inclusion.tokenize_inclusion opens following, fun absent stillEnds => ?_⟩
  have allowed := (guard_of_validate valid).1
  obtain ⟨stillOpens, sameMark⟩ := Guard.opensLine_conceal standard opens stillEnds
  have closes := Guard.closes_of_opensLine standard opens
  obtain ⟨other, concealed, opening, header, recognized⟩ :=
    Guard.exists_concealed_inclusion standard allowed inclusion following
  obtain ⟨before, rendered, cut⟩ := other.tokenize_inclusion stillOpens (config.conceal following)
  have whole : config.conceal (preceding ++ inclusion.text ++ following) =
      config.conceal preceding ++ other.text ++ config.conceal following := by
    rw [List.append_assoc, closes, concealed, List.append_assoc]
  have sameRecognition : other.IsRecognized (config.conceal preceding) ↔
      inclusion.IsRecognized preceding := by
    rw [recognized, Inclusion.IsRecognized, Inclusion.IsRecognized, sameMark]
  rw [← whole, if_congr sameRecognition rfl rfl] at cut
  have protects := Guard.protect_of_not_mem absent
  have rewritten := Guard.rewriteContentBy_of_protect protects config.toConvention config.mode.parts
  refine ⟨_, before, rewritten, ?_, ?_, ?_⟩
  · rw [cut]
    exact List.prefix_append _ _
  · rw [rendered, closes, opening]
  · change config.restore (config.rewriteParts (config.mode.parts _)) = _
    rw [lexical]
    change config.restore (config.rewriteTokens (tokenize _)) = _
    rw [cut, Convention.rewriteTokens_append, Guard.restore_append]
    split
    · have absentHeader : config.placeholder ∉ inclusion.header := by
        intro inside
        exact absent (by simp [Inclusion.text, Inclusion.bracketed, inside])
      rw [Convention.rewriteTokens_cons_of_ne (by simp), Guard.restore_append,
        Guard.restore_bracketed allowed absentHeader header]
    · have bracket := Guard.ne_placeholder_of_ascii allowed (c := '<') (by decide)
      rw [Convention.rewriteTokens_cons_of_ne (by simp), header,
        Guard.conceal_append_cons (Guard.separator_ne_nil standard)
          (Guard.not_mem_separator standard (by decide)),
        List.singleton_append, Guard.restore_cons_of_ne bracket]

open Inclusion (underscored quoting)

/-- A header behind a line feed, a tab and a comment is kept, and what follows it is rewritten. -/
theorem rewrite_inclusion_line :
    ∃ rewrite before, (unfiltered [] .lexical).rewrite (['\n'] ++
        (underscored [.tab] [] [.comment ['c', '_', 'd'] (by decide)]).text ++
          [' ', 'e', '_', 'f']) = .ok rewrite ∧
      rewrite.content = before ++ ("<x_y>".toList ++ [' ', 'E', 'F']) := by
  have tokens : tokenize ['\n'] = [] ++ [{ kind := .whitespace, text := ['\n'] }] := by cbv
  have ends : Text.EndsLineFeed ['\n'] := ⟨_, _, tokens, rfl, by decide⟩
  have concealed : (unfiltered [] .lexical).conceal ['\n'] = ['\n'] :=
    Guard.conceal_of_short rfl (by decide)
  obtain ⟨rewrite, before, rewritten, -, -, content⟩ :=
    (rewrite_inclusion (unfiltered [] .lexical) (validate_unfiltered [] .lexical) rfl rfl
      (.line ends) (underscored [.tab] [] [.comment ['c', '_', 'd'] (by decide)])
      [' ', 'e', '_', 'f']).2 (by decide) fun ends => by rwa [concealed]
  have behind : (unfiltered [] .lexical).restore ((unfiltered [] .lexical).rewriteTokens
      (tokensFrom midLine ((unfiltered [] .lexical).conceal [' ', 'e', '_', 'f']))) =
        [' ', 'E', 'F'] := by
    cbv
  rw [if_pos (by decide), behind] at content
  exact ⟨rewrite, _, rewritten, content⟩

set_option maxRecDepth 2000 in
/-- Headers that are renamed: behind a splice, behind a byte-order mark, and behind a separator that
keeps a word and a quote from opening a raw string. -/
theorem rewrite_inclusion_missed :
    (unfiltered [] .lexical).validate = .ok () ∧
      (Text.OpensLine [] ∧ ∃ rewrite, (unfiltered [] .lexical).rewrite
          ([] ++ (underscored [] [] [.space, .splice]).text ++ []) = .ok rewrite ∧
        rewrite.content = "#include \\\n<XY>".toList ∧
        { kind := .literal, text := "<x_y>".toList } ∉
          tokenize ([] ++ (underscored [] [] [.space, .splice]).text ++ [])) ∧
      (Text.OpensLine Text.byteOrderMark ∧ ∃ rewrite, (unfiltered [] .lexical).rewrite
          (Text.byteOrderMark ++ (underscored [] [] [.space]).text ++ []) = .ok rewrite ∧
        rewrite.content = Text.byteOrderMark ++ "#include <XY>".toList ∧
        { kind := .literal, text := "<x_y>".toList } ∉
          tokenize (Text.byteOrderMark ++ (underscored [] [] [.space]).text ++ [])) ∧
      (Text.OpensLine ((unfiltered [] .lexical).separator ++ "R\"(\n".toList) ∧ ∃ rewrite,
        (unfiltered [] .lexical).rewrite ((unfiltered [] .lexical).separator ++ "R\"(\n".toList ++
          quoting.text ++ []) = .ok rewrite ∧
        rewrite.content = (unfiltered [] .lexical).separator ++
          "R\"(\n#include <)\" XY>".toList) := by
  have spliced : (unfiltered [] .lexical).rewrite
      ([] ++ (underscored [] [] [.space, .splice]).text ++ []) =
        .ok { content := "#include \\\n<XY>".toList
              replacements := 1
              renames := Index.ofList [(['x', '_', 'y'], ['X', 'Y'])] } := by
    cbv
  have marked : (unfiltered [] .lexical).rewrite
      (Text.byteOrderMark ++ (underscored [] [] [.space]).text ++ []) =
        .ok { content := Text.byteOrderMark ++ "#include <XY>".toList
              replacements := 1
              renames := Index.ofList [(['x', '_', 'y'], ['X', 'Y'])] } := by
    cbv
  have raw : (unfiltered [] .lexical).rewrite ((unfiltered [] .lexical).separator ++
      "R\"(\n".toList ++ quoting.text ++ []) =
        .ok { content := (unfiltered [] .lexical).separator ++ "R\"(\n#include <)\" XY>".toList
              replacements := 1
              renames := Index.ofList [(['x', '_', 'y'], ['X', 'Y'])] } := by
    cbv
  have rawTokens : tokenize ((unfiltered [] .lexical).separator ++ "R\"(\n".toList) =
      [{ kind := .identifier, text := List.replicate 50 '_' },
        { kind := .punctuation, text := ['\\'] }, { kind := .identifier, text := ['n'] },
        { kind := .punctuation, text := ['\\'] }, { kind := .identifier, text := "nR".toList },
        { kind := .literal, text := "\"(".toList }] ++
          [{ kind := .whitespace, text := ['\n'] }] := by
    cbv
  have splicedTokens : (tokenize ([] ++ (underscored [] [] [.space, .splice]).text ++ [])).map
      Token.text = ["#".toList, "include".toList, " ".toList, "\\".toList, "\n".toList, "<".toList,
        "x_y".toList, ">".toList] := by
    cbv
  have markedTokens : (tokenize (Text.byteOrderMark ++ (underscored [] [] [.space]).text ++ [])).map
      Token.text = [Text.byteOrderMark, "#".toList, "include".toList, " ".toList, "<".toList,
        "x_y".toList, ">".toList] := by
    cbv
  refine ⟨validate_unfiltered [] .lexical, ⟨.source, _, spliced, rfl, fun member => ?_⟩,
    ⟨.mark, _, marked, rfl, fun member => ?_⟩,
    ⟨.line ⟨_, _, rawTokens, rfl, by decide⟩, _, raw, rfl⟩⟩
  · have inside := List.mem_map_of_mem member (f := Token.text)
    rw [splicedTokens] at inside
    exact absurd inside (by decide)
  · have inside := List.mem_map_of_mem member (f := Token.text)
    rw [markedTokens] at inside
    exact absurd inside (by decide)

end Config

end Recase
