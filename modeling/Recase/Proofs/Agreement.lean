import Recase.Proofs.Bounds
import Recase.Proofs.Marking
import Recase.Proofs.Numerals
import Mathlib

/-!
# Words in both modes

On a text of names, white space and punctuation the lexer finds the words of the text, but with the
numerals cut off that a word begins with.  The two modes come to the same on such a text if and only
if nothing changes in the words that begin with a numeral.
-/

namespace Recase

open Character (isWord isWordStart isBlank isRecent isTextWord)
open Token (tokensFrom scan next tokenize render)

/-! ## Parts that come to the same -/

namespace Convention

variable {convention : Convention}

theorem rewriteParts_append (left right : List Part) :
    convention.rewriteParts (left ++ right) =
      convention.rewriteParts left ++ convention.rewriteParts right :=
  List.flatMap_append

theorem changes_append (left right : List Part) :
    convention.changes (left ++ right) = convention.changes left ++ convention.changes right :=
  List.filterMap_append

end Convention

namespace Part

/-- Whether parts come to the same under every convention. -/
structure Interchangeable (left right : List Part) : Prop where
  content (convention : Convention) : convention.rewriteParts left = convention.rewriteParts right
  changes (convention : Convention) : convention.changes left = convention.changes right

namespace Interchangeable

variable {left middle right : List Part}

theorem refl (parts : List Part) : Interchangeable parts parts :=
  ⟨fun _ => rfl, fun _ => rfl⟩

theorem symm (same : Interchangeable left right) : Interchangeable right left :=
  ⟨fun convention => (same.content convention).symm,
    fun convention => (same.changes convention).symm⟩

theorem trans (first : Interchangeable left middle) (second : Interchangeable middle right) :
    Interchangeable left right :=
  ⟨fun convention => (first.content convention).trans (second.content convention),
    fun convention => (first.changes convention).trans (second.changes convention)⟩

theorem append (front : List Part) (behind : Interchangeable left right) :
    Interchangeable (front ++ left) (front ++ right) := by
  constructor
  · intro convention
    rw [Convention.rewriteParts_append, Convention.rewriteParts_append, behind.content]
  · intro convention
    rw [Convention.changes_append, Convention.changes_append, behind.changes]

theorem cut (first second : Text) (parts : List Part) :
    Interchangeable ({ isName := false, text := first ++ second } :: parts)
      ({ isName := false, text := first } :: { isName := false, text := second } :: parts) := by
  constructor
  · intro convention
    simp only [Convention.rewriteParts_other, List.append_assoc]
  · intro convention
    simp only [Convention.changes_other]

theorem nil (isName : Bool) (parts : List Part) :
    Interchangeable ({ isName, text := [] } :: parts) parts := by
  have unchanged (convention : Convention) : convention.rename? [] = none :=
    Convention.rename?_of_not_mem List.not_mem_nil
  cases isName with
  | false =>
      constructor
      · intro convention
        rw [Convention.rewriteParts_other, List.nil_append]
      · intro convention
        rw [Convention.changes_other]
  | true =>
      constructor
      · intro convention
        rw [Convention.rewriteParts_name, unchanged, Option.getD_none, List.nil_append]
      · intro convention
        rw [Convention.changes_name_of_none (unchanged convention)]

end Interchangeable

/-! ## Words without the numerals in front -/

/-- What is left of a word behind the numerals that it begins with. -/
def behindNumerals (word : Text) : Text :=
  word.dropWhile fun c => !isWordStart c

/-- A part with the numerals cut off that it begins with, if it is a name. -/
def cutNumerals (part : Part) : List Part :=
  if part.isName then
    [{ isName := false, text := part.text.takeWhile fun c => !isWordStart c },
      { isName := true, text := behindNumerals part.text }]
  else [part]

theorem cutNumerals_name (word : Text) : cutNumerals { isName := true, text := word } =
    [{ isName := false, text := word.takeWhile fun c => !isWordStart c },
      { isName := true, text := behindNumerals word }] := rfl

theorem cutNumerals_push {c : Char} (noWord : isWord c = false) (parts : List Part) :
    Interchangeable ((push isWord c parts).flatMap cutNumerals)
      ({ isName := false, text := [c] } :: parts.flatMap cutNumerals) := by
  cases parts with
  | nil =>
      simp only [push, noWord, List.flatMap_cons, cutNumerals, Bool.false_eq_true, if_false]
      exact .refl _
  | cons part parts =>
      cases name : part.isName with
      | false =>
          simp only [push, name, noWord, List.flatMap_cons, cutNumerals, Bool.false_eq_true,
            if_false, if_true, List.singleton_append]
          have same : part = { isName := false, text := part.text } := by rw [← name]
          rw [same]
          exact .cut [c] part.text (parts.flatMap cutNumerals)
      | true =>
          simp only [push, name, noWord, List.flatMap_cons, Bool.true_eq_false, if_false]
          exact .refl _

end Part

/-! ## Plain texts -/

theorem isBlank_eq_false_of_isWord {c : Char} (inWord : isWord c = true) : isBlank c = false := by
  apply Bool.eq_false_iff.mpr
  intro blank
  rw [isWord_of_isBlank blank] at inWord
  cases inWord

namespace LineContext

/-- Only a number sign begins a directive. -/
theorem directive_after {context : LineContext} (outside : context.directive = .outside)
    {token : Token} (noSign : token.text ≠ ['#']) : (context.after token).directive = .outside := by
  cases kind : token.kind <;> simp [after, directiveAfter, kind, outside, noSign]

end LineContext

namespace Token

/-- Whether a token is a name, white space or punctuation. -/
def IsPlain (token : Token) : Prop :=
  token.kind = .identifier ∨ token.kind = .whitespace ∨ token.kind = .punctuation

/-- Of the line only the directive matters to what is no number sign. -/
theorem scan_of_directive (left right : LineContext) (same : left.directive = right.directive)
    {first : Char} (noSign : first ≠ '#') (rest : Text) :
    scan left first rest = scan right first rest := by
  obtain ⟨directive, leftStart⟩ := left
  obtain ⟨other, rightStart⟩ := right
  change directive = other at same
  subst same
  simp only [scan, noSign, false_and]

theorem tokensFrom_of_outside {context : LineContext} (outside : context.directive = .outside)
    {text : Text} (noSign : '#' ∉ text) :
    tokensFrom context text = tokensFrom .midLine text := by
  induction length : text.length using Nat.strong_induction_on generalizing context text with
  | h size ih =>
      cases text with
      | nil => rw [tokensFrom, tokensFrom]
      | cons first rest =>
          have noSignFirst : first ≠ '#' := by
            rintro rfl
            exact noSign List.mem_cons_self
          have same : next context first rest = next .midLine first rest := by
            rw [next, next, scan_of_directive context .midLine outside noSignFirst]
          have whole := next_append .midLine first rest
          have shorter : (next .midLine first rest).2.length < size := by
            have bound := length_next .midLine first rest
            rw [List.length_cons] at length
            omega
          rw [tokensFrom_cons, tokensFrom_cons, same]
          generalize next .midLine first rest = found at whole shorter
          obtain ⟨token, behind⟩ := found
          rw [← whole, List.mem_append, not_or] at noSign
          have noSignToken : token.text ≠ ['#'] := by
            intro sign
            exact noSign.1 (by rw [sign]; exact List.mem_cons_self)
          rw [ih _ shorter (LineContext.directive_after outside noSignToken) noSign.2 rfl,
            ih _ shorter (LineContext.directive_after rfl noSignToken) noSign.2 rfl]

variable {first : Char} {rest : Text}

/-- The tokens of a line without number signs are found one behind the other. -/
theorem tokensFrom_midLine (noSign : '#' ∉ first :: rest) {kind : Kind} {body behind : Text}
    (value : scan .midLine first rest = (kind, body, behind)) :
    tokensFrom .midLine (first :: rest) =
      { kind, text := first :: body } :: tokensFrom .midLine behind := by
  have whole : body ++ behind = rest := by
    have parts := scan_append .midLine first rest
    rwa [value] at parts
  rw [← whole, ← List.cons_append, List.mem_append, not_or] at noSign
  have noSignToken : first :: body ≠ ['#'] := by
    intro sign
    exact noSign.1 (by rw [sign]; exact List.mem_cons_self)
  rw [tokensFrom_of_scan value,
    tokensFrom_of_outside (LineContext.directive_after rfl noSignToken) noSign.2]

theorem scan_of_isBlank (context : LineContext) (blank : isBlank first = true) (rest : Text) :
    scan context first rest = (.whitespace, rest.takeWhile isBlank, rest.dropWhile isBlank) := by
  rw [scan, if_pos blank]

/-- A plain token that no white space and no name begins is a single character. -/
theorem scan_of_sign (plain : (next .midLine first rest).1.IsPlain)
    (noBlank : isBlank first = false) (noStart : isWordStart first = false) :
    scan .midLine first rest = (.punctuation, [], rest) := by
  have begins := begins_scan .midLine first rest
  rw [next] at plain
  generalize scan .midLine first rest = found at begins plain
  cases begins with
  | whitespace blank =>
      rw [noBlank] at blank
      cases blank
  | comment extent => simp [IsPlain] at plain
  | literal extent => simp [IsPlain] at plain
  | directive starts =>
      rw [noStart] at starts
      cases starts
  | identifier starts =>
      rw [noStart] at starts
      cases starts
  | punctuation => rfl

/-- A plain token that a letter or an underscore begins is a name. -/
theorem scan_of_start (plain : (next .midLine first rest).1.IsPlain)
    (starts : isWordStart first = true) :
    scan .midLine first rest = (.identifier, rest.takeWhile isWord, rest.dropWhile isWord) := by
  have noBlank := isBlank_eq_false_of_isWord (Character.isWord_of_isWordStart starts)
  have value := scan_word .midLine starts noBlank rest
  rw [if_neg (by decide)] at value
  rw [next, value] at plain
  rw [value]
  cases found : Lexeme.encoded (first :: rest.takeWhile isWord) (rest.dropWhile isWord) with
  | none => rfl
  | some extent =>
      rw [found] at plain
      simp [IsPlain] at plain

end Token

namespace Part

/-- The parts that the lexer finds in the middle of a line. -/
def ofLine (text : Text) : List Part :=
  (tokensFrom .midLine text).map ofToken

/-- Whether a text holds nothing but names, white space and punctuation, and no number sign. -/
structure IsPlain (text : Text) : Prop where
  noSign : '#' ∉ text
  tokens : ∀ token ∈ tokensFrom .midLine text, token.IsPlain

variable {first : Char} {rest : Text}

theorem ofLine_cons (noSign : '#' ∉ first :: rest) {kind : Token.Kind} {body behind : Text}
    (value : scan .midLine first rest = (kind, body, behind)) :
    ofLine (first :: rest) = ofToken { kind, text := first :: body } :: ofLine behind := by
  rw [ofLine, Token.tokensFrom_midLine noSign value, List.map_cons, ofLine]

theorem isPlain_cons_iff (noSign : '#' ∉ first :: rest) {kind : Token.Kind} {body behind : Text}
    (value : scan .midLine first rest = (kind, body, behind)) :
    IsPlain (first :: rest) ↔
      Token.IsPlain { kind, text := first :: body } ∧ IsPlain behind := by
  have tokens : (∀ token ∈ tokensFrom .midLine (first :: rest), token.IsPlain) ↔
      Token.IsPlain { kind, text := first :: body } ∧
        ∀ token ∈ tokensFrom .midLine behind, token.IsPlain := by
    rw [Token.tokensFrom_midLine noSign value, List.forall_mem_cons]
  have noSignBehind : '#' ∉ behind := by
    intro inside
    have parts := Token.scan_append .midLine first rest
    rw [value] at parts
    apply noSign
    rw [← parts]
    exact List.mem_cons_of_mem first (List.mem_append_right body inside)
  constructor
  · intro plain
    obtain ⟨token, others⟩ := tokens.mp plain.tokens
    exact ⟨token, noSignBehind, others⟩
  · rintro ⟨token, behind⟩
    exact ⟨noSign, tokens.mpr ⟨token, behind.tokens⟩⟩

namespace IsPlain

theorem firstToken (plain : IsPlain (first :: rest)) : (next .midLine first rest).1.IsPlain :=
  ((isPlain_cons_iff plain.noSign rfl).mp plain).1

theorem blank (plain : IsPlain (first :: rest)) (white : isBlank first = true) :
    IsPlain rest ∧
      Interchangeable (ofLine (first :: rest))
        ({ isName := false, text := [first] } :: ofLine rest) := by
  have value := Token.scan_of_isBlank .midLine white rest
  cases rest with
  | nil =>
      rw [ofLine_cons plain.noSign value]
      exact ⟨((isPlain_cons_iff plain.noSign value).mp plain).2, .refl _⟩
  | cons second rest =>
      by_cases more : isBlank second = true
      · have noSign : '#' ∉ second :: rest :=
          fun inside => plain.noSign (List.mem_cons_of_mem first inside)
        have secondValue := Token.scan_of_isBlank .midLine more rest
        rw [List.takeWhile_cons_of_pos more, List.dropWhile_cons_of_pos more] at value
        rw [ofLine_cons plain.noSign value, ofLine_cons noSign secondValue]
        constructor
        · apply (isPlain_cons_iff noSign secondValue).mpr
          exact ⟨.inr (.inl rfl), ((isPlain_cons_iff plain.noSign value).mp plain).2⟩
        · exact .cut [first] (second :: rest.takeWhile isBlank) _
      · rw [List.takeWhile_cons_of_neg more, List.dropWhile_cons_of_neg more] at value
        rw [ofLine_cons plain.noSign value]
        exact ⟨((isPlain_cons_iff plain.noSign value).mp plain).2, .refl _⟩

theorem sign (plain : IsPlain (first :: rest)) (noBlank : isBlank first = false)
    (noStart : isWordStart first = false) :
    IsPlain rest ∧
      ofLine (first :: rest) = { isName := false, text := [first] } :: ofLine rest := by
  have value := Token.scan_of_sign plain.firstToken noBlank noStart
  exact ⟨((isPlain_cons_iff plain.noSign value).mp plain).2, ofLine_cons plain.noSign value⟩

/-- A word comes to the same as the numerals in front of it and what is behind them. -/
theorem word {word rest : Text} (plain : IsPlain (word ++ rest))
    (allWord : ∀ c ∈ word, isWord c = true) (ends : EndsWord isWord rest) :
    IsPlain rest ∧
      Interchangeable (ofLine (word ++ rest))
        (cutNumerals { isName := true, text := word } ++ ofLine rest) := by
  induction word with
  | nil =>
      refine ⟨plain, ?_⟩
      exact ((Interchangeable.nil false _).trans (.nil true _)).symm
  | cons c word ih =>
      have inWord := allWord c List.mem_cons_self
      have others : ∀ d ∈ word, isWord d = true :=
        fun d member => allWord d (List.mem_cons_of_mem c member)
      rw [List.cons_append] at plain ⊢
      cases starts : isWordStart c with
      | true =>
          have value := Token.scan_of_start plain.firstToken starts
          rw [ends.takeWhile_append others, ends.dropWhile_append others] at value
          refine ⟨((isPlain_cons_iff plain.noSign value).mp plain).2, ?_⟩
          have whole : cutNumerals { isName := true, text := c :: word } =
              [{ isName := false, text := [] }, { isName := true, text := c :: word }] := by
            simp [cutNumerals_name, behindNumerals, starts]
          rw [ofLine_cons plain.noSign value, whole]
          exact (Interchangeable.nil false _).symm
      | false =>
          obtain ⟨next, numeral⟩ := plain.sign (isBlank_eq_false_of_isWord inWord) starts
          obtain ⟨behind, same⟩ := ih next others
          refine ⟨behind, ?_⟩
          have whole : cutNumerals { isName := true, text := c :: word } =
              [{ isName := false, text := c :: word.takeWhile fun c => !isWordStart c },
                { isName := true, text := behindNumerals word }] := by
            simp [cutNumerals_name, behindNumerals, starts]
          rw [numeral, whole]
          refine (same.append [{ isName := false, text := [c] }]).trans ?_
          exact (Interchangeable.cut [c] _ _).symm

/-- The names of a plain text come to the same as its words without the numerals in front. -/
theorem interchangeable {text : Text} (plain : IsPlain text) :
    Interchangeable (ofLine text) ((ofWords isWord text).flatMap cutNumerals) := by
  induction text using wordInduction isWord with
  | nil =>
      rw [ofLine, tokensFrom]
      exact .refl []
  | other c rest noWord ih =>
      rw [ofWords_cons]
      refine .trans ?_ (cutNumerals_push noWord (ofWords isWord rest)).symm
      cases blank : isBlank c with
      | true =>
          obtain ⟨behind, same⟩ := plain.blank blank
          exact same.trans ((ih behind).append [{ isName := false, text := [c] }])
      | false =>
          obtain ⟨behind, same⟩ := plain.sign blank (isWordStart_of_isWord_eq_false noWord)
          rw [same]
          exact (ih behind).append [{ isName := false, text := [c] }]
  | word word rest nonempty allWord ends ih =>
      obtain ⟨behind, same⟩ := plain.word allWord ends
      rw [ofWords_word nonempty allWord ends, List.flatMap_cons]
      exact same.trans ((ih behind).append (cutNumerals { isName := true, text := word }))

end IsPlain

end Part

/-! ## Where both modes agree -/

theorem Index.find_ne_none_iff {α : Type} {key : Text} {entries : List (Text × α)} :
    find key entries ≠ none ↔ ∃ entry ∈ entries, entry.1 = key := by
  induction entries with
  | nil => simp [find]
  | cons entry entries ih =>
      rw [find]
      split
      · next same => simp [same]
      · next different =>
          rw [ih, List.exists_mem_cons_iff, or_iff_right fun same => different same.symm]

theorem Part.behindNumerals_behindNumerals (word : Text) :
    behindNumerals (behindNumerals word) = behindNumerals word :=
  List.dropWhile_idempotent _ word

namespace Convention

variable {convention : Convention} {parts : List Part}

theorem mem_changes_iff {change : Text × Text} : change ∈ convention.changes parts ↔
    ∃ part ∈ parts, part.isName = true ∧ part.text = change.1 ∧
      convention.rename? part.text = some change.2 := by
  obtain ⟨name, new⟩ := change
  rw [changes, List.mem_filterMap]
  apply exists_congr
  intro part
  apply and_congr_right
  intro _
  rw [change?, Option.ite_none_right_eq_some, Option.map_eq_some_iff]
  apply and_congr_right
  intro _
  constructor
  · rintro ⟨found, renamed, same⟩
    cases same
    exact ⟨rfl, renamed⟩
  · rintro ⟨same, renamed⟩
    exact ⟨new, renamed, by rw [same]⟩

/-- Whether nothing changes in a part that begins with a numeral: neither the part itself nor what
is behind its numerals. -/
def KeepsNumerals (convention : Convention) (part : Part) : Prop :=
  part.isName = true → Part.behindNumerals part.text ≠ part.text →
    convention.rename? part.text = none ∧
      convention.rename? (Part.behindNumerals part.text) = none

/-- A part that begins with no numeral comes to the same without numerals, and so does one in which
nothing changes. -/
theorem cutNumerals_of_keepsNumerals {part : Part} (kept : convention.KeepsNumerals part) :
    convention.rewriteParts part.cutNumerals = convention.rewriteParts [part] ∧
      convention.changes part.cutNumerals = convention.changes [part] := by
  obtain ⟨isName, text⟩ := part
  cases isName with
  | false => exact ⟨rfl, rfl⟩
  | true =>
      have whole : text.takeWhile (fun c => !isWordStart c) ++ Part.behindNumerals text = text :=
        List.takeWhile_append_dropWhile
      rw [Part.cutNumerals_name, rewriteParts_other, changes_other]
      by_cases same : Part.behindNumerals text = text
      · have nothing : text.takeWhile (fun c => !isWordStart c) = [] := by simpa [same] using whole
        rw [nothing, same]
        exact ⟨rfl, rfl⟩
      · obtain ⟨unchanged, unchangedBehind⟩ := kept rfl same
        constructor
        · rw [rewriteParts_name, rewriteParts_name, unchanged, unchangedBehind, Option.getD_none,
            Option.getD_none, ← List.append_assoc, whole]
        · rw [changes_name_of_none unchanged, changes_name_of_none unchangedBehind]

theorem flatMap_cutNumerals (kept : ∀ part ∈ parts, convention.KeepsNumerals part) :
    convention.rewriteParts (parts.flatMap Part.cutNumerals) = convention.rewriteParts parts ∧
      convention.changes (parts.flatMap Part.cutNumerals) = convention.changes parts := by
  induction parts with
  | nil => exact ⟨rfl, rfl⟩
  | cons part parts ih =>
      obtain ⟨keptFirst, others⟩ := List.forall_mem_cons.mp kept
      obtain ⟨sameText, sameChanges⟩ := cutNumerals_of_keepsNumerals keptFirst
      obtain ⟨laterText, laterChanges⟩ := ih others
      rw [List.flatMap_cons, ← List.singleton_append]
      constructor
      · rw [rewriteParts_append, rewriteParts_append, sameText, laterText]
      · rw [changes_append, changes_append, sameChanges, laterChanges]

/-- A word that begins with a numeral is not recorded if the names behind the numerals are. -/
theorem rename?_eq_none_of_renames
    (same : Index.ofList (convention.changes (parts.flatMap Part.cutNumerals)) =
      Index.ofList (convention.changes parts))
    {part : Part} (member : part ∈ parts) (name : part.isName = true)
    (numeral : Part.behindNumerals part.text ≠ part.text) :
    convention.rename? part.text = none := by
  by_contra changes
  obtain ⟨new, renamed⟩ := Option.ne_none_iff_exists'.mp changes
  have recorded : Index.find part.text (convention.changes parts) ≠ none :=
    Index.find_ne_none_iff.mpr
      ⟨(part.text, new), mem_changes_iff.mpr ⟨part, member, name, rfl, renamed⟩, rfl⟩
  rw [← Index.get?_ofList, ← same, Index.get?_ofList, Index.find_ne_none_iff] at recorded
  obtain ⟨entry, entryMember, key⟩ := recorded
  obtain ⟨piece, pieceMember, pieceName, pieceText, -⟩ := mem_changes_iff.mp entryMember
  obtain ⟨origin, -, pieceMember⟩ := List.mem_flatMap.mp pieceMember
  have behind : Part.behindNumerals piece.text = piece.text := by
    rw [Part.cutNumerals] at pieceMember
    split at pieceMember
    · rcases List.mem_pair.mp pieceMember with rfl | rfl
      · cases pieceName
      · exact Part.behindNumerals_behindNumerals origin.text
    · next other =>
        rw [List.mem_singleton.mp pieceMember] at pieceName
        exact absurd pieceName other
  rw [pieceText, key] at behind
  exact numeral behind

/-- If a word that begins with a numeral is not changed, but something changes in it, then that is
behind the numerals. -/
theorem keepsNumerals_or_length_lt {part : Part}
    (unchanged : part.isName = true → Part.behindNumerals part.text ≠ part.text →
      convention.rename? part.text = none) :
    convention.KeepsNumerals part ∨
      (convention.changes [part]).length < (convention.changes part.cutNumerals).length := by
  by_cases kept : convention.KeepsNumerals part
  · exact .inl kept
  · right
    obtain ⟨isName, text⟩ := part
    simp only [KeepsNumerals, not_forall] at kept
    obtain ⟨name, numeral, changes⟩ := kept
    have none := unchanged name numeral
    obtain ⟨new, renamed⟩ := Option.ne_none_iff_exists'.mp fun behind => changes ⟨none, behind⟩
    change isName = true at name
    subst name
    rw [Part.cutNumerals_name, changes_name_of_none none, changes_other,
      changes_name_of_some renamed]
    exact Nat.zero_lt_succ 0

/-- If no word that begins with a numeral is changed, then behind the numerals just as many names
change only if nothing changes in these words. -/
theorem keepsNumerals_of_length
    (unchanged : ∀ part ∈ parts, part.isName = true →
      Part.behindNumerals part.text ≠ part.text → convention.rename? part.text = none) :
    (convention.changes parts).length ≤
        (convention.changes (parts.flatMap Part.cutNumerals)).length ∧
      ((convention.changes (parts.flatMap Part.cutNumerals)).length =
          (convention.changes parts).length →
        ∀ part ∈ parts, convention.KeepsNumerals part) := by
  induction parts with
  | nil => exact ⟨Nat.le_refl 0, fun _ _ member => absurd member List.not_mem_nil⟩
  | cons part parts ih =>
      obtain ⟨unchangedFirst, others⟩ := List.forall_mem_cons.mp unchanged
      obtain ⟨fewer, keptBehind⟩ := ih others
      rw [List.flatMap_cons, ← List.singleton_append, changes_append, changes_append,
        List.length_append, List.length_append]
      rcases keepsNumerals_or_length_lt unchangedFirst with kept | more
      · have same := congrArg List.length (cutNumerals_of_keepsNumerals kept).2
        constructor
        · omega
        · intro equal
          rw [List.singleton_append, List.forall_mem_cons]
          exact ⟨kept, keptBehind (by omega)⟩
      · constructor
        · omega
        · intro equal
          omega

end Convention

/-- In a plain text the two ways to find names come to the same if and only if nothing changes in
words that begin with a numeral. -/
theorem rewriteContentBy_eq_iff {guard : Guard} (convention : Convention) {content text : Text}
    (concealed : guard.protect content = .ok text) (plain : Part.IsPlain text) :
    rewriteContentBy guard convention Mode.lexical.parts content =
        rewriteContentBy guard convention (Part.ofWords isWord) content ↔
      ∀ part ∈ Part.ofWords isWord text, convention.KeepsNumerals part := by
  have found : Mode.lexical.parts text = Part.ofLine text :=
    congrArg (List.map Part.ofToken) (Token.tokensFrom_of_outside rfl plain.noSign)
  have same := plain.interchangeable
  rw [Guard.rewriteContentBy_of_protect concealed, Guard.rewriteContentBy_of_protect concealed,
    Convention.rewriteBy, Convention.rewriteBy, found, same.content, same.changes]
  constructor
  · intro equal
    have rewrites := Except.ok.inj equal
    have renames := congrArg Rewrite.renames rewrites
    have replacements := congrArg Rewrite.replacements rewrites
    refine (Convention.keepsNumerals_of_length fun part member name numeral => ?_).2 replacements
    exact Convention.rename?_eq_none_of_renames renames member name numeral
  · intro kept
    obtain ⟨sameText, sameChanges⟩ := Convention.flatMap_cutNumerals kept
    rw [sameText, sameChanges]

theorem Part.ofWords_congr {left right : Char → Bool} {text : Text}
    (same : ∀ c ∈ text, left c = right c) : ofWords left text = ofWords right text := by
  induction text with
  | nil => rfl
  | cons c rest ih =>
      obtain ⟨sameFirst, others⟩ := List.forall_mem_cons.mp same
      rw [ofWords_cons, ofWords_cons, ih others]
      unfold push
      rw [sameFirst]

theorem Guard.mem_of_mem_conceal {guard : Guard} {content : Text} {c : Char}
    (member : c ∈ guard.conceal content) : c = guard.placeholder ∨ c ∈ content := by
  rcases Text.mem_intercalate member with placeholder | ⟨piece, pieceMember, inside⟩
  · exact .inl (List.mem_singleton.mp placeholder)
  · right
    have part := Text.infix_of_mem_intercalate guard.separator pieceMember
    rw [Guard.pieces, Text.intercalate_cutAt] at part
    exact part.subset inside

namespace Config

variable {config : Config} {content : Text}

/-- With its separators concealed, too, a text without number signs holds none. -/
theorem isPlain_conceal (valid : config.validate = .ok ()) (noSign : '#' ∉ content)
    (tokens : ∀ token ∈ tokenize (config.conceal content), token.IsPlain) :
    Part.IsPlain (config.conceal content) := by
  have noSignConcealed : '#' ∉ config.conceal content := by
    intro inside
    rcases Guard.mem_of_mem_conceal inside with sign | inContent
    · have placeholder := (guard_of_validate valid).1
      rw [← sign] at placeholder
      exact absurd placeholder (by decide)
    · exact noSign inContent
  refine ⟨noSignConcealed, ?_⟩
  rwa [tokenize, Token.tokensFrom_of_outside rfl noSignConcealed] at tokens

/-- The words of running text are all words if no character is too recent. -/
theorem ofWords_conceal (valid : config.validate = .ok ())
    (old : ∀ c ∈ content, isRecent c = false) :
    Part.ofWords isTextWord (config.conceal content) =
      Part.ofWords isWord (config.conceal content) := by
  apply Part.ofWords_congr
  intro c member
  rcases Guard.mem_of_mem_conceal member with rfl | inContent
  · rw [isTextWord, isWord_eq_false_of_isPlaceholder (guard_of_validate valid).1, Bool.false_and]
  · rw [isTextWord, old c inContent, Bool.not_false, Bool.and_true]

/-- A content that holds nothing but names, white space and punctuation, no number sign and no
placeholder, under valid settings. -/
structure Plain (config : Config) (content : Text) : Prop where
  valid : config.validate = .ok ()
  absent : config.placeholder ∉ content
  noSign : '#' ∉ content
  tokens : ∀ token ∈ tokenize (config.conceal content), token.IsPlain

/-- What the two ways to find names in a content have in common.  An identifier is a longest run of
word characters unless a numeral stands in front of it, and then it is also one of the names that
are found in text mode, characters apart that are too recent.  On a plain content the two modes come
to the same if and only if nothing changes in words that begin with a numeral. -/
structure ModesAgree (config : Config) (content : Text) : Prop where
  isRun_iff : ∀ before token behind, tokenize content = before ++ token :: behind →
    token.kind = .identifier →
      (IsRun isWord (render before) token.text (render behind) ↔
        ∀ last, before.getLast? = some last → ¬ last.IsNumeral)
  names : ∀ before token behind, tokenize content = before ++ token :: behind →
    token.kind = .identifier → IsRun isWord (render before) token.text (render behind) →
      (∀ c ∈ token.text, isRecent c = false) →
        Mode.text.parts content = Mode.text.parts (render before) ++
          { isName := true, text := token.text } :: Mode.text.parts (render behind)
  words_iff : config.Plain content →
    (rewriteContentBy config.toGuard config.toConvention Mode.lexical.parts content =
        rewriteContentBy config.toGuard config.toConvention (Part.ofWords isWord) content ↔
      ∀ part ∈ Part.ofWords isWord (config.conceal content), config.KeepsNumerals part)
  rewrites_iff : config.Plain content → (∀ c ∈ content, isRecent c = false) →
    ({ config with mode := .lexical }.rewrite content =
        { config with mode := .text }.rewrite content ↔
      ∀ part ∈ Part.ofWords isWord (config.conceal content), config.KeepsNumerals part)

theorem rewriteContentBy_eq_iff_of_plain {config : Config} {content : Text}
    (plain : config.Plain content) :
    rewriteContentBy config.toGuard config.toConvention Mode.lexical.parts content =
        rewriteContentBy config.toGuard config.toConvention (Part.ofWords isWord) content ↔
      ∀ part ∈ Part.ofWords isWord (config.conceal content), config.KeepsNumerals part :=
  rewriteContentBy_eq_iff config.toConvention (Guard.protect_of_not_mem plain.absent)
    (isPlain_conceal plain.valid plain.noSign plain.tokens)

/-- The two modes find the same names as far as numerals and recent characters let them. -/
theorem modes_agree_iff (config : Config) (content : Text) : config.ModesAgree content := by
  constructor
  · intro before token behind split identifier
    exact Token.isRun_iff split identifier
  · intro before token behind split _ run old
    have whole : content = render before ++ (token.text ++ render behind) := by
      have rendered : render (tokenize content) = content :=
        Token.render_tokensFrom .initial content
      rw [← rendered, split, Token.render_append, Token.render_cons]
    rw [whole]
    exact (run.ofText old).ofWords_append
  · exact rewriteContentBy_eq_iff_of_plain
  · intro plain old
    have concealed : config.protect content = .ok (config.conceal content) :=
      Guard.protect_of_not_mem plain.absent
    have sameRewrite : { config with mode := .text }.rewrite content =
        rewriteContentBy config.toGuard config.toConvention (Part.ofWords isWord) content := by
      change rewriteContentBy config.toGuard config.toConvention (Part.ofWords isTextWord) content =
        _
      rw [Guard.rewriteContentBy_of_protect concealed, Guard.rewriteContentBy_of_protect concealed,
        Convention.rewriteBy, Convention.rewriteBy, ofWords_conceal plain.valid old]
    have agree := rewriteContentBy_eq_iff_of_plain plain
    rw [sameRewrite]
    exact agree

set_option maxRecDepth 3000 in
/-- A numeral without underscores behind it is no obstacle. -/
theorem modes_agree_plain :
    IsRun isWord ['²', 'x', ' '] ['y', '_', 'z'] [] ∧
      (unfiltered [] .lexical).rewrite ['²', 'x', ' ', 'y', '_', 'z'] =
        (unfiltered [] .text).rewrite ['²', 'x', ' ', 'y', '_', 'z'] := by
  have tokens : tokenize ['²', 'x', ' ', 'y', '_', 'z'] =
      [{ kind := .punctuation, text := ['²'] }, { kind := .identifier, text := ['x'] },
        { kind := .whitespace, text := [' '] }] ++
        { kind := .identifier, text := ['y', '_', 'z'] } :: [] := by
    cbv
  have concealed : (unfiltered [] .lexical).conceal ['²', 'x', ' ', 'y', '_', 'z'] =
      ['²', 'x', ' ', 'y', '_', 'z'] := by
    cbv
  have words : Part.ofWords isWord ['²', 'x', ' ', 'y', '_', 'z'] =
      [{ isName := true, text := ['²', 'x'] }, { isName := false, text := [' '] },
        { isName := true, text := ['y', '_', 'z'] }] := by
    cbv
  have agree := modes_agree_iff (unfiltered [] .lexical) ['²', 'x', ' ', 'y', '_', 'z']
  constructor
  · refine (agree.isRun_iff _ _ _ tokens rfl).mpr fun last atEnd numeral => ?_
    cases atEnd
    obtain ⟨c, textEnd, inWord⟩ := numeral.exists_last
    cases textEnd
    exact absurd inWord (by decide)
  · have plain : ∀ token ∈ tokenize ((unfiltered [] .lexical).conceal
        ['²', 'x', ' ', 'y', '_', 'z']), token.IsPlain := by
      rw [concealed, tokens]
      simp [Token.IsPlain]
    have old : ∀ c ∈ ['²', 'x', ' ', 'y', '_', 'z'], isRecent c = false := by
      have none : (['²', 'x', ' ', 'y', '_', 'z'].any isRecent) = false := by cbv
      simpa using none
    refine (agree.rewrites_iff ⟨validate_unfiltered [] .lexical, by decide, by decide, plain⟩
      old).mpr ?_
    rw [concealed, words]
    intro part member name numeral
    simp only [List.mem_cons, List.not_mem_nil, or_false] at member
    rcases member with rfl | rfl | rfl
    · constructor
      · exact Convention.rename?_of_not_mem (by decide)
      · exact Convention.rename?_of_not_mem (by decide)
    · cases name
    · exact absurd (by decide : Part.behindNumerals ['y', '_', 'z'] = ['y', '_', 'z']) numeral

set_option maxRecDepth 3000 in
/-- Behind a superscript one mode finds a name that begins with an underscore, and the other one a
name that does not. -/
theorem modes_differ_superscript :
    (unfiltered [] .lexical).validate = .ok () ∧
      tokenize ((unfiltered [] .lexical).conceal ['²', '_', 'x']) =
        [{ kind := .punctuation, text := ['²'] }, { kind := .identifier, text := ['_', 'x'] }] ∧
      ¬ IsRun isWord ['²'] ['_', 'x'] [] ∧
      ∃ lexical text : Rewrite,
        (unfiltered [] .lexical).rewrite ['²', '_', 'x'] = .ok lexical ∧
          (unfiltered [] .text).rewrite ['²', '_', 'x'] = .ok text ∧
          lexical.content = ['²', 'm', '_', 'X'] ∧ text.content = ['²', 'X'] := by
  have lexical : (unfiltered [] .lexical).rewrite ['²', '_', 'x'] =
      .ok { content := ['²', 'm', '_', 'X']
            replacements := 1
            renames := Index.ofList [(['_', 'x'], ['m', '_', 'X'])] } := by
    cbv
  have text : (unfiltered [] .text).rewrite ['²', '_', 'x'] =
      .ok { content := ['²', 'X']
            replacements := 1
            renames := Index.ofList [(['²', '_', 'x'], ['²', 'X'])] } := by
    cbv
  refine ⟨validate_unfiltered [] .lexical, by cbv, ?_, _, _, lexical, text, rfl, rfl⟩
  intro run
  exact absurd (run.begins '²' rfl) (by decide)

end Config

end Recase
