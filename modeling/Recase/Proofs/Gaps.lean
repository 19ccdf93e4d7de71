import Recase.Proofs.Cutting
import Recase.Proofs.Marking
import Recase.Proofs.Tokens
import Mathlib

/-!
# Gaps between tokens

White space, block comments and spliced lines may stand between the parts of a directive.  A gap is
cut into tokens of its own in front of any text that does not go on with white space.  It leaves the
context as it is unless it splices lines: behind a splice the lexer is at the beginning of a line.
-/

namespace Recase

open Character (isWord isWordStart isBlank)
open Token (tokensFrom scan next tokenize render)

namespace LineContext

/-! ## From one context to another -/

/-- Whether a text in front of another one is cut into tokens of its own, which lead from one
context to another. -/
def Leads (context : LineContext) (text rest : Text) (after : LineContext) : Prop :=
  ∃ tokens, render tokens = text ∧
    tokensFrom context (text ++ rest) = tokens ++ tokensFrom after rest

namespace Leads

variable {context middle after : LineContext} {text more rest : Text}

theorem nil (context : LineContext) (rest : Text) : context.Leads [] rest context :=
  ⟨[], rfl, rfl⟩

theorem trans (first : context.Leads text (more ++ rest) middle)
    (second : middle.Leads more rest after) : context.Leads (text ++ more) rest after := by
  obtain ⟨tokens, rendered, cut⟩ := first
  obtain ⟨others, moreRendered, moreCut⟩ := second
  refine ⟨tokens ++ others, ?_, ?_⟩
  · rw [Token.render_append, rendered, moreRendered]
  · rw [List.append_assoc, cut, moreCut, List.append_assoc]

theorem of_scan {first : Char} {body : Text} {kind : Token.Kind}
    (value : scan context first (body ++ rest) = (kind, body, rest)) :
    context.Leads (first :: body) rest (context.after { kind, text := first :: body }) := by
  refine ⟨[{ kind, text := first :: body }], by simp, ?_⟩
  rw [List.cons_append, Token.tokensFrom_of_scan value]
  rfl

end Leads

/-- The context at the beginning of a line if there was a line break, and else the context in front
of it. -/
def broken (context : LineContext) (breaks : Bool) : LineContext :=
  if breaks then .initial else context

theorem broken_broken (context : LineContext) (first second : Bool) :
    (context.broken first).broken second = context.broken (first || second) := by
  cases first <;> cases second <;> rfl

/-- White space leads to the beginning of a line if there is a line feed in it, and leaves the
context as it is otherwise. -/
theorem after_whitespace (context : LineContext) (text : Text) :
    context.after { kind := .whitespace, text } = context.broken (text.contains '\n') := by
  by_cases lineFeed : '\n' ∈ text <;>
    simp [after, directiveAfter, atStartAfter, broken, lineFeed, initial]

theorem after_punctuation {c : Char} (noSign : c ≠ '#') (context : LineContext) :
    context.after { kind := .punctuation, text := [c] } = midLine := by
  by_cases opened : context.directive = .opened
  · have noName : [c] ∉ inclusionNames := by simp [inclusionNames]
    simp [after, directiveAfter, atStartAfter, opened, noName, midLine]
  · exact after_eq_midLine_of_punctuation noSign opened

theorem after_comment {text : Text} (sameLine : text.getLast? ≠ some '\n')
    (context : LineContext) : context.after { kind := .comment, text } = context := by
  have noLineFeed : (text.getLast? == some '\n') = false := beq_eq_false_iff_ne.mpr sameLine
  simp [after, directiveAfter, atStartAfter, noLineFeed]

variable {context : LineContext} {blanks rest : Text}

theorem leads_blanks (allBlank : ∀ c ∈ blanks, isBlank c = true) (ends : EndsWord isBlank rest) :
    context.Leads blanks rest (context.broken (blanks.contains '\n')) := by
  cases blanks with
  | nil => exact .nil context rest
  | cons first blanks =>
      obtain ⟨firstBlank, others⟩ := List.forall_mem_cons.mp allBlank
      rw [← after_whitespace]
      apply Leads.of_scan
      rw [scan, if_pos firstBlank, ends.takeWhile_append others, ends.dropWhile_append others]

end LineContext

/-! ## Comments -/

/-- A text is split behind the first occurrence of a needle that does not overlap with itself. -/
theorem Text.through_append_needle {needle : Text} (unbordered : Text.IsUnbordered needle)
    (nonempty : needle ≠ []) {body : Text} (absent : ¬ needle <:+: body) (rest : Text) :
    through needle (body ++ (needle ++ rest)) = (body ++ needle, rest) := by
  induction body with
  | nil =>
      obtain ⟨first, others, rfl⟩ := List.exists_cons_of_ne_nil nonempty
      have starts : (first :: others).isPrefixOf (first :: (others ++ rest)) = true :=
        List.isPrefixOf_iff_prefix.mpr (List.prefix_append (first :: others) rest)
      rw [List.nil_append, List.cons_append, through, if_pos starts]
      simp
  | cons c body ih =>
      have elsewhere : ¬ needle.isPrefixOf (c :: (body ++ (needle ++ rest))) = true := by
        intro starts
        exact Text.not_prefix_append unbordered (List.cons_ne_nil c body) absent rest
          (List.isPrefixOf_iff_prefix.mp starts)
      rw [List.cons_append, through, if_neg elsewhere,
        ih fun inside => absent (List.infix_cons inside)]
      rfl

theorem Text.isUnbordered_commentEnd : Text.IsUnbordered ['*', '/'] := by
  intro border nonempty starts ends
  obtain ⟨behind, split⟩ := starts
  match border, nonempty, split with
  | [c], _, split =>
      obtain rfl := (List.cons.inj split).1
      exact absurd ends (by decide)
  | c :: d :: others, _, split =>
      simp at split
      simp [split]

/-! ## Gaps -/

/-- What may stand between the parts of a directive: blanks, block comments, and a backslash at the
end of a line, which splices the next line to it. -/
inductive Gap where
  | space
  | tab
  | comment (body : Text) (closed : ¬ ['*', '/'] <:+: body)
  | splice

namespace Gap

/-- How a gap is written. -/
def text : Gap → Text
  | space => [' ']
  | tab => ['\t']
  | comment body _ => '/' :: '*' :: body ++ ['*', '/']
  | splice => ['\\', '\n']

/-- Whether lines are spliced. -/
def isSplice : Gap → Bool
  | splice => true
  | _ => false

/-- How gaps are written one behind the other. -/
def join (gaps : List Gap) : Text :=
  gaps.flatMap text

@[simp] theorem join_nil : join [] = [] := rfl

@[simp] theorem join_cons (gap : Gap) (gaps : List Gap) :
    join (gap :: gaps) = gap.text ++ join gaps :=
  List.flatMap_cons

/-- Whether lines are spliced in one of some gaps. -/
def splices (gaps : List Gap) : Bool :=
  gaps.any isSplice

@[simp] theorem splices_nil : splices [] = false := rfl

@[simp] theorem splices_cons (gap : Gap) (gaps : List Gap) :
    splices (gap :: gaps) = (gap.isSplice || splices gaps) := rfl

end Gap

namespace LineContext

open Gap (join splices)

variable {context : LineContext} {blanks rest : Text}

theorem leads_comment (context : LineContext) {body : Text} (closed : ¬ ['*', '/'] <:+: body)
    (rest : Text) : context.Leads (Gap.comment body closed).text rest context := by
  have extent : Lexeme.blockComment ('*' :: body ++ ['*', '/'] ++ rest) =
      ('*' :: body ++ ['*', '/'], rest) := by
    rw [List.append_assoc, List.cons_append, Lexeme.blockComment,
      Text.through_append_needle Text.isUnbordered_commentEnd (by simp) closed]
    rfl
  have value : scan context '/' ('*' :: body ++ ['*', '/'] ++ rest) =
      (.comment, '*' :: body ++ ['*', '/'], rest) := by
    rw [scan, extent]
    simp [show isBlank '/' = false by decide]
  have leads := Leads.of_scan value
  have sameLine : ('/' :: ('*' :: body ++ ['*', '/'])).getLast? ≠ some '\n' := by
    have last : ('/' :: '*' :: body ++ ['*', '/']).getLast? = some '/' := by
      rw [List.getLast?_append]
      rfl
    rw [List.cons_append] at last
    rw [last]
    decide
  rw [after_comment sameLine] at leads
  exact leads

/-- A character that begins nothing longer is punctuation, unless it opens a directive or a header
name. -/
theorem scan_of_mark {c : Char} (noBlank : isBlank c = false) (noStart : isWordStart c = false)
    (noDigit : c.isDigit = false) (plain : c ∉ ['/', '.', '"', '\''])
    (noSign : ¬ (c = '#' ∧ context.atStart = true))
    (noBracket : ¬ (c = '<' ∧ context.directive = .inclusion)) :
    scan context c rest = (.punctuation, [], rest) := by
  simp only [List.mem_cons, List.not_mem_nil, or_false, not_or] at plain
  obtain ⟨noSlash, noPoint, noString, noCharacter⟩ := plain
  simp only [scan, noBlank, noStart, noDigit, noSlash, noPoint, noString, noCharacter, noSign,
    noBracket, false_and, or_false, Bool.false_eq_true, if_false]

theorem leads_mark {c : Char} (noBlank : isBlank c = false) (noStart : isWordStart c = false)
    (noDigit : c.isDigit = false) (plain : c ∉ ['/', '.', '"', '\'', '#', '<'])
    (context : LineContext) (rest : Text) : context.Leads [c] rest midLine := by
  simp only [List.mem_cons, List.not_mem_nil, or_false, not_or] at plain
  obtain ⟨noSlash, noPoint, noString, noCharacter, noSign, noBracket⟩ := plain
  have value : scan context c ([] ++ rest) = (.punctuation, [], rest) := by
    apply scan_of_mark noBlank noStart noDigit
    · simp [noSlash, noPoint, noString, noCharacter]
    · exact fun sign => noSign sign.1
    · exact fun bracket => noBracket bracket.1
  have leads := Leads.of_scan value
  rw [after_punctuation noSign] at leads
  exact leads

theorem forall_isBlank_append {c : Char} (allBlank : ∀ c ∈ blanks, isBlank c = true)
    (blank : isBlank c = true) : ∀ d ∈ blanks ++ [c], isBlank d = true := by
  intro d member
  rcases List.mem_append.mp member with before | last
  · exact allBlank d before
  · rw [List.mem_singleton.mp last]
    exact blank

/-- Gaps leave the context as it is unless they splice lines, or white space in front of them holds
a line feed. -/
theorem leads_gaps (gaps : List Gap) (allBlank : ∀ c ∈ blanks, isBlank c = true)
    (ends : EndsWord isBlank rest) :
    context.Leads (blanks ++ join gaps) rest
      (context.broken (blanks.contains '\n' || splices gaps)) := by
  induction gaps generalizing context blanks with
  | nil =>
      rw [Gap.join_nil, List.append_nil, Gap.splices_nil, Bool.or_false]
      exact leads_blanks allBlank ends
  | cons gap gaps ih =>
      rw [Gap.join_cons, Gap.splices_cons]
      cases gap with
      | space =>
          have leads : context.Leads (blanks ++ [' '] ++ join gaps) rest _ :=
            ih (forall_isBlank_append allBlank (by decide))
          simpa [Gap.text, Gap.isSplice] using leads
      | tab =>
          have leads : context.Leads (blanks ++ ['\t'] ++ join gaps) rest _ :=
            ih (forall_isBlank_append allBlank (by decide))
          simpa [Gap.text, Gap.isSplice] using leads
      | comment body closed =>
          have stops : EndsWord isBlank ((Gap.comment body closed).text ++ join gaps ++ rest) :=
            .cons (by decide) _
          have front : context.Leads blanks _ (context.broken (blanks.contains '\n')) :=
            leads_blanks allBlank stops
          have later : (context.broken (blanks.contains '\n')).Leads ([] ++ join gaps) rest _ :=
            ih (by simp)
          rw [List.contains_nil, Bool.false_or, broken_broken] at later
          exact front.trans ((leads_comment _ closed (join gaps ++ rest)).trans later)
      | splice =>
          have stops : EndsWord isBlank (['\\'] ++ (['\n'] ++ join gaps) ++ rest) :=
            .cons (by decide) _
          have front : context.Leads blanks _ (context.broken (blanks.contains '\n')) :=
            leads_blanks allBlank stops
          have later : midLine.Leads (['\n'] ++ join gaps) rest initial :=
            ih (List.forall_mem_singleton.mpr (by decide))
          rw [Gap.isSplice, Bool.true_or, Bool.or_true]
          have backslash : (context.broken (blanks.contains '\n')).Leads ['\\'] _ midLine :=
            leads_mark (by decide) (by decide) (by decide) (by decide) _
              (['\n'] ++ join gaps ++ rest)
          exact front.trans (backslash.trans later)

theorem leads_join (context : LineContext) (gaps : List Gap) (ends : EndsWord isBlank rest) :
    context.Leads (join gaps) rest (context.broken (splices gaps)) := by
  have leads : context.Leads ([] ++ join gaps) rest _ := leads_gaps gaps (by simp) ends
  exact leads

end LineContext

/-! ## Text behind white space -/

/-- A text that ends with white space does not come to begin a raw string when more follows. -/
theorem Lexeme.rawString_append_of_blank {front : Text} {blank : Char}
    (isBlank : isBlank blank = true) (malformed : rawString (front ++ [blank]) = none)
    (more : Text) : rawString (front ++ [blank] ++ more) = none := by
  by_cases opened : '(' ∈ front ++ [blank]
  · obtain ⟨delimiter, rest, split, plain⟩ := List.eq_append_cons_of_mem opened
    rw [split, rawString_append_cons plain] at malformed
    rw [split, List.append_assoc, List.cons_append, rawString_append_cons plain]
    split at malformed
    · cases malformed
    · next refused => rw [if_neg refused]
  · refine rawString_eq_none (c := blank) ?_ (.inl isBlank)
    rw [List.takeWhile_append_of_pos (bne_of_not_mem opened)]
    simp

/-- A text that ends with white space does not begin in another way when more follows. -/
theorem Alike.append_of_blank {front : Text} {blank : Char} (isBlank : isBlank blank = true)
    (more : Text) : Alike (front ++ [blank]) (front ++ [blank] ++ more) := by
  cases front with
  | nil =>
      have different (c : Char) (noBlank : Character.isBlank c = false) : blank ≠ c := by
        rintro rfl
        rw [noBlank] at isBlank
        cases isBlank
      constructor
      · rintro ⟨⟩
      · rintro c ⟨⟩ -
        rfl
      · rintro c ⟨⟩ -
        exact ⟨blank, rfl, .inl rfl⟩
      · rintro rest ⟨⟩
      · rintro rest same
        exact absurd (List.cons.inj same).1 (different '\'' (by decide))
      · rintro rest same
        exact absurd (List.cons.inj same).1 (different '"' (by decide))
  | cons first front =>
      constructor
      · rintro ⟨⟩
      · rintro c ⟨⟩ -
        rfl
      · rintro c ⟨⟩ -
        exact ⟨first, rfl, .inl rfl⟩
      · rintro rest same
        rw [same]
        exact ⟨rest ++ more, rfl⟩
      · rintro rest ⟨⟩
        refine ⟨front ++ [blank] ++ more, rfl, ?_⟩
        cases front with
        | nil => exact id
        | cons second front => exact id
      · rintro rest ⟨⟩ malformed
        exact ⟨_, rfl, Lexeme.rawString_append_of_blank isBlank malformed more⟩

namespace Token

variable {context : LineContext}

/-- A token stays as it is when more follows a text that ends with white space. -/
theorem scan_append_of_blank {first : Char} {rest front : Text} {blank : Char}
    (isBlank : isBlank blank = true) (behind : (scan context first rest).2.2 = front ++ [blank])
    (more : Text) : scan context first (rest ++ more) =
      ((scan context first rest).1, (scan context first rest).2.1,
        (scan context first rest).2.2 ++ more) := by
  have alike : Alike (scan context first rest).2.2 ((scan context first rest).2.2 ++ more) := by
    rw [behind]
    exact .append_of_blank isBlank more
  have calm : (next context first rest).1.isNumber = true →
      ((scan context first rest).2.2 ++ more).head?.any Char.isAlphanum = false := by
    intro number
    have nonempty : (scan context first rest).2.2 ≠ [] := by simp [behind]
    obtain ⟨c, others, found⟩ := List.exists_cons_of_ne_nil nonempty
    rw [scan_of_isNumber number] at found
    have ends : (Lexeme.number first rest).2.head? = some c := by
      rw [found, List.head?_cons]
    rw [scan_of_isNumber number, found]
    exact (Lexeme.number_ends first rest ends).1
  have value := scan_exchange alike calm
  rwa [← List.append_assoc, scan_append] at value

variable {text : Text} {tokens : List Token} {last : Token}

/-- What follows a text that ends with white space changes none of its other tokens. -/
theorem tokensFrom_append_of_blank (split : tokensFrom context text = tokens ++ [last])
    (nonempty : last.text ≠ []) (allBlank : ∀ c ∈ last.text, isBlank c = true) (more : Text) :
    tokensFrom context (text ++ more) =
      tokens ++ tokensFrom (context.behind tokens) (last.text ++ more) := by
  induction tokens generalizing context text with
  | nil =>
      have same := render_tokensFrom context text
      rw [split, List.nil_append, render_cons, render_nil, List.append_nil] at same
      rw [same, List.nil_append, LineContext.behind_nil]
  | cons token tokens ih =>
      cases text with
      | nil =>
          rw [tokensFrom] at split
          cases split
      | cons first rest =>
          rw [tokensFrom_cons, List.cons_append] at split
          obtain ⟨same, others⟩ := List.cons.inj split
          obtain ⟨front, blank, shape⟩ : ∃ front blank, last.text = front ++ [blank] :=
            ⟨_, _, (List.dropLast_concat_getLast nonempty).symm⟩
          have isBlank : isBlank blank = true := allBlank blank (by simp [shape])
          have behind := render_tokensFrom (context.after (next context first rest).1)
            (next context first rest).2
          rw [others, render_append, render_cons, render_nil, List.append_nil, shape,
            ← List.append_assoc] at behind
          have value := scan_append_of_blank isBlank behind.symm more
          rw [List.cons_append, tokensFrom_of_scan value, List.cons_append, ← same,
            LineContext.behind_cons]
          exact congrArg _ (ih others)

end Token

end Recase
