import Recase.Proofs.Bounds
import Recase.Proofs.Overwriting
import Recase.Proofs.Shielding
import Mathlib

/-!
# Nothing but identifiers is replaced

In lexical mode the names are the identifiers of the concealed text.  So all that the lexer sees
there as a literal, a comment, punctuation or white space is kept.  Whether it sees the same in the
text itself depends on where the separators stand.  It does if they are shielded, and it is enough
that all names that change lie within identifiers of the text.
-/

namespace Recase

open Token (tokensFrom render tokenize)

namespace Token

/-! ## Replacing identifiers -/

/-- A text that tokens become when nothing but identifiers is replaced. -/
inductive IdentifiersReplaced : List Token → Text → Prop where
  | nil : IdentifiersReplaced [] []
  | keep (token : Token) {tokens : List Token} {text : Text}
      (behind : IdentifiersReplaced tokens text) :
      IdentifiersReplaced (token :: tokens) (token.text ++ text)
  | replace {token : Token} (identifier : token.kind = .identifier) (new : Text)
      {tokens : List Token} {text : Text} (behind : IdentifiersReplaced tokens text) :
      IdentifiersReplaced (token :: tokens) (new ++ text)

namespace IdentifiersReplaced

variable {kind : Kind} {left : Text} {behind : List Token} {text : Text}

theorem cons_char (c : Char)
    (replaced : IdentifiersReplaced ({ kind, text := left } :: behind) text) :
    IdentifiersReplaced ({ kind, text := c :: left } :: behind) (c :: text) := by
  cases replaced with
  | keep _ others => exact .keep { kind, text := c :: left } others
  | @replace _ identifier new _ text others =>
      have still : ({ kind, text := c :: left } : Token).kind = .identifier := identifier
      exact .replace still (c :: new) others

theorem append_identifier (old new : Text)
    (replaced : IdentifiersReplaced ({ kind := .identifier, text := left } :: behind) text) :
    IdentifiersReplaced ({ kind := .identifier, text := old ++ left } :: behind) (new ++ text) := by
  cases replaced with
  | keep _ others =>
      rw [← List.append_assoc]
      exact .replace rfl (new ++ left) others
  | replace identifier other others =>
      rw [← List.append_assoc]
      exact .replace rfl (new ++ other) others

theorem flatMap {tokens : List Token} {new : Token → Text}
    (kept : ∀ token ∈ tokens, token.kind ≠ .identifier → new token = token.text) :
    IdentifiersReplaced tokens (tokens.flatMap new) := by
  induction tokens with
  | nil => exact .nil
  | cons token tokens ih =>
      have others := ih fun other member => kept other (List.mem_cons_of_mem token member)
      rw [List.flatMap_cons]
      by_cases identifier : token.kind = .identifier
      · exact .replace identifier (new token) others
      · rw [kept token List.mem_cons_self identifier]
        exact .keep token others

theorem suffix_of_ne_identifier {tokens : List Token} {last : Token}
    (other : last.kind ≠ .identifier) (replaced : IdentifiersReplaced (tokens ++ [last]) text) :
    last.text <:+ text := by
  induction tokens generalizing text with
  | nil =>
      cases replaced with
      | keep _ behind =>
          cases behind
          rw [List.append_nil]
      | replace identifier => exact absurd identifier other
  | cons token tokens ih =>
      cases replaced with
      | keep _ behind => exact (ih behind).trans (List.suffix_append _ _)
      | replace identifier new behind => exact (ih behind).trans (List.suffix_append _ _)

end IdentifiersReplaced

/-! ## Two ways to take a text apart -/

section Aligned

variable {outer : List Token} {kind : Kind} {head left : Text} {behind : List Token}

/-- What is read of a text up to some place, as tokens: the rest of a token and the tokens behind
it. -/
def Remains (outer : List Token) (kind : Kind) (left : Text) (behind : List Token) : Prop :=
  ∃ head, { kind, text := head ++ left } :: behind <:+ outer

theorem Remains.next {c : Char} (remains : Remains outer kind (c :: left) behind) :
    Remains outer kind left behind := by
  obtain ⟨head, suffix⟩ := remains
  refine ⟨head ++ [c], ?_⟩
  rwa [List.append_assoc, List.singleton_append]

theorem Remains.enter {token : Token} (remains : Remains outer kind left (token :: behind)) :
    Remains outer token.kind token.text behind := by
  obtain ⟨head, suffix⟩ := remains
  exact ⟨[], (List.suffix_cons _ _).trans suffix⟩

theorem render_suffix {short long : List Token} (suffix : short <:+ long) :
    render short <:+ render long := by
  obtain ⟨before, rfl⟩ := suffix
  rw [render_append]
  exact List.suffix_append _ _

/-- Text that is kept is kept as part of the tokens that it runs across. -/
theorem identifiersReplaced_append (nonempty : ∀ token ∈ outer, token.text ≠ [])
    {kept more result : Text}
    (others : ∀ kind left behind, Remains outer kind left behind → more = left ++ render behind →
      IdentifiersReplaced ({ kind, text := left } :: behind) result)
    (remains : Remains outer kind left behind) (same : kept ++ more = left ++ render behind) :
    IdentifiersReplaced ({ kind, text := left } :: behind) (kept ++ result) := by
  induction kept generalizing kind left behind with
  | nil => exact others kind left behind remains same
  | cons c kept ih =>
      cases left with
      | cons d left =>
          obtain ⟨rfl, sameBehind⟩ := List.cons.inj same
          exact (ih remains.next sameBehind).cons_char c
      | nil =>
          cases behind with
          | nil => cases same
          | cons token behind =>
              have entered := remains.enter
              have tokenNonempty : token.text ≠ [] := by
                obtain ⟨head, suffix⟩ := remains
                exact nonempty token (suffix.subset (by simp))
              obtain ⟨tokenKind, tokenText⟩ := token
              obtain ⟨d, rest, rfl⟩ := List.exists_cons_of_ne_nil tokenNonempty
              rw [List.nil_append, render_cons] at same
              obtain ⟨rfl, sameBehind⟩ := List.cons.inj same
              exact .keep { kind, text := [] } ((ih entered.next sameBehind).cons_char c)

/-- A name that lies within an identifier is replaced as part of it. -/
theorem identifiersReplaced_name {name more result tail : Text} {back : List Token} (new : Text)
    (others : ∀ kind left behind, Remains outer kind left behind → more = left ++ render behind →
      IdentifiersReplaced ({ kind, text := left } :: behind) result)
    (nonempty : name ≠ [])
    (within : { kind := .identifier, text := head ++ name ++ tail } :: back <:+ outer)
    (follows : more = tail ++ render back) (remains : Remains outer kind left behind)
    (leftNonempty : left ≠ []) (same : name ++ more = left ++ render behind) :
    IdentifiersReplaced ({ kind, text := left } :: behind) (new ++ result) := by
  obtain ⟨before, suffix⟩ := remains
  have lengths := congrArg List.length same
  have moreLength := congrArg List.length follows
  have namePositive := List.length_pos_iff.mpr nonempty
  have leftPositive := List.length_pos_iff.mpr leftNonempty
  simp only [List.length_append] at lengths moreLength
  have equal : ({ kind, text := before ++ left } : Token) :: behind =
      { kind := .identifier, text := head ++ name ++ tail } :: back := by
    rcases List.suffix_or_suffix_of_suffix suffix within with shorter | longer
    · rcases List.suffix_cons_iff.mp shorter with equal | inside
      · exact equal
      · have bound := (render_suffix inside).length_le
        rw [render_cons] at bound
        simp only [List.length_append] at bound
        omega
    · rcases List.suffix_cons_iff.mp longer with equal | inside
      · exact equal.symm
      · have bound := (render_suffix inside).length_le
        rw [render_cons] at bound
        simp only [List.length_append] at bound
        omega
  obtain ⟨tokens, rfl⟩ := List.cons.inj equal
  obtain ⟨rfl, texts⟩ := Token.mk.inj tokens
  rw [follows, ← List.append_assoc] at same
  obtain rfl := List.append_cancel_right same
  rw [← List.append_assoc] at suffix
  exact (others .identifier tail behind ⟨before ++ name, suffix⟩ follows).append_identifier name new

/-- If all names that change lie within identifiers, nothing but identifiers is replaced. -/
theorem identifiersReplaced_of_within (outerNonempty : ∀ token ∈ outer, token.text ≠ [])
    {inner : List Token} (innerNonempty : ∀ token ∈ inner, token.text ≠ [])
    {new : Token → Text}
    (found : ∀ name rest, name :: rest <:+ inner → new name ≠ name.text →
      ∃ head tail back, { kind := .identifier, text := head ++ name.text ++ tail } :: back <:+ outer ∧
        render rest = tail ++ render back)
    (remains : Remains outer kind left behind) (same : render inner = left ++ render behind) :
    IdentifiersReplaced ({ kind, text := left } :: behind) (inner.flatMap new) := by
  induction inner generalizing kind left behind with
  | nil =>
      obtain ⟨rfl, noText⟩ := List.append_eq_nil_iff.mp same.symm
      cases behind with
      | nil => exact .keep { kind, text := [] } .nil
      | cons token behind =>
          obtain ⟨before, suffix⟩ := remains
          rw [render_cons] at noText
          exact absurd (List.append_eq_nil_iff.mp noText).1
            (outerNonempty token (suffix.subset (by simp)))
  | cons name rest ih =>
      have others (kind : Kind) (left : Text) (behind : List Token)
          (remains : Remains outer kind left behind) (same : render rest = left ++ render behind) :
          IdentifiersReplaced ({ kind, text := left } :: behind) (rest.flatMap new) := by
        refine ih (fun token member => innerNonempty token (List.mem_cons_of_mem name member)) ?_
          remains same
        intro other more suffix changed
        exact found other more (suffix.trans (List.suffix_cons name rest)) changed
      rw [render_cons] at same
      rw [List.flatMap_cons]
      by_cases changed : new name = name.text
      · rw [changed]
        exact identifiersReplaced_append outerNonempty others remains same
      · obtain ⟨head, tail, back, within, follows⟩ := found name rest (List.suffix_refl _) changed
        have nonempty := innerNonempty name List.mem_cons_self
        by_cases leftNonempty : left ≠ []
        · exact identifiersReplaced_name (new name) others nonempty within follows remains
            leftNonempty same
        · obtain rfl := not_not.mp leftNonempty
          cases behind with
          | nil =>
              exact absurd (List.append_eq_nil_iff.mp same).1 nonempty
          | cons token behind =>
              have tokenNonempty : token.text ≠ [] := by
                obtain ⟨before, suffix⟩ := remains
                exact outerNonempty token (suffix.subset (by simp))
              rw [List.nil_append, render_cons] at same
              exact .keep { kind, text := [] } (identifiersReplaced_name (new name) others nonempty
                within follows remains.enter tokenNonempty same)

end Aligned

end Token

namespace Config

variable {config : Config}

/-! ## Names of the concealed text -/

/-- The tokens that names are looked for in: those of the concealed text, with the separators
restored in each. -/
def seenTokens (config : Config) (content : Text) : List Token :=
  (tokenize (config.conceal content)).map config.restoreToken

/-- What a token that is looked at becomes. -/
def respelling (config : Config) (token : Token) : Text :=
  ((config.newName? token).map config.restore).getD token.text

theorem respelling_of_ne_identifier {token : Token} (other : token.kind ≠ .identifier) :
    config.respelling token = token.text := by
  rw [respelling, Convention.newName?, if_neg other]
  rfl

theorem render_seenTokens {content : Text} (absent : config.placeholder ∉ content) :
    render (config.seenTokens content) = content := by
  rw [seenTokens, Guard.render_map_restoreToken, tokenize, Token.render_tokensFrom,
    config.restore_conceal absent]

theorem seenTokens_of_free {content : Text} (absent : config.placeholder ∉ content)
    (free : ¬ config.separator <:+: content) : config.seenTokens content = tokenize content := by
  have same : config.conceal content = content := by
    rw [Guard.conceal, Guard.pieces, Text.cutAt_of_not_infix free, List.intercalate_singleton]
  have whole : render (tokenize content) = content := Token.render_tokensFrom .initial content
  have kept : ∀ token ∈ tokenize content, config.restoreToken token = token := by
    intro token member
    apply Guard.restoreToken_of_not_mem
    intro inside
    apply absent
    rw [← whole]
    exact List.mem_flatMap.mpr ⟨token, member, inside⟩
  calc config.seenTokens content = (tokenize content).map config.restoreToken := by
        rw [seenTokens, same]
    _ = (tokenize content).map id := List.map_congr_left kept
    _ = tokenize content := List.map_id _

/-- A token that is looked at is respelled as it was with the separators concealed. -/
theorem respelling_restoreToken (valid : config.validate = .ok ()) {text : Text} {token : Token}
    (member : token ∈ tokenize text) :
    config.respelling (config.restoreToken token) =
      config.restore ((config.newName? token).getD token.text) := by
  by_cases identifier : token.kind = .identifier
  · have noWord := isWord_eq_false_of_isPlaceholder (guard_of_validate valid).1
    have plain : config.placeholder ∉ token.text := by
      intro inside
      rw [Token.isWord_of_mem_identifier member identifier _ inside] at noWord
      cases noWord
    rw [Guard.restoreToken_of_not_mem plain, respelling]
    cases config.newName? token with
    | some name => rfl
    | none => exact (config.restore_of_not_mem plain).symm
  · have unchanged : config.newName? token = none := if_neg identifier
    have other : (config.restoreToken token).kind ≠ .identifier := identifier
    rw [respelling_of_ne_identifier other, unchanged]
    rfl

theorem content_eq_flatMap_seenTokens (valid : config.validate = .ok ())
    (lexical : config.mode = .lexical) {content : Text} {rewrite : Rewrite}
    (rewritten : config.rewrite content = .ok rewrite) :
    rewrite.content = (config.seenTokens content).flatMap config.respelling := by
  obtain ⟨-, rfl⟩ := rewrite_eq_ok rewritten
  change config.restore (config.rewriteParts (config.mode.parts (config.conceal content))) = _
  rw [lexical]
  change config.restore (config.rewriteTokens (tokenize (config.conceal content))) = _
  have each : ∀ tokens : List Token, tokens ⊆ tokenize (config.conceal content) →
      config.restore (config.rewriteTokens tokens) =
        (tokens.map config.restoreToken).flatMap config.respelling := by
    intro tokens
    induction tokens with
    | nil =>
        intro _
        rfl
    | cons token tokens ih =>
        intro found
        obtain ⟨member, others⟩ := List.cons_subset.mp found
        rw [Convention.rewriteTokens_cons, Guard.restore_append, ih others, List.map_cons,
          List.flatMap_cons, respelling_restoreToken valid member]
  exact each _ (List.Subset.refl _)

/-- Where all names that change lie within identifiers of the text. -/
def FindsIdentifiers (config : Config) (content : Text) : Prop :=
  ∀ name rest, name :: rest <:+ config.seenTokens content → config.newName? name ≠ none →
    ∃ head tail back,
      { kind := .identifier, text := head ++ name.text ++ tail } :: back <:+ tokenize content ∧
        render rest = tail ++ render back

/-- If all names that change lie within identifiers, nothing else is replaced. -/
theorem identifiersReplaced_of_findsIdentifiers (valid : config.validate = .ok ()) {content : Text}
    (absent : config.placeholder ∉ content) (finds : config.FindsIdentifiers content) :
    Token.IdentifiersReplaced (tokenize content)
      ((config.seenTokens content).flatMap config.respelling) := by
  have whole := render_seenTokens absent
  have sameText : render (tokenize content) = content := Token.render_tokensFrom .initial content
  have seenNonempty : ∀ token ∈ config.seenTokens content, token.text ≠ [] := by
    intro token member
    obtain ⟨concealed, inTokens, rfl⟩ := List.mem_map.mp member
    exact Guard.restore_ne_nil (guard_of_validate valid).2.1 (Token.text_ne_nil_of_mem inTokens)
  have found : ∀ name rest, name :: rest <:+ config.seenTokens content →
      config.respelling name ≠ name.text →
      ∃ head tail back,
        { kind := .identifier, text := head ++ name.text ++ tail } :: back <:+ tokenize content ∧
          render rest = tail ++ render back := by
    intro name rest suffix respelt
    apply finds name rest suffix
    intro unchanged
    apply respelt
    rw [respelling, unchanged]
    rfl
  cases tokens : tokenize content with
  | nil =>
      rw [tokens] at sameText
      have noText := whole.trans sameText.symm
      cases seen : config.seenTokens content with
      | nil => exact .nil
      | cons token behind =>
          rw [seen] at noText seenNonempty
          exact absurd (List.append_eq_nil_iff.mp noText).1 (seenNonempty token List.mem_cons_self)
  | cons token behind =>
      rw [tokens] at found sameText
      refine Token.identifiersReplaced_of_within ?_ seenNonempty found
        ⟨[], List.suffix_refl _⟩ ?_
      · intro other member
        rw [← tokens] at member
        exact Token.text_ne_nil_of_mem member
      · rw [whole, ← sameText, Token.render_cons]

/-- In lexical mode the text is rewritten by respelling the identifiers among the tokens that are
looked at.  Nothing but identifiers of the text itself is replaced if all names that change lie
within some, and so it is if the text holds no separator, or if the separator is inert and stands
in comments and literals only. -/
theorem rewrite_lexical_identifiers (config : Config) (valid : config.validate = .ok ())
    (lexical : config.mode = .lexical) {content : Text} {rewrite : Rewrite}
    (rewritten : config.rewrite content = .ok rewrite) :
    (render (config.seenTokens content) = content ∧
        rewrite.content = (config.seenTokens content).flatMap config.respelling ∧
        Token.IdentifiersReplaced (config.seenTokens content) rewrite.content) ∧
      (config.FindsIdentifiers content →
        Token.IdentifiersReplaced (tokenize content) rewrite.content) ∧
      (¬ config.separator <:+: content ∨ config.Inert ∧
          (∀ token ∈ tokenize (config.conceal content), config.Shields token) →
        tokenize content = config.seenTokens content ∧
          Token.IdentifiersReplaced (tokenize content) rewrite.content) := by
  obtain ⟨absent, -⟩ := rewrite_eq_ok rewritten
  have content_eq := content_eq_flatMap_seenTokens valid lexical rewritten
  have seen : Token.IdentifiersReplaced (config.seenTokens content) rewrite.content := by
    rw [content_eq]
    apply Token.IdentifiersReplaced.flatMap
    intro token _ other
    exact respelling_of_ne_identifier other
  refine ⟨⟨render_seenTokens absent, content_eq, seen⟩, ?_, ?_⟩
  · intro finds
    rw [content_eq]
    exact identifiersReplaced_of_findsIdentifiers valid absent finds
  · intro shielded
    have same : tokenize content = config.seenTokens content := by
      rcases shielded with free | ⟨inert, shields⟩
      · exact (seenTokens_of_free absent free).symm
      · have restored := Token.tokensFrom_restore (guard_of_validate valid).1 inert shields
        rw [config.restore_conceal absent] at restored
        exact restored
    rw [same]
    exact ⟨rfl, seen⟩

set_option maxRecDepth 2000 in
/-- A separator in a string is shielded, and a name behind the string is replaced. -/
theorem rewrite_lexical_identifiers_string :
    Token.IdentifiersReplaced
      (tokenize ("\"a_b".toList ++ (unfiltered [] .lexical).separator ++ "\" c_d".toList))
      ("\"a_b".toList ++ (unfiltered [] .lexical).separator ++ "\" CD".toList) := by
  have rewritten : (unfiltered [] .lexical).rewrite
      ("\"a_b".toList ++ (unfiltered [] .lexical).separator ++ "\" c_d".toList) =
        .ok { content := "\"a_b".toList ++ (unfiltered [] .lexical).separator ++ "\" CD".toList
              replacements := 1
              renames := Index.ofList [("c_d".toList, "CD".toList)] } := by
    cbv
  have tokens : tokenize ((unfiltered [] .lexical).conceal
      ("\"a_b".toList ++ (unfiltered [] .lexical).separator ++ "\" c_d".toList)) =
        [{ kind := .literal, text := "\"a_b§\"".toList }, { kind := .whitespace, text := [' '] },
          { kind := .identifier, text := "c_d".toList }] := by
    cbv
  have shields : ∀ token ∈ tokenize ((unfiltered [] .lexical).conceal
      ("\"a_b".toList ++ (unfiltered [] .lexical).separator ++ "\" c_d".toList)),
        (unfiltered [] .lexical).Shields token := by
    rw [tokens]
    decide
  exact ((rewrite_lexical_identifiers (unfiltered [] .lexical)
    (validate_unfiltered [] .lexical) rfl rewritten).2.2 (.inr ⟨Guard.inert_default, shields⟩)).2

set_option maxRecDepth 2000 in
/-- A separator in front of a number keeps the quotes behind it from coming in pairs, and a name is
replaced that stands in a literal. -/
theorem rewrite_lexical_literal :
    (unfiltered [] .lexical).validate = .ok () ∧ ∃ rewrite, (unfiltered [] .lexical).rewrite
        ((unfiltered [] .lexical).separator ++ "1'a'' x_y '".toList) = .ok rewrite ∧
      { kind := .literal, text := "' x_y '".toList } ∈
        tokenize ((unfiltered [] .lexical).separator ++ "1'a'' x_y '".toList) ∧
      rewrite.content = (unfiltered [] .lexical).separator ++ "1'a'' XY '".toList ∧
      ¬ Token.IdentifiersReplaced
        (tokenize ((unfiltered [] .lexical).separator ++ "1'a'' x_y '".toList)) rewrite.content := by
  have rewritten : (unfiltered [] .lexical).rewrite
      ((unfiltered [] .lexical).separator ++ "1'a'' x_y '".toList) =
        .ok { content := (unfiltered [] .lexical).separator ++ "1'a'' XY '".toList
              replacements := 1
              renames := Index.ofList [("x_y".toList, "XY".toList)] } := by
    cbv
  have tokens : tokenize ((unfiltered [] .lexical).separator ++ "1'a'' x_y '".toList) =
      [{ kind := .identifier, text := List.replicate 50 '_' },
        { kind := .punctuation, text := ['\\'] }, { kind := .identifier, text := ['n'] },
        { kind := .punctuation, text := ['\\'] }, { kind := .identifier, text := "n1".toList },
        { kind := .literal, text := "'a'".toList }] ++
          [{ kind := .literal, text := "' x_y '".toList }] := by
    cbv
  refine ⟨validate_unfiltered [] .lexical, _, rewritten, ?_, rfl, ?_⟩
  · rw [tokens]
    exact List.mem_append_right _ List.mem_cons_self
  · rw [tokens]
    intro replaced
    have kept := replaced.suffix_of_ne_identifier (by decide)
    have ends := List.suffix_append (unfiltered [] .lexical).separator "1'a'' XY '".toList
    have close := List.suffix_of_suffix_length_le kept ends (by decide)
    exact absurd close (by decide)

end Config

end Recase
