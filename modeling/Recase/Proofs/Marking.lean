import Recase.Proofs.Relexing
import Recase.Proofs.Words
import Mathlib

/-!
# Marking first

A convention that keeps underscores only puts the letter of a member in front of names that begin
with an underscore.  A text that has been marked in this way is taken apart as it was before, part
by part, with the marked names in their places.  Any convention marks these names by itself, and so
it makes no difference to it whether they have been marked already.
-/

namespace Recase

open Character (isWord isWordStart isBlank)
open Token (tokensFrom scan next)

/-! ## Marked names -/

/-- A name with the letter of a member in front, if it begins with an underscore. -/
def markName (name : Text) : Text :=
  (markMember? name).getD name

theorem markName_of_head {name : Text} (plain : name.head? ≠ some '_') : markName name = name := by
  rw [markName, Convention.markMember?_eq_none plain, Option.getD_none]

theorem markName_eq_or (name : Text) : markName name = name ∨ markName name = 'm' :: name := by
  by_cases underscore : name.head? = some '_'
  · obtain ⟨rest, rfl⟩ := List.head?_eq_some_iff.mp underscore
    exact .inr rfl
  · exact .inl (markName_of_head underscore)

theorem markMember?_markName (name : Text) : markMember? (markName name) = none := by
  by_cases underscore : name.head? = some '_'
  · obtain ⟨rest, rfl⟩ := List.head?_eq_some_iff.mp underscore
    rfl
  · rw [markName_of_head underscore, Convention.markMember?_eq_none underscore]

/-- A part of a text, marked if it is a name. -/
def Part.marked (part : Part) : Part :=
  if part.isName then { part with text := markName part.text } else part

/-- A token, marked if it is an identifier. -/
def Token.marked (token : Token) : Token :=
  if token.kind = .identifier then { token with text := markName token.text } else token

theorem Part.ofToken_marked (token : Token) :
    Part.ofToken token.marked = (Part.ofToken token).marked := by
  by_cases identifier : token.kind = .identifier <;>
    simp [Token.marked, Part.marked, Part.ofToken, identifier]

/-- A character outside names comes in front of marked parts as it does in front of others. -/
theorem Part.map_marked_push {isName : Char → Bool} {c : Char} (noName : isName c = false)
    (parts : List Part) :
    (Part.push isName c parts).map Part.marked = Part.push isName c (parts.map Part.marked) := by
  cases parts with
  | nil => simp [Part.push, Part.marked, noName]
  | cons part parts =>
      by_cases name : part.isName <;> simp [Part.push, Part.marked, name, noName]

namespace Convention

variable {convention marking : Convention}

/-! ## Renaming what has been marked -/

theorem getD_rename?_markName (convention : Convention) (name : Text) :
    (convention.rename? (markName name)).getD (markName name) =
      (convention.rename? name).getD name := by
  have camel : (if convention.camelCase then
        convention.camelCase? ((markMember? (markName name)).getD (markName name)) else none) =
      if convention.camelCase then convention.camelCase? ((markMember? name).getD name)
      else none := by
    rw [markMember?_markName, Option.getD_none, markName]
  rw [rename?, rename?, camel]
  generalize (if convention.camelCase then convention.camelCase? ((markMember? name).getD name)
    else none) = joined
  rw [markMember?_markName]
  cases joined <;> rfl

theorem rewritten_eq (convention : Convention) (part : Part) :
    convention.rewritten part =
      if part.isName then (convention.rename? part.text).getD part.text else part.text := by
  by_cases name : part.isName
  · cases renamed : convention.rename? part.text <;>
      simp [rewritten, change?, name, renamed]
  · simp [rewritten, change?, name]

theorem rewriteParts_map_marked (convention : Convention) (parts : List Part) :
    convention.rewriteParts (parts.map Part.marked) = convention.rewriteParts parts := by
  have same (part : Part) : convention.rewritten part.marked = convention.rewritten part := by
    by_cases name : part.isName
    · simp only [rewritten_eq, Part.marked, name, if_true]
      exact convention.getD_rename?_markName part.text
    · simp only [Part.marked, name, if_false, Bool.false_eq_true]
  rw [rewriteParts, rewriteParts, List.flatMap_map]
  simp only [same]

/-! ## Conventions that only mark -/

section Marking

variable (marks : marking.camelCase = false)

include marks in
theorem rename?_of_marks (name : Text) : marking.rename? name = markMember? name := by
  rw [rename?, marks, if_neg Bool.false_ne_true, Option.none_or]

include marks in
/-- A word is found again when the text around it has been marked. -/
theorem ofWords_rewriteParts {isName : Char → Bool} (letter : isName 'm' = true) (text : Text) :
    Part.ofWords isName (marking.rewriteParts (Part.ofWords isName text)) =
      (Part.ofWords isName text).map Part.marked := by
  induction text using wordInduction isName with
  | nil => rfl
  | other c rest noWord ih =>
      rw [Part.ofWords_cons, rewriteParts_push noWord, Part.ofWords_cons, ih,
        Part.map_marked_push noWord]
  | word word rest nonempty allWord ends ih =>
      have newEnds := marking.endsWord_rewriteParts ends
      have equal := markName_eq_or word
      have markedNonempty : markName word ≠ [] := by
        rcases equal with same | same
        · rwa [same]
        · rw [same]
          exact List.cons_ne_nil 'm' word
      have markedWord : ∀ c ∈ markName word, isName c = true :=
        forall_mem_marked equal letter allWord
      rw [Part.ofWords_word nonempty allWord ends, rewriteParts_name, rename?_of_marks marks,
        ← markName, Part.ofWords_word markedNonempty markedWord newEnds, ih]
      rfl

end Marking

end Convention

/-! ## Lexing what has been marked -/

namespace Lexeme

/-- A number ends with the text, or in front of a character that is no letter, digit or underscore
of ASCII. -/
theorem number_ends (previous : Char) (text : Text) {c : Char}
    (head : (number previous text).2.head? = some c) : c.isAlphanum = false ∧ c ≠ '_' := by
  fun_induction number previous text with
  | case1 previous => cases head
  | case2 previous d rest goesOn body after split ih =>
      rw [split] at ih
      exact ih head
  | case3 previous d rest ended =>
      cases head
      constructor
      · apply Bool.eq_false_iff.mpr
        intro alphanumeric
        exact ended (continuesNumber_of_isAlphanum alphanumeric previous rest.head?)
      · rintro rfl
        exact ended rfl

theorem encoded_eq_none_of_not_mem {word : Text} (notRaw : word ∉ rawEncodings)
    (notPlain : word ∉ encodings) (text : Text) : encoded word text = none := by
  rw [encoded.eq_def]
  split
  · rw [if_neg notRaw, if_neg notPlain]
  · rw [if_neg notPlain]
  · rfl

end Lexeme

namespace Token

variable {context : LineContext} {first : Char} {rest : Text}

theorem tokensFrom_of_scan {kind : Kind} {body behind : Text}
    (value : scan context first rest = (kind, body, behind)) :
    tokensFrom context (first :: rest) =
      { kind, text := first :: body } ::
        tokensFrom (context.after { kind, text := first :: body }) behind := by
  rw [tokensFrom_cons, next, value]

theorem scan_of_isNumber (number : (next context first rest).1.isNumber = true) :
    scan context first rest = (.literal, Lexeme.number first rest) := by
  rw [isNumber, Bool.and_eq_true, decide_eq_true_eq] at number
  obtain ⟨literal, begins⟩ := number
  have numeral : first.isDigit = true ∨ first = '.' := by
    simpa [next] using begins
  have noStart : isWordStart first = false := by
    rcases numeral with digit | rfl
    · exact (outside_of_isDigit first digit).1
    · decide
  have different (c : Char) (noDigit : c.isDigit = false) (noPoint : c ≠ '.') : first ≠ c := by
    rintro rfl
    rcases numeral with digit | point
    · rw [noDigit] at digit
      cases digit
    · exact noPoint point
  change (scan context first rest).1 = .literal at literal
  rw [scan] at literal ⊢
  simp only [different '/' (by decide) (by decide), different '#' (by decide) (by decide),
    different '<' (by decide) (by decide), different '"' (by decide) (by decide),
    different '\'' (by decide) (by decide), noStart, false_and, false_or, Bool.false_eq_true,
    if_false] at literal ⊢
  split at literal
  · cases literal
  next noBlank =>
  rw [if_neg noBlank]
  split at literal
  · next decimal => rw [if_pos decimal]
  · cases literal

end Token

namespace Convention

variable {marking : Convention} (marks : marking.camelCase = false)

include marks in
theorem head?_rewriteTokens_of_marks (context : LineContext) {text : Text}
    (plain : text.head? ≠ some '_') :
    (marking.rewriteTokens (tokensFrom context text)).head? = text.head? := by
  cases text with
  | nil => rw [rewriteTokens_tokensFrom_nil]
  | cons c rest =>
      apply head?_rewriteTokens_of_kept
      apply Option.eq_none_iff_forall_ne_some.mpr
      intro name changes
      obtain ⟨-, -, -, -, -, renamed⟩ := exists_identifier changes
      rw [rename?_of_marks marks, markMember?_eq_none (by simpa using plain)] at renamed
      cases renamed

include marks in
theorem calm_of_marks {context : LineContext} {first : Char} {rest : Text}
    (number : (next context first rest).1.isNumber = true) (behind : LineContext) :
    (marking.rewriteTokens
      (tokensFrom behind (scan context first rest).2.2)).head?.any Char.isAlphanum = false := by
  rw [Token.scan_of_isNumber number]
  have noUnderscore : (Lexeme.number first rest).2.head? ≠ some '_' :=
    fun head => (Lexeme.number_ends first rest head).2 rfl
  rw [head?_rewriteTokens_of_marks marks behind noUnderscore]
  cases head : (Lexeme.number first rest).2.head? with
  | none => rfl
  | some c => exact (Lexeme.number_ends first rest head).1

include marks in
/-- A token is kept, with its extent, if marking does not change it. -/
theorem marked_of_newName?_eq_none {token : Token} (unchanged : marking.newName? token = none) :
    token.marked = token := by
  by_cases identifier : token.kind = .identifier
  · rw [newName?, if_pos identifier, rename?_of_marks marks] at unchanged
    rw [Token.marked, if_pos identifier, markName, unchanged, Option.getD_none]
  · rw [Token.marked, if_neg identifier]

/-- A marked name is a name again, whatever its word is and whatever comes behind it. -/
theorem scan_markedName {context : LineContext} (notOpened : context.directive ≠ .opened)
    {word new : Text} (allWord : ∀ c ∈ word, isWord c = true) (ends : EndsWord isWord new) :
    scan context 'm' ('_' :: word ++ new) = (.identifier, '_' :: word, new) := by
  have allMarked : ∀ c ∈ '_' :: word, isWord c = true := by
    intro c member
    rcases List.mem_cons.mp member with rfl | inside
    · decide
    · exact allWord c inside
  have plain : Lexeme.encoded ('m' :: '_' :: word) new = none :=
    Lexeme.encoded_eq_none_of_not_mem (by simp [Lexeme.rawEncodings])
      (by simp [Lexeme.encodings]) new
  rw [Token.scan_word context (by decide) (by decide), if_neg notOpened,
    ends.takeWhile_append allMarked, ends.dropWhile_append allMarked, plain]

include marks in
/-- The tokens of a text are found again when it has been marked. -/
theorem tokensFrom_rewriteTokens (context : LineContext) (text : Text) :
    tokensFrom context (marking.rewriteTokens (tokensFrom context text)) =
      (tokensFrom context text).map Token.marked := by
  fun_induction tokensFrom context text with
  | case1 context => rw [rewriteTokens_nil, tokensFrom, List.map_nil]
  | case2 context first rest token ih =>
      have alike := alike_rewriteTokens marking (context.after token) (next context first rest).2
      have calm : token.isNumber = true → (marking.rewriteTokens (tokensFrom (context.after token)
          (next context first rest).2)).head?.any Char.isAlphanum = false :=
        fun number => calm_of_marks marks number (context.after token)
      rw [rewriteTokens_cons, List.map_cons, ← ih]
      generalize marking.rewriteTokens (tokensFrom (context.after token)
        (next context first rest).2) = new at alike calm
      cases changes : marking.newName? token with
      | none =>
          rw [marked_of_newName?_eq_none marks changes]
          exact Token.tokensFrom_of_scan (Token.scan_exchange alike calm)
      | some name =>
          obtain ⟨-, -, notOpened, allWord, value, renamed⟩ := exists_identifier changes
          rw [rename?_of_marks marks] at renamed
          have underscore : first = '_' := by
            by_contra different
            rw [markMember?_eq_none (by simpa using different)] at renamed
            cases renamed
          subst underscore
          have name_eq : 'm' :: '_' :: rest.takeWhile isWord = name := Option.some.inj renamed
          have token_eq : token =
              { kind := .identifier, text := '_' :: rest.takeWhile isWord } := by
            change (next context '_' rest).1 = _
            rw [next, value]
          have behind_eq : (next context '_' rest).2 = rest.dropWhile isWord := by
            rw [next, value]
          rw [behind_eq] at alike
          have newEnds := alike.endsWord (.dropWhile isWord rest)
          have found := scan_markedName notOpened
            (fun c member => allWord c (List.mem_cons_of_mem '_' member)) newEnds
          rw [← name_eq, Option.getD_some, List.cons_append, Token.tokensFrom_of_scan found,
            LineContext.after_eq_midLine (.inl rfl) context, token_eq,
            LineContext.after_eq_midLine (.inl rfl) context]
          rfl

end Convention

/-! ## Two passes and one -/

namespace Mode

/-- The parts of a text are found again when it has been marked. -/
theorem parts_rewriteParts (mode : Mode) {marking : Convention} (marks : marking.camelCase = false)
    (text : Text) :
    mode.parts (marking.rewriteParts (mode.parts text)) = (mode.parts text).map Part.marked := by
  cases mode with
  | lexical =>
      calc lexical.parts (marking.rewriteParts (lexical.parts text))
          = ((tokensFrom .initial text).map Token.marked).map Part.ofToken :=
            congrArg _ (Convention.tokensFrom_rewriteTokens marks .initial text)
        _ = ((tokensFrom .initial text).map Part.ofToken).map Part.marked := by
            simp only [List.map_map, Function.comp_def, Part.ofToken_marked]
  | text => exact Convention.ofWords_rewriteParts marks (by decide) text

theorem respelt_parts (mode : Mode) (convention : Convention) (text : Text) :
    Respelt convention text (convention.rewriteParts (mode.parts text)) := by
  cases mode with
  | lexical => exact convention.respelt_rewriteTokens .initial text
  | text => exact Convention.respelt_ofWords (by decide) (by decide) text

end Mode

namespace Config

/-- A rewriting that only marks names, and one behind it that brings them into camel case, come to
the same as the second one alone.  In lexical mode the second one finds the tokens that the first
one has found, with the marked names in their places. -/
theorem rewrite_in_two_passes (config : Config) (standard : config.toGuard = default.toGuard)
    {content : Text} (absent : config.placeholder ∉ content) :
    ∃ first second once : Rewrite,
      { config with camelCase := false }.rewrite content = .ok first ∧
        { config with camelCase := true }.rewrite first.content = .ok second ∧
        { config with camelCase := true }.rewrite content = .ok once ∧
        second.content = once.content ∧
        (config.mode = .lexical → Token.tokenize (config.conceal first.content) =
          (Token.tokenize (config.conceal content)).map Token.marked) := by
  let marking : Convention := { config.toConvention with camelCase := false }
  let camel : Convention := { config.toConvention with camelCase := true }
  have concealed : config.protect content = .ok (config.conceal content) :=
    Guard.protect_of_not_mem absent
  have concealedAgain := protect_restore_of_respelt standard concealed
    (config.mode.respelt_parts marking (config.conceal content))
  refine ⟨_, _, _, Guard.rewriteContentBy_of_protect concealed marking config.mode.parts,
    Guard.rewriteContentBy_of_protect concealedAgain camel config.mode.parts,
    Guard.rewriteContentBy_of_protect concealed camel config.mode.parts, ?_, fun lexical => ?_⟩
  · change config.restore _ = config.restore _
    rw [config.mode.parts_rewriteParts rfl, camel.rewriteParts_map_marked]
  · rw [(Guard.protect_eq_ok_iff.mp concealedAgain).2, lexical]
    exact Convention.tokensFrom_rewriteTokens rfl .initial (config.conceal content)

set_option maxRecDepth 2000 in
/-- A name behind a number is marked, and then brought into camel case. -/
theorem rewrite_in_two_passes_number :
    ∃ first second : Rewrite,
      { unfiltered [] .lexical with camelCase := false }.rewrite ['1', '²', '_', 'x'] = .ok first ∧
        first.content = ['1', '²', 'm', '_', 'x'] ∧
        (unfiltered [] .lexical).rewrite first.content = .ok second ∧
        second.content = ['1', '²', 'm', '_', 'X'] := by
  have absent : (unfiltered [] .lexical).placeholder ∉ ['1', '²', '_', 'x'] := by decide
  have marked : { unfiltered [] .lexical with camelCase := false }.rewrite ['1', '²', '_', 'x'] =
      .ok { content := ['1', '²', 'm', '_', 'x']
            replacements := 1
            renames := Index.ofList [(['_', 'x'], ['m', '_', 'x'])] } := by
    cbv
  have direct : (unfiltered [] .lexical).rewrite ['1', '²', '_', 'x'] =
      .ok { content := ['1', '²', 'm', '_', 'X']
            replacements := 1
            renames := Index.ofList [(['_', 'x'], ['m', '_', 'X'])] } := by
    cbv
  obtain ⟨first, second, once, firstRun, secondRun, onceRun, same, -⟩ :=
    rewrite_in_two_passes (unfiltered [] .lexical) rfl absent
  rw [marked] at firstRun
  cases firstRun
  refine ⟨_, second, marked, rfl, secondRun, same.trans ?_⟩
  exact congrArg Rewrite.content (Except.ok.inj (onceRun.symm.trans direct))

end Config

end Recase
