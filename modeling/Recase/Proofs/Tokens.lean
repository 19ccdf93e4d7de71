import Recase.Proofs.Lookahead
import Mathlib

/-!
# Well-formed tokens

The tokens of a source text give it back, and each of them has the form that its kind asks for.
Identifiers and white space are runs that do not go on behind the token.  Punctuation is a single
character, but for the name of a directive, which is a word behind the number sign that begins a
line.  All this is read off one look at what a character can begin.
-/

namespace Recase

open Character (isWord isWordStart isBlank isIdentifier)
open Token (tokensFrom scan next tokenize render)

/-! ## Bytes -/

namespace Text

theorem byteCount_cons (c : Char) (text : Text) :
    byteCount (c :: text) = c.utf8Size + byteCount text := rfl

theorem byteCount_append (left right : Text) :
    byteCount (left ++ right) = byteCount left + byteCount right := by
  induction left with
  | nil => simp [byteCount]
  | cons c left ih => rw [List.cons_append, byteCount_cons, byteCount_cons, ih, Nat.add_assoc]

theorem byteCount_eq_utf8ByteSize (text : Text) :
    byteCount text = (String.ofList text).utf8ByteSize := by
  induction text with
  | nil => simp [byteCount]
  | cons c text ih =>
      rw [byteCount_cons, ih, String.ofList_cons]
      simp

/-- The place behind a text, counted in bytes, is a place between characters. -/
theorem isValid_byteCount (before behind : Text) :
    String.Pos.Raw.IsValid (String.ofList (before ++ behind)) ⟨byteCount before⟩ := by
  apply String.Pos.Raw.isValid_iff_exists_append.mpr
  refine ⟨String.ofList before, String.ofList behind, ?_, ?_⟩
  · exact String.ofList_append
  · rw [byteCount_eq_utf8ByteSize]
    rfl

end Text

namespace Token

/-! ## What a character can begin -/

/-- What a character can begin, with the text behind it split where the token ends. -/
inductive Begins (context : LineContext) (first : Char) (rest : Text) :
    Kind × Text × Text → Prop where
  | whitespace (blank : isBlank first = true) :
      Begins context first rest (.whitespace, rest.takeWhile isBlank, rest.dropWhile isBlank)
  | comment (extent : Text × Text) : Begins context first rest (.comment, extent)
  | literal (extent : Text × Text) : Begins context first rest (.literal, extent)
  | directive (starts : isWordStart first = true) (opened : context.directive = .opened) :
      Begins context first rest (.punctuation, rest.takeWhile isWord, rest.dropWhile isWord)
  | identifier (starts : isWordStart first = true) :
      Begins context first rest (.identifier, rest.takeWhile isWord, rest.dropWhile isWord)
  | punctuation : Begins context first rest (.punctuation, [], rest)

/-- Every character begins a token of one of these forms. -/
theorem begins_scan (context : LineContext) (first : Char) (rest : Text) :
    Begins context first rest (scan context first rest) := by
  rw [scan]
  split
  · next blank => exact .whitespace blank
  split
  · exact .comment _
  split
  · exact .comment _
  split
  · exact .punctuation
  split
  · exact .literal _
  split
  · next starts =>
      dsimp only
      split
      · next opened => exact .directive starts opened
      split
      · exact .literal _
      · exact .identifier starts
  split
  · exact .literal _
  split
  · exact .literal _
  · exact .punctuation

end Token

/-! ## What stands in front of a token -/

namespace LineContext

/-- The context behind some tokens. -/
def behind (context : LineContext) (tokens : List Token) : LineContext :=
  tokens.foldl after context

@[simp] theorem behind_nil (context : LineContext) : context.behind [] = context := rfl

@[simp] theorem behind_cons (context : LineContext) (token : Token) (tokens : List Token) :
    context.behind (token :: tokens) = (context.after token).behind tokens := rfl

theorem behind_concat (context : LineContext) (tokens : List Token) (token : Token) :
    context.behind (tokens ++ [token]) = (context.behind tokens).after token := by
  simp [behind]

end LineContext

namespace Token

/-- Whether a token is passed over when the beginning of a line is looked for. -/
def IsTrivia (token : Token) : Prop :=
  token.kind = .comment ∨ token.kind = .whitespace

/-- Whether what stands behind a token may be the beginning of a line. -/
def EndsLine (token : Token) : Prop :=
  token.kind = .whitespace ∧ '\n' ∈ token.text ∨
    token.kind = .comment ∧ token.text.getLast? = some '\n'

/-- Whether tokens lead to the beginning of a line: nothing but white space and comments stands
behind the beginning of the source text, or behind the end of a line. -/
inductive BeginsLine : List Token → Prop where
  | source : BeginsLine []
  | line {tokens : List Token} {token : Token} (ends : token.EndsLine) :
      BeginsLine (tokens ++ [token])
  | trivia {tokens : List Token} {token : Token} (begins : BeginsLine tokens)
      (trivia : token.IsTrivia) : BeginsLine (tokens ++ [token])

/-- Whether tokens lead to the name of a directive: nothing but comments, and white space within
the line, stands behind a number sign at the beginning of a line. -/
inductive OpensDirective : List Token → Prop where
  | sign {tokens : List Token} (begins : BeginsLine tokens) :
      OpensDirective (tokens ++ [{ kind := .punctuation, text := ['#'] }])
  | comment {tokens : List Token} {token : Token} (opens : OpensDirective tokens)
      (comment : token.kind = .comment) : OpensDirective (tokens ++ [token])
  | whitespace {tokens : List Token} {token : Token} (opens : OpensDirective tokens)
      (whitespace : token.kind = .whitespace) (sameLine : '\n' ∉ token.text) :
      OpensDirective (tokens ++ [token])

/-- The lexer takes a line to begin only where one does. -/
theorem beginsLine_of_atStart (tokens : List Token)
    (atStart : (LineContext.initial.behind tokens).atStart = true) : BeginsLine tokens := by
  induction tokens using List.reverseRecOn with
  | nil => exact .source
  | append_singleton tokens token ih =>
      rw [LineContext.behind_concat] at atStart
      simp only [LineContext.after, LineContext.atStartAfter] at atStart
      cases kind : token.kind with
      | identifier => simp [kind] at atStart
      | literal => simp [kind] at atStart
      | punctuation => simp [kind] at atStart
      | comment =>
          simp only [kind, Bool.or_eq_true, beq_iff_eq] at atStart
          rcases atStart with before | lineFeed
          · exact .trivia (ih before) (.inl kind)
          · exact .line (.inr ⟨kind, lineFeed⟩)
      | whitespace =>
          simp only [kind, Bool.or_eq_true, List.contains_iff_mem] at atStart
          rcases atStart with before | lineFeed
          · exact .trivia (ih before) (.inr kind)
          · exact .line (.inl ⟨kind, lineFeed⟩)

/-- The lexer takes a directive to be opened only where one is. -/
theorem opensDirective_of_opened (tokens : List Token)
    (opened : (LineContext.initial.behind tokens).directive = .opened) : OpensDirective tokens := by
  induction tokens using List.reverseRecOn with
  | nil => cases opened
  | append_singleton tokens token ih =>
      rw [LineContext.behind_concat] at opened
      simp only [LineContext.after, LineContext.directiveAfter] at opened
      cases kind : token.kind with
      | identifier => simp [kind] at opened
      | literal => simp [kind] at opened
      | comment =>
          rw [kind] at opened
          exact .comment (ih opened) kind
      | whitespace =>
          simp only [kind] at opened
          split at opened
          · cases opened
          · next sameLine =>
              refine .whitespace (ih opened) kind ?_
              simpa using sameLine
      | punctuation =>
          simp only [kind] at opened
          split at opened
          · split at opened
            · next sign =>
                obtain ⟨text, atStart⟩ := sign
                have same : token = { kind := .punctuation, text := ['#'] } := by
                  cases token
                  simp_all
                rw [same]
                exact .sign (beginsLine_of_atStart tokens atStart)
            · cases opened
          · split at opened <;> cases opened
          · cases opened

/-! ## Where a token comes from -/

/-- A token that is found among others begins with a character behind what those in front of it
have taken, in the context that they leave. -/
theorem exists_next_of_tokensFrom {context : LineContext} {text : Text}
    {before behind : List Token} {token : Token}
    (split : tokensFrom context text = before ++ token :: behind) :
    ∃ first rest, text = render before ++ first :: rest ∧
      next (context.behind before) first rest = (token, render behind) := by
  induction before generalizing context text with
  | nil =>
      cases text with
      | nil => simp [tokensFrom] at split
      | cons first rest =>
          rw [tokensFrom, List.nil_append] at split
          obtain ⟨same, others⟩ := List.cons.inj split
          refine ⟨first, rest, rfl, Prod.ext same ?_⟩
          rw [← others, render_tokensFrom]
          rfl
  | cons earlier before ih =>
      cases text with
      | nil => simp [tokensFrom] at split
      | cons first rest =>
          rw [tokensFrom, List.cons_append] at split
          obtain ⟨same, others⟩ := List.cons.inj split
          obtain ⟨later, more, behindFirst, found⟩ := ih others
          refine ⟨later, more, ?_, ?_⟩
          · rw [render_cons, List.append_assoc, ← behindFirst, ← same, next_append]
          · rw [LineContext.behind_cons, ← same]
            exact found

/-! ## Well-formed tokens -/

/-- The form of a token between those in front of it and the text behind it.  Identifiers and white
space go as far as they can, and punctuation is a single character or the name of a directive. -/
structure WellFormed (before : List Token) (token : Token) (rest : Text) : Prop where
  nonempty : token.text ≠ []
  identifier : token.kind = .identifier →
    isIdentifier token.text = true ∧ EndsWord isWord rest
  whitespace : token.kind = .whitespace →
    (∀ c ∈ token.text, isBlank c = true) ∧ EndsWord isBlank rest
  punctuation : token.kind = .punctuation →
    (∃ c, token.text = [c]) ∨ isIdentifier token.text = true ∧ OpensDirective before

theorem isIdentifier_takeWhile {first : Char} (starts : isWordStart first = true) (rest : Text) :
    isIdentifier (first :: rest.takeWhile isWord) = true := by
  rw [isIdentifier, starts, Bool.true_and, List.all_eq_true]
  intro c member
  exact List.mem_takeWhile_imp member

theorem wellFormed_of_begins {before : List Token} {first : Char} {rest : Text}
    {found : Kind × Text × Text}
    (begins : Begins (LineContext.initial.behind before) first rest found) :
    WellFormed before { kind := found.1, text := first :: found.2.1 } found.2.2 := by
  constructor
  · exact List.cons_ne_nil first _
  · intro identifier
    cases begins with
    | identifier starts => exact ⟨isIdentifier_takeWhile starts rest, .dropWhile isWord rest⟩
    | whitespace => cases identifier
    | comment => cases identifier
    | literal => cases identifier
    | directive => cases identifier
    | punctuation => cases identifier
  · intro whitespace
    cases begins with
    | whitespace blank =>
        refine ⟨?_, .dropWhile isBlank rest⟩
        intro c member
        rcases List.mem_cons.mp member with rfl | member
        · exact blank
        · exact List.mem_takeWhile_imp member
    | identifier => cases whitespace
    | comment => cases whitespace
    | literal => cases whitespace
    | directive => cases whitespace
    | punctuation => cases whitespace
  · intro punctuation
    cases begins with
    | directive starts opened =>
        right
        exact ⟨isIdentifier_takeWhile starts rest, opensDirective_of_opened before opened⟩
    | punctuation => exact .inl ⟨first, rfl⟩
    | identifier => cases punctuation
    | whitespace => cases punctuation
    | comment => cases punctuation
    | literal => cases punctuation

/-- Every token of a source text has the form of its kind. -/
theorem wellFormed_of_tokenize {source : Text} {before behind : List Token} {token : Token}
    (split : tokenize source = before ++ token :: behind) :
    WellFormed before token (render behind) := by
  obtain ⟨first, rest, -, found⟩ := exists_next_of_tokensFrom split
  have formed : WellFormed before (next (LineContext.initial.behind before) first rest).1
      (next (LineContext.initial.behind before) first rest).2 :=
    wellFormed_of_begins (begins_scan (LineContext.initial.behind before) first rest)
  rw [found] at formed
  exact formed

theorem text_ne_nil_of_mem {source : Text} {token : Token} (member : token ∈ tokenize source) :
    token.text ≠ [] := by
  obtain ⟨before, behind, split⟩ := List.append_of_mem member
  exact (wellFormed_of_tokenize split).nonempty

theorem isWord_of_mem_identifier {source : Text} {token : Token} (member : token ∈ tokenize source)
    (identifier : token.kind = .identifier) : ∀ c ∈ token.text, isWord c = true := by
  obtain ⟨before, behind, split⟩ := List.append_of_mem member
  have shape := ((wellFormed_of_tokenize split).identifier identifier).1
  intro c inside
  exact Character.isWord_of_isIdentifier shape inside

theorem length_le_length_render {tokens : List Token}
    (nonempty : ∀ token ∈ tokens, token.text ≠ []) : tokens.length ≤ (render tokens).length := by
  induction tokens with
  | nil => rfl
  | cons token tokens ih =>
      have first := List.length_pos_iff.mpr (nonempty token (by simp))
      have others := ih fun other member => nonempty other (List.mem_cons_of_mem _ member)
      rw [render_cons, List.length_append, List.length_cons]
      omega

/-- Lexing ends, with no more tokens than there are characters, and loses nothing.  Every token is
well formed, and it ends, counted in bytes, at a place between characters of the source text. -/
theorem tokenize_wellFormed (source : Text) :
    render (tokenize source) = source ∧ (tokenize source).length ≤ source.length ∧
      ∀ before token behind, tokenize source = before ++ token :: behind →
        WellFormed before token (render behind) ∧
          String.Pos.Raw.IsValid (String.ofList source)
            ⟨Text.byteCount (render before) + Text.byteCount token.text⟩ := by
  have whole : render (tokenize source) = source := render_tokensFrom .initial source
  refine ⟨whole, ?_, ?_⟩
  · have bound : (tokenize source).length ≤ (render (tokenize source)).length := by
      apply length_le_length_render
      intro token member
      exact text_ne_nil_of_mem member
    rw [whole] at bound
    exact bound
  · intro before token behind split
    constructor
    · exact wellFormed_of_tokenize split
    · have parts : source = (render before ++ token.text) ++ render behind := by
        rw [← whole, split, render_append, render_cons, List.append_assoc]
      rw [parts, ← Text.byteCount_append]
      exact Text.isValid_byteCount (render before ++ token.text) (render behind)

/-- A sign between a name and a number ends three bytes behind the beginning. -/
theorem tokenize_wellFormed_accent :
    WellFormed [{ kind := .identifier, text := ['é'] }] { kind := .punctuation, text := ['+'] }
        ['1'] ∧
      String.Pos.Raw.IsValid (String.ofList ['é', '+', '1']) ⟨3⟩ := by
  have tokens : tokenize ['é', '+', '1'] =
      [{ kind := .identifier, text := ['é'] }] ++ { kind := .punctuation, text := ['+'] } ::
        [{ kind := .literal, text := ['1'] }] := by
    cbv
  exact (tokenize_wellFormed ['é', '+', '1']).2.2 _ _ _ tokens

end Token

end Recase
