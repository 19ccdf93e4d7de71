import Recase.Proofs.Restoring
import Mathlib

/-!
# Shielded separators

Comments and literals shield the separators that they hold, delimiters of raw strings apart.  Where
all separators of a text are shielded and inert, the tokens of the text are those of the concealed
text with the separators put back.  This is shown for one token first, for each form that it may
have, and carried along the text from there: what is read behind a token does not depend on the
separators in it.
-/

namespace Recase

open Character (isWord isWordStart isBlank)
open Token (tokensFrom scan next)

/-! ## Tokens of restored texts -/

/-- The delimiter of a raw string.  Other tokens have none. -/
def Token.rawDelimiter (token : Token) : Text :=
  if token.kind = .literal ∧ Lexeme.rawEncodings.contains (token.text.takeWhile isWord) then
    ((token.text.dropWhile isWord).drop 1).takeWhile (· != '(')
  else
    []

namespace Guard

variable {guard : Guard}

/-- A token shields the separators that it holds: it is a comment or a literal, and they are not
part of the delimiter of a raw string. -/
def Shields (guard : Guard) (token : Token) : Prop :=
  guard.placeholder ∈ token.text →
    (token.kind = .comment ∨ token.kind = .literal) ∧ guard.placeholder ∉ token.rawDelimiter

instance (guard : Guard) (token : Token) : Decidable (guard.Shields token) :=
  inferInstanceAs (Decidable (_ → _))

/-- A token with its separators restored. -/
def restoreToken (guard : Guard) (token : Token) : Token :=
  { token with text := guard.restore token.text }

theorem Shields.not_mem_delimiter {word body after text : Text}
    (shields : guard.Shields { kind := .literal, text := word ++ '"' :: body })
    (allWord : ∀ c ∈ word, isWord c = true) (raw : word ∈ Lexeme.rawEncodings)
    (found : Lexeme.rawString text = some (body, after)) :
    guard.placeholder ∉ text.takeWhile (· != '(') := by
  have delimits := Lexeme.takeWhile_of_rawString found
  have ends : EndsWord isWord ('"' :: body) := .cons (by decide) body
  intro member
  rw [← delimits] at member
  have inside : guard.placeholder ∈ body := (List.takeWhile_prefix _).subset member
  obtain ⟨-, absent⟩ := shields (by simp [inside])
  rw [Token.rawDelimiter, ends.takeWhile_append allWord,
    if_pos ⟨rfl, List.contains_iff_mem.mpr raw⟩,
    ends.dropWhile_append allWord, List.drop_succ_cons, List.drop_zero] at absent
  exact absent member

theorem render_map_restoreToken (tokens : List Token) :
    Token.render (tokens.map guard.restoreToken) = guard.restore (Token.render tokens) := by
  induction tokens with
  | nil => rfl
  | cons token tokens ih =>
      rw [List.map_cons, Token.render_cons, ih, Token.render_cons, restore_append]
      rfl

theorem restoreToken_of_not_mem {token : Token} (absent : guard.placeholder ∉ token.text) :
    guard.restoreToken token = token := by
  rw [restoreToken, guard.restore_of_not_mem absent]

end Guard

section Tokens

variable {guard : Guard} {context : LineContext} {first : Char} {rest : Text}

theorem Token.not_mem_delimiter (starts : isWordStart first = true)
    (noBlank : isBlank first = false) (notOpened : context.directive ≠ .opened)
    (shields : guard.Shields (next context first rest).1) {more : Text}
    (quote : rest.dropWhile isWord = '"' :: more)
    (raw : first :: rest.takeWhile isWord ∈ Lexeme.rawEncodings)
    (opens : (Lexeme.rawString more).isSome = true) :
    guard.placeholder ∉ more.takeWhile (· != '(') := by
  obtain ⟨⟨body, after⟩, found⟩ := Option.isSome_iff_exists.mp opens
  have value : scan context first rest =
      (.literal, rest.takeWhile isWord ++ '"' :: body, after) := by
    rw [scan_word context starts noBlank, if_neg notOpened, quote, Lexeme.encoded, if_pos raw,
      found]
    rfl
  rw [next, value] at shields
  have allWord : ∀ c ∈ first :: rest.takeWhile isWord, isWord c = true := by
    intro c member
    rcases List.mem_cons.mp member with rfl | member
    · exact Character.isWord_of_isWordStart starts
    · exact List.mem_takeWhile_imp member
  exact Guard.Shields.not_mem_delimiter shields allWord raw found

variable (allowed : Config.isPlaceholder guard.placeholder = true)

include allowed

theorem Lexeme.head?_ne_placeholder_of_encoded {word text : Text} {parts : Text × Text}
    (found : encoded word text = some parts) : text.head? ≠ some guard.placeholder := by
  have noString := Guard.ne_placeholder_of_ascii allowed (c := '"') (by decide)
  have noCharacter := Guard.ne_placeholder_of_ascii allowed (c := '\'') (by decide)
  intro head
  rw [encoded_eq_none_of_head (by simpa [head] using noString.symm)
    (by simpa [head] using noCharacter.symm)] at found
  cases found

/-- A placeholder in code is a token by itself, or part of white space. -/
theorem Token.not_shields_next_placeholder (context : LineContext) (rest : Text) :
    ¬ guard.Shields (next context guard.placeholder rest).1 := by
  have different (c : Char) (ascii : c.toNat < 0x80) : guard.placeholder ≠ c :=
    (Guard.ne_placeholder_of_ascii allowed ascii).symm
  have noDigit := Guard.isDigit_placeholder allowed
  have noWord := isWordStart_of_isWord_eq_false (Config.isWord_eq_false_of_isPlaceholder allowed)
  intro shields
  obtain ⟨kind, -⟩ := shields List.mem_cons_self
  change (scan context guard.placeholder rest).1 = .comment ∨
    (scan context guard.placeholder rest).1 = .literal at kind
  simp only [scan, different '/' (by decide), different '#' (by decide), different '<' (by decide),
    different '.' (by decide), different '"' (by decide), different '\'' (by decide), noDigit,
    noWord, false_and, or_false, Bool.false_eq_true, if_false] at kind
  split at kind <;> rcases kind with comment | literal <;> contradiction

variable (inert : guard.Inert)

include inert

theorem Token.scan_word_restore (starts : isWordStart first = true)
    (noBlank : isBlank first = false) (shields : guard.Shields (next context first rest).1)
    (follows : (scan context first rest).2.2.head? ≠ some guard.placeholder) :
    scan context first (guard.restore rest) =
      ((scan context first rest).1, guard.restore (scan context first rest).2.1,
        guard.restore (scan context first rest).2.2) := by
  have noWord := Config.isWord_eq_false_of_isPlaceholder allowed
  have allWord : ∀ c ∈ rest.takeWhile isWord, isWord c = true :=
    fun c member => List.mem_takeWhile_imp member
  have absent : guard.placeholder ∉ rest.takeWhile isWord := by
    intro member
    rw [allWord _ member] at noWord
    cases noWord
  by_cases opened : context.directive = .opened
  · have value : scan context first rest =
        (.punctuation, rest.takeWhile isWord, rest.dropWhile isWord) := by
      rw [scan_word context starts noBlank, if_pos opened]
    rw [value] at follows ⊢
    obtain ⟨word, behind⟩ := Guard.takeWhile_restore absent follows
    rw [scan_word context starts noBlank, if_pos opened, word, behind,
      guard.restore_of_not_mem absent]
  have shieldsRaw := fun more (quote : rest.dropWhile isWord = '"' :: more) raw =>
    Token.not_mem_delimiter starts noBlank opened shields quote raw
  cases literal : Lexeme.encoded (first :: rest.takeWhile isWord) (rest.dropWhile isWord) with
  | none =>
      have value : scan context first rest =
          (.identifier, rest.takeWhile isWord, rest.dropWhile isWord) := by
        rw [scan_word context starts noBlank, if_neg opened, literal]
      rw [value] at follows ⊢
      obtain ⟨word, behind⟩ := Guard.takeWhile_restore absent follows
      have still := Lexeme.encoded_restore allowed inert follows shieldsRaw
      change Lexeme.encoded (first :: rest.takeWhile isWord)
        (guard.restore (rest.dropWhile isWord)) = _ at still
      rw [literal, Option.map_none] at still
      rw [scan_word context starts noBlank, if_neg opened, word, behind, still,
        guard.restore_of_not_mem absent]
  | some parts =>
      obtain ⟨body, after⟩ := parts
      have value : scan context first rest = (.literal, rest.takeWhile isWord ++ body, after) := by
        rw [scan_word context starts noBlank, if_neg opened, literal]
      have quoteFollows := Lexeme.head?_ne_placeholder_of_encoded allowed literal
      obtain ⟨word, behind⟩ := Guard.takeWhile_restore absent quoteFollows
      have still := Lexeme.encoded_restore allowed inert quoteFollows shieldsRaw
      rw [literal, Option.map_some] at still
      rw [value, scan_word context starts noBlank, if_neg opened, word, behind, still,
        Guard.restore_append, guard.restore_of_not_mem absent]

/-- A token that shields its separators is found in the restored text as well. -/
theorem Token.scan_restore (shields : guard.Shields (next context first rest).1)
    (follows : (scan context first rest).2.2.head? ≠ some guard.placeholder) :
    scan context first (guard.restore rest) =
      ((scan context first rest).1, guard.restore (scan context first rest).2.1,
        guard.restore (scan context first rest).2.2) := by
  have slash := Guard.head?_restore_iff inert.nonempty
    (Guard.ne_placeholder_of_ascii allowed (c := '/') (by decide)) (inert.not_mem (by decide)) rest
  have star := Guard.head?_restore_iff inert.nonempty
    (Guard.ne_placeholder_of_ascii allowed (c := '*') (by decide)) (inert.not_mem (by decide)) rest
  have digit := Guard.any_head?_restore inert.nonempty Char.isDigit
    (Guard.isDigit_placeholder allowed) inert.any_isDigit_head? rest
  refine scan_cases (motive := fun old now =>
    guard.Shields { kind := old.1, text := first :: old.2.1 } →
    old.2.2.head? ≠ some guard.placeholder →
    now = (old.1, guard.restore old.2.1, guard.restore old.2.2)) slash star digit
    ?_ ?_ ?_ ?_ ?_ ?_ ?_ ?_ shields follows
  · rintro - shields follows
    have absent : guard.placeholder ∉ rest.takeWhile isBlank := by
      intro member
      obtain ⟨comment | literal, -⟩ := shields (List.mem_cons_of_mem first member)
      · cases comment
      · cases literal
    obtain ⟨blanks, behind⟩ := Guard.takeWhile_restore absent follows
    rw [blanks, behind, guard.restore_of_not_mem absent]
  · rintro - -
    rw [Lexeme.lineComment_restore allowed inert]
  · rintro opens - -
    rw [Lexeme.blockComment_restore allowed inert opens]
  · rintro - -
    rw [Lexeme.headerName_restore allowed inert]
  · rintro starts noBlank shields follows
    exact scan_word_restore allowed inert starts noBlank shields follows
  · rintro - - follows
    rw [Lexeme.number_restore allowed inert follows]
  · rintro quote - -
    have closes : first ∈ Guard.closers := by
      rcases quote with rfl | rfl <;> decide
    rw [Lexeme.quoted_restore allowed inert closes]
  · rintro - -
    rfl

/-- What is read behind a token does not depend on the separators that it shields. -/
theorem LineContext.after_restoreToken {token : Token} (shields : guard.Shields token)
    (context : LineContext) : context.after (guard.restoreToken token) = context.after token := by
  by_cases inside : guard.placeholder ∈ token.text
  · obtain ⟨kind, text⟩ := token
    obtain ⟨comment | literal, -⟩ := shields inside
    · cases comment
      have last := Guard.getLast?_restore_iff inert.nonempty
        (Guard.ne_placeholder_of_ascii allowed (c := '\n') (by decide))
        (inert.not_mem (by decide)) text
      have ends : ((guard.restore text).getLast? == some '\n') = (text.getLast? == some '\n') := by
        rw [Bool.eq_iff_iff, beq_iff_eq, beq_iff_eq, last]
      simp only [LineContext.after, LineContext.directiveAfter, LineContext.atStartAfter,
        Guard.restoreToken, ends]
    · cases literal
      rfl
  · rw [Guard.restoreToken_of_not_mem inside]

/-- If all tokens shield their separators, lexing gives the same tokens with the separators in
place. -/
theorem Token.tokensFrom_restore {text : Text}
    (shields : ∀ token ∈ tokensFrom context text, guard.Shields token) :
    tokensFrom context (guard.restore text) = (tokensFrom context text).map guard.restoreToken := by
  fun_induction tokensFrom context text with
  | case1 context => rw [Guard.restore_nil, tokensFrom, List.map_nil]
  | case2 context first rest token ih =>
      have plain : first ≠ guard.placeholder := by
        rintro rfl
        exact not_shields_next_placeholder allowed context rest (shields _ List.mem_cons_self)
      have follows : (next context first rest).2.head? ≠ some guard.placeholder := by
        intro head
        obtain ⟨more, behind⟩ := List.head?_eq_some_iff.mp head
        rw [behind, tokensFrom] at shields
        exact not_shields_next_placeholder allowed (context.after token) more
          (shields _ (List.mem_cons_of_mem _ List.mem_cons_self))
      have tokenShields := shields _ List.mem_cons_self
      have read : next context first (guard.restore rest) =
          (guard.restoreToken token, guard.restore (next context first rest).2) := by
        have restored : guard.restore token.text =
            first :: guard.restore (scan context first rest).2.1 :=
          Guard.restore_cons_of_ne plain _
        rw [next, scan_restore allowed inert tokenShields follows, Guard.restoreToken, restored]
        rfl
      rw [Guard.restore_cons_of_ne plain, tokensFrom, read, List.map_cons,
        LineContext.after_restoreToken allowed inert tokenShields,
        ih fun later member => shields later (List.mem_cons_of_mem _ member)]

end Tokens

end Recase
