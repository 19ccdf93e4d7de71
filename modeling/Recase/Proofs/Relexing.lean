import Recase.Config
import Recase.Proofs.Lookahead
import Recase.Proofs.Separation
import Mathlib

/-!
# Lexing what has been rewritten

A rewriting that finds names as tokens writes a text that is then lexed anew.  Tokens that were kept
come back in the same contexts, and new names come back as names that stay, with three exceptions.
A name may become one that opens a raw string together with the literal behind it.  A number takes
in a new name that begins with a letter of ASCII, where the old one did not.  And a name that a
capital breaks may leave a digit behind that begins a number.  Up to the first such place a second
rewriting changes nothing, and from there on all depends on how the rest is lexed anew.
-/

namespace Recase

open Character (IsCapitalForm isWord isWordStart isBlank)
open Token (tokensFrom scan next)

/-! ## Contexts and tokens -/

namespace LineContext

/-- The context behind a name or a literal. -/
def midLine : LineContext where
  directive := .outside
  atStart := false

theorem after_eq_midLine {token : Token} (word : token.kind = .identifier ∨ token.kind = .literal)
    (context : LineContext) : context.after token = midLine := by
  rcases word with kind | kind <;> simp [after, directiveAfter, atStartAfter, kind, midLine]

/-- A single character that is no number sign leads back to ordinary text. -/
theorem after_eq_midLine_of_punctuation {c : Char} (noSign : c ≠ '#') {context : LineContext}
    (notOpened : context.directive ≠ .opened) :
    context.after { kind := .punctuation, text := [c] } = midLine := by
  cases directive : context.directive with
  | outside => simp [after, directiveAfter, atStartAfter, directive, noSign, midLine]
  | opened => exact absurd directive notOpened
  | inclusion => simp [after, directiveAfter, atStartAfter, directive, midLine]

end LineContext

namespace Token

variable {context : LineContext} {first : Char} {rest : Text}

theorem tokensFrom_cons (context : LineContext) (first : Char) (rest : Text) :
    tokensFrom context (first :: rest) =
      (next context first rest).1 ::
        tokensFrom (context.after (next context first rest).1) (next context first rest).2 := by
  rw [tokensFrom]

theorem scan_of_identifier (identifier : (scan context first rest).1 = .identifier) :
    isWordStart first = true ∧ isBlank first = false ∧ context.directive ≠ .opened ∧
      scan context first rest = (.identifier, rest.takeWhile isWord, rest.dropWhile isWord) := by
  rw [scan] at identifier
  split at identifier
  · cases identifier
  next noBlank =>
  split at identifier
  · cases identifier
  split at identifier
  · cases identifier
  split at identifier
  · cases identifier
  split at identifier
  · cases identifier
  split at identifier
  next starts =>
      rw [Bool.not_eq_true] at noBlank
      dsimp only at identifier
      split at identifier
      · cases identifier
      next notOpened =>
      split at identifier
      · cases identifier
      next missed =>
      refine ⟨starts, noBlank, notOpened, ?_⟩
      rw [scan_word context starts noBlank, if_neg notOpened, missed]
  split at identifier
  · cases identifier
  split at identifier
  · cases identifier
  · cases identifier

theorem scan_quote {quote : Char} (isQuote : quote = '"' ∨ quote = '\'') (context : LineContext)
    (rest : Text) : scan context quote rest = (.literal, Lexeme.quoted quote rest) := by
  rcases isQuote with rfl | rfl <;> rfl

end Token

namespace Convention

variable {convention : Convention}

/-! ## Rewriting tokens -/

/-- The new name, if a token is a name that changes. -/
def newName? (convention : Convention) (token : Token) : Option Text :=
  if token.kind = .identifier then convention.rename? token.text else none

/-- The text that a list of tokens is rewritten to. -/
def rewriteTokens (convention : Convention) (tokens : List Token) : Text :=
  convention.rewriteParts (tokens.map Part.ofToken)

@[simp] theorem rewriteTokens_nil : convention.rewriteTokens [] = [] := rfl

theorem rewriteTokens_cons (token : Token) (tokens : List Token) :
    convention.rewriteTokens (token :: tokens) =
      (convention.newName? token).getD token.text ++ convention.rewriteTokens tokens := by
  have text : convention.rewritten (Part.ofToken token) =
      (convention.newName? token).getD token.text := by
    by_cases identifier : token.kind = .identifier
    · cases renamed : convention.rename? token.text <;>
        simp [rewritten, change?, Part.ofToken, newName?, identifier, renamed]
    · simp [rewritten, change?, Part.ofToken, newName?, identifier]
  rw [rewriteTokens, List.map_cons, rewriteParts, List.flatMap_cons, text]
  rfl

theorem changes_eq_nil_iff (tokens : List Token) :
    convention.changes (tokens.map Part.ofToken) = [] ↔
      ∀ token ∈ tokens, convention.newName? token = none := by
  simp [changes, List.filterMap_eq_nil_iff, change?, Part.ofToken, newName?]

theorem newName?_eq_some {token : Token} {name : Text}
    (changes : convention.newName? token = some name) :
    token.kind = .identifier ∧ convention.rename? token.text = some name :=
  Option.ite_none_right_eq_some.mp changes

theorem newName?_of_not_start {context : LineContext} {first : Char} {rest : Text}
    (noStart : isWordStart first = false) :
    convention.newName? (next context first rest).1 = none := by
  apply if_neg
  intro identifier
  rw [(Token.scan_of_identifier identifier).1] at noStart
  cases noStart

/-- Tokens that begin a text, and what becomes of them. -/
theorem rewriteTokens_tokensFrom_cons (context : LineContext) (first : Char) (rest : Text) :
    convention.rewriteTokens (tokensFrom context (first :: rest)) =
      (convention.newName? (next context first rest).1).getD
          (first :: (scan context first rest).2.1) ++
        convention.rewriteTokens (tokensFrom (context.after (next context first rest).1)
          (scan context first rest).2.2) := by
  rw [Token.tokensFrom_cons, rewriteTokens_cons]
  rfl

theorem exists_identifier {context : LineContext} {first : Char} {rest name : Text}
    (changes : convention.newName? (next context first rest).1 = some name) :
    isWordStart first = true ∧ isBlank first = false ∧ context.directive ≠ .opened ∧
      (∀ c ∈ first :: rest.takeWhile isWord, isWord c = true) ∧
      scan context first rest = (.identifier, rest.takeWhile isWord, rest.dropWhile isWord) ∧
      convention.rename? (first :: rest.takeWhile isWord) = some name := by
  obtain ⟨identifier, renamed⟩ := newName?_eq_some changes
  obtain ⟨starts, noBlank, notOpened, value⟩ := Token.scan_of_identifier identifier
  refine ⟨starts, noBlank, notOpened, ?_, value, ?_⟩
  · intro c member
    rcases List.mem_cons.mp member with rfl | later
    · exact Character.isWord_of_isWordStart starts
    · exact List.mem_takeWhile_imp later
  · rwa [next, value] at renamed

/-! ## The rewritten text begins as the old one does -/

theorem head?_rewriteTokens_of_kept {context : LineContext} {first : Char} {rest : Text}
    (kept : convention.newName? (next context first rest).1 = none) :
    (convention.rewriteTokens (tokensFrom context (first :: rest))).head? = some first := by
  rw [rewriteTokens_tokensFrom_cons, kept]
  rfl

theorem head?_rewriteTokens_of_not_start (context : LineContext) {text : Text} {c : Char}
    (head : text.head? = some c) (noStart : isWordStart c = false) :
    (convention.rewriteTokens (tokensFrom context text)).head? = some c := by
  obtain ⟨rest, rfl⟩ := List.head?_eq_some_iff.mp head
  exact head?_rewriteTokens_of_kept (newName?_of_not_start noStart)

theorem rewriteTokens_tokensFrom_nil (context : LineContext) :
    convention.rewriteTokens (tokensFrom context []) = [] := by
  rw [tokensFrom]
  rfl

theorem rewriteTokens_quote {quote : Char} (isQuote : quote = '"' ∨ quote = '\'')
    (context : LineContext) (rest : Text) :
    convention.rewriteTokens (tokensFrom context (quote :: rest)) =
      quote :: ((Lexeme.quoted quote rest).1 ++
        convention.rewriteTokens (tokensFrom .midLine (Lexeme.quoted quote rest).2)) := by
  have kept : convention.newName? (next context quote rest).1 = none := by
    apply newName?_of_not_start
    rcases isQuote with rfl | rfl <;> decide
  have behind : context.after (next context quote rest).1 = .midLine := by
    apply LineContext.after_eq_midLine
    right
    rw [next, Token.scan_quote isQuote]
  rw [rewriteTokens_tokensFrom_cons, kept, behind, Token.scan_quote isQuote]
  rfl

/-- As far as a lexeme in front of it can tell, a text begins as it did before it was rewritten. -/
theorem alike_rewriteTokens (convention : Convention) (context : LineContext) (text : Text) :
    Alike text (convention.rewriteTokens (tokensFrom context text)) := by
  constructor
  · rintro rfl
    exact rewriteTokens_tokensFrom_nil context
  · intro c head noStart
    exact head?_rewriteTokens_of_not_start context head noStart
  · intro c head starts
    obtain ⟨rest, rfl⟩ := List.head?_eq_some_iff.mp head
    cases changes : convention.newName? (next context c rest).1 with
    | none => exact ⟨c, head?_rewriteTokens_of_kept changes, .inl rfl⟩
    | some name =>
        obtain ⟨-, -, -, -, -, renamed⟩ := exists_identifier changes
        obtain ⟨d, nameHead, origin⟩ := head_of_rename? renamed
        obtain ⟨nameRest, rfl⟩ := List.head?_eq_some_iff.mp nameHead
        refine ⟨d, by rw [rewriteTokens_tokensFrom_cons, changes]; rfl, ?_⟩
        rcases origin with ⟨same, -⟩ | letter | capital
        · exact .inl (Option.some.inj same).symm
        · exact .inr (.inl letter)
        · exact .inr (.inr capital)
  · rintro rest rfl
    have kept : convention.newName? (next context '\r' ('\n' :: rest)).1 = none :=
      newName?_of_not_start (by decide)
    rw [rewriteTokens_tokensFrom_cons, kept, scan, if_pos (by decide : isBlank '\r' = true),
      List.takeWhile_cons_of_pos (by decide : isBlank '\n' = true)]
    exact ⟨_, rfl⟩
  · rintro rest rfl
    rw [rewriteTokens_quote (.inr rfl)]
    refine ⟨_, rfl, fun alphanumeric => ?_⟩
    have whole := Lexeme.quoted_append '\'' rest
    have ends := Lexeme.quoted_ends '\'' rest
    generalize (Lexeme.quoted '\'' rest).1 = body at *
    generalize (Lexeme.quoted '\'' rest).2 = after at *
    subst whole
    cases body with
    | cons c body => exact alphanumeric
    | nil =>
        rcases ends with rfl | line | closed
        · rw [rewriteTokens_tokensFrom_nil] at alphanumeric
          cases alphanumeric
        · rw [List.nil_append,
            head?_rewriteTokens_of_not_start _ line (by decide)] at alphanumeric
          cases alphanumeric
        · cases closed
  · rintro rest rfl malformed
    rw [rewriteTokens_quote (.inl rfl)]
    refine ⟨_, rfl, Lexeme.rawString_eq_none_exchange malformed ?_ ?_⟩
    · intro last
      rw [last]
      exact rewriteTokens_tokensFrom_nil _
    · intro line
      exact head?_rewriteTokens_of_not_start _ line (by decide)

/-! ## Texts that settle -/

/-- A text none of whose names changes, read from the given context on. -/
def Settles (convention : Convention) (context : LineContext) (text : Text) : Prop :=
  ∀ token ∈ tokensFrom context text, convention.newName? token = none

theorem settles_cons {context : LineContext} {first : Char} {rest body behind : Text}
    {kind : Token.Kind} (value : scan context first rest = (kind, body, behind)) :
    convention.Settles context (first :: rest) ↔
      convention.newName? { kind, text := first :: body } = none ∧
        convention.Settles (context.after { kind, text := first :: body }) behind := by
  rw [Settles, Token.tokensFrom_cons, List.forall_mem_cons]
  simp only [next, value]
  rfl

theorem settles_kept {context : LineContext} {first : Char} {rest new : Text}
    (kept : convention.newName? (next context first rest).1 = none)
    (alike : Alike (scan context first rest).2.2 new)
    (calm : (next context first rest).1.isNumber = true →
      new.head?.any Char.isAlphanum = false) :
    convention.Settles context (first :: ((scan context first rest).2.1 ++ new)) ↔
      convention.Settles (context.after (next context first rest).1) new := by
  rw [settles_cons (Token.scan_exchange alike calm)]
  exact and_iff_right kept

/-- A literal that an encoding word takes in is a literal without that word, too. -/
theorem settles_of_encoded {word text body after : Text} (notRaw : word ∉ Lexeme.rawEncodings)
    (found : Lexeme.encoded word text = some (body, after)) :
    convention.Settles .midLine text ↔ convention.Settles .midLine after := by
  have literal {quote : Char} (isQuote : quote = '"' ∨ quote = '\'') (rest : Text) :
      convention.Settles .midLine (quote :: rest) ↔
        convention.Settles .midLine (Lexeme.quoted quote rest).2 := by
    rw [settles_cons (Token.scan_quote isQuote .midLine rest),
      LineContext.after_eq_midLine (.inr rfl)]
    exact and_iff_right rfl
  rw [Lexeme.encoded.eq_def] at found
  split at found
  · next rest =>
      rw [if_neg notRaw] at found
      split at found
      · cases found
        exact literal (.inl rfl) rest
      · cases found
  · next rest =>
      split at found
      · cases found
        exact literal (.inr rfl) rest
      · cases found
  · cases found

/-- A word that stays, in front of a text that does not go on with it.  It must not open a raw
string, for a raw string ends elsewhere than a literal without a word in front. -/
theorem settles_word {context : LineContext} {first : Char} {word new : Text}
    (starts : isWordStart first = true) (noBlank : isBlank first = false)
    (allWord : ∀ c ∈ word, isWord c = true) (notOpened : context.directive ≠ .opened)
    (ends : EndsWord isWord new) (stays : convention.rename? (first :: word) = none)
    (calm : first :: word ∈ Lexeme.rawEncodings → Lexeme.encoded (first :: word) new = none) :
    convention.Settles context (first :: (word ++ new)) ↔ convention.Settles .midLine new := by
  have value := Token.scan_word context starts noBlank (word ++ new)
  rw [if_neg notOpened, ends.takeWhile_append allWord, ends.dropWhile_append allWord] at value
  cases literal : Lexeme.encoded (first :: word) new with
  | none =>
      rw [literal] at value
      rw [settles_cons value, LineContext.after_eq_midLine (.inl rfl)]
      apply and_iff_right
      rw [newName?, if_pos rfl, stays]
  | some parts =>
      obtain ⟨body, after⟩ := parts
      have notRaw : first :: word ∉ Lexeme.rawEncodings := by
        intro raw
        rw [calm raw] at literal
        cases literal
      rw [literal] at value
      rw [settles_cons value, LineContext.after_eq_midLine (.inr rfl),
        settles_of_encoded notRaw literal]
      exact and_iff_right rfl

/-! ## New names -/

/-- What a new name may hold: characters of words and capitals. -/
def IsNameCharacter (c : Char) : Prop :=
  isWord c = true ∨ IsCapitalForm c

theorem isNameCharacter_of_rename? {name new : Text}
    (allWord : ∀ c ∈ name, isWord c = true) (renamed : convention.rename? name = some new) :
    ∀ c ∈ new, IsNameCharacter c := by
  intro c member
  rcases mem_of_rename? renamed member with inside | rfl | capital
  · exact .inl (allWord c inside)
  · exact .inl (by decide)
  · exact .inr capital

theorem IsNameCharacter.not_blank {c : Char} (named : IsNameCharacter c) : isBlank c = false := by
  rcases named with inWord | capital
  · apply Bool.eq_false_iff.mpr
    intro blank
    rw [isWord_of_isBlank blank] at inWord
    cases inWord
  · exact capital.2

theorem IsNameCharacter.ne {c : Char} (named : IsNameCharacter c) (d : Char)
    (noWord : isWord d = false) (noCapital : ¬ IsCapitalForm d) : c ≠ d := by
  rintro rfl
  rcases named with inWord | capital
  · rw [noWord] at inWord
    cases inWord
  · exact noCapital capital

/-- A character of a name that begins no word, and is no digit either, is a token of its own. -/
theorem scan_of_isNameCharacter {c : Char} (named : IsNameCharacter c)
    (noStart : isWordStart c = false) (noDigit : c.isDigit = false) (context : LineContext)
    (text : Text) : scan context c text = (.punctuation, [], text) := by
  have noSlash := named.ne '/' (by decide) (by simp [IsCapitalForm])
  have noSign := named.ne '#' (by decide) (by simp [IsCapitalForm])
  have noAngle := named.ne '<' (by decide) (by simp [IsCapitalForm])
  have noPoint := named.ne '.' (by decide) (by simp [IsCapitalForm])
  have noString := named.ne '"' (by decide) (by simp [IsCapitalForm])
  have noCharacter := named.ne '\'' (by decide) (by simp [IsCapitalForm])
  rw [scan, named.not_blank, noStart, noDigit]
  simp only [noSlash, noSign, noAngle, noPoint, noString, noCharacter, false_and, or_self,
    Bool.false_eq_true, if_false]

/-- What a name may be broken into without harm: pieces that hold no underscore and no digit, and do
not end with a word that could open a raw string. -/
structure IsHarmless (pieces : Text) : Prop where
  named : ∀ c ∈ pieces, IsNameCharacter c
  noUnderscore : '_' ∉ pieces
  noDigit : ∀ c ∈ pieces, c.isDigit = false
  notRaw : ∀ word ∈ Lexeme.rawEncodings, ¬ word <:+ pieces

theorem IsHarmless.of_suffix {pieces later : Text} (harmless : IsHarmless pieces)
    (suffix : later <:+ pieces) : IsHarmless later := by
  constructor
  · intro c member
    exact harmless.named c (suffix.subset member)
  · intro member
    exact harmless.noUnderscore (suffix.subset member)
  · intro c member
    exact harmless.noDigit c (suffix.subset member)
  · intro word raw ends
    exact harmless.notRaw word raw (ends.trans suffix)

/-- No quote begins harmless pieces, so that a word in front of them is no part of a literal. -/
theorem IsHarmless.encoded_eq_none_of_ne_nil {pieces : Text} (harmless : IsHarmless pieces)
    (nonempty : pieces ≠ []) (word new : Text) : Lexeme.encoded word (pieces ++ new) = none := by
  obtain ⟨c, later, rfl⟩ := List.exists_cons_of_ne_nil nonempty
  have named := harmless.named c (by simp)
  apply Lexeme.encoded_eq_none_of_head
  · simpa using named.ne '"' (by decide) (by simp [IsCapitalForm])
  · simpa using named.ne '\'' (by decide) (by simp [IsCapitalForm])

/-- A word among harmless pieces opens no raw string. -/
theorem IsHarmless.encoded_eq_none {pieces word behind new : Text} (harmless : IsHarmless pieces)
    (split : word ++ behind = pieces) (raw : word ∈ Lexeme.rawEncodings) :
    Lexeme.encoded word (behind ++ new) = none := by
  subst split
  by_cases last : behind = []
  · rw [last, List.append_nil] at harmless
    exact absurd (List.suffix_refl word) (harmless.notRaw word raw)
  · have later := harmless.of_suffix (List.suffix_append word behind)
    exact later.encoded_eq_none_of_ne_nil last word new

/-- Harmless pieces settle in front of a text that does not go on with them. -/
theorem settles_pieces {context : LineContext} (notOpened : context.directive ≠ .opened)
    {pieces new : Text} (nonempty : pieces ≠ []) (harmless : IsHarmless pieces)
    (ends : EndsWord isWord new) :
    convention.Settles context (pieces ++ new) ↔ convention.Settles .midLine new := by
  induction length : pieces.length using Nat.strong_induction_on generalizing pieces context with
  | h size ih =>
      cases pieces with
      | nil => exact absurd rfl nonempty
      | cons c rest =>
          have named := harmless.named c (by simp)
          have more (later : Text) (suffix : later <:+ rest) :
              convention.Settles .midLine (later ++ new) ↔ convention.Settles .midLine new := by
            by_cases last : later = []
            · rw [last, List.nil_append]
            · have shorter : later.length < size := by
                rw [← length, List.length_cons]
                exact Nat.lt_succ_of_le suffix.length_le
              exact ih later.length shorter (by simp [LineContext.midLine]) last
                (harmless.of_suffix (suffix.trans (List.suffix_cons c rest))) rfl
          cases starts : isWordStart c with
          | false =>
              have value := scan_of_isNameCharacter named starts (harmless.noDigit c (by simp))
                context (rest ++ new)
              have noSign := named.ne '#' (by decide) (by simp [IsCapitalForm])
              have kept : convention.newName? { kind := .punctuation, text := [c] } = none := rfl
              rw [List.cons_append, settles_cons value,
                LineContext.after_eq_midLine_of_punctuation noSign notOpened, and_iff_right kept]
              exact more rest (List.suffix_refl rest)
          | true =>
              have allWord : ∀ d ∈ rest.takeWhile isWord, isWord d = true :=
                fun d member => List.mem_takeWhile_imp member
              have behindEnds := (EndsWord.dropWhile isWord rest).append ends
              have whole := List.takeWhile_append_dropWhile (p := isWord) (l := rest)
              have stays : convention.rename? (c :: rest.takeWhile isWord) = none := by
                apply rename?_of_not_mem
                intro inside
                apply harmless.noUnderscore
                rw [← whole]
                exact List.mem_append_left (rest.dropWhile isWord) inside
              rw [← whole, List.cons_append, List.append_assoc,
                settles_word starts named.not_blank allWord notOpened behindEnds stays
                  (harmless.encoded_eq_none (congrArg (c :: ·) whole))]
              exact more _ (List.dropWhile_suffix isWord)

/-! ## Places where the lexer may go another way -/

/-- Whether a token, rewritten in front of a rewritten text, may be lexed in another way than the
token was. -/
def disturbs (convention : Convention) (token : Token) (behind : Text) : Bool :=
  match convention.newName? token with
  | none => token.isNumber && behind.head?.any Char.isAlphanum
  | some name =>
    if Character.isIdentifier name then
      Lexeme.rawEncodings.contains name && (Lexeme.encoded name behind).isSome
    else
      name.any Char.isDigit || Lexeme.rawEncodings.any fun word => word.isSuffixOf name

theorem settles_identifier {context : LineContext} (notOpened : context.directive ≠ .opened)
    {name new : Text} (identifier : Character.isIdentifier name = true)
    (named : ∀ c ∈ name, IsNameCharacter c)
    (stays : convention.rename? (name.takeWhile isWord) = none) (ends : EndsWord isWord new)
    (calm : name ∈ Lexeme.rawEncodings → Lexeme.encoded name new = none) :
    convention.Settles context (name ++ new) ↔ convention.Settles .midLine new := by
  cases name with
  | nil => cases identifier
  | cons c tail =>
      obtain ⟨starts, allTail⟩ := Bool.and_eq_true_iff.mp identifier
      have allWord := List.all_eq_true.mp allTail
      have whole : (c :: tail).takeWhile isWord = c :: tail := by
        apply List.takeWhile_eq_self_iff.mpr
        intro d member
        exact Character.isWord_of_isIdentifier identifier member
      rw [whole] at stays
      exact settles_word starts (named c (by simp)).not_blank allWord notOpened ends stays calm

/-- A new name that a capital has broken settles.  It begins with a word, or with a capital that is
no letter, but then it holds no underscore. -/
theorem settles_broken {context : LineContext} (notOpened : context.directive ≠ .opened)
    {name new : Text} (nonempty : name ≠ []) (broken : Character.isIdentifier name = false)
    (named : ∀ c ∈ name, IsNameCharacter c) (noDigit : ∀ c ∈ name, c.isDigit = false)
    (notRaw : ∀ word ∈ Lexeme.rawEncodings, ¬ word <:+ name)
    (begins : (∀ c, name.head? = some c → isWordStart c = true) ∨ '_' ∉ name)
    (stays : convention.rename? (name.takeWhile isWord) = none)
    (plain : '_' ∉ name.dropWhile isWord) (ends : EndsWord isWord new) :
    convention.Settles context (name ++ new) ↔ convention.Settles .midLine new := by
  rcases begins with begins | noUnderscore
  · obtain ⟨c, tail, rfl⟩ := List.exists_cons_of_ne_nil nonempty
    have starts : isWordStart c = true := begins c rfl
    have inWord := Character.isWord_of_isWordStart starts
    have whole := List.takeWhile_append_dropWhile (p := isWord) (l := tail)
    rw [List.takeWhile_cons_of_pos inWord] at stays
    rw [List.dropWhile_cons_of_pos inWord] at plain
    have suffix : tail.dropWhile isWord <:+ c :: tail :=
      (List.dropWhile_suffix isWord).trans (List.suffix_cons c tail)
    have harmless : IsHarmless (tail.dropWhile isWord) := by
      constructor
      · intro d member
        exact named d (suffix.subset member)
      · exact plain
      · intro d member
        exact noDigit d (suffix.subset member)
      · intro word raw atEnd
        exact notRaw word raw (atEnd.trans suffix)
    have remains : tail.dropWhile isWord ≠ [] := by
      intro last
      have allTail := List.all_eq_true.mpr (List.dropWhile_eq_nil_iff.mp last)
      rw [Character.isIdentifier, starts, allTail] at broken
      cases broken
    have missed := harmless.encoded_eq_none_of_ne_nil remains (c :: tail.takeWhile isWord) new
    have allWord : ∀ d ∈ tail.takeWhile isWord, isWord d = true :=
      fun d member => List.mem_takeWhile_imp member
    rw [← whole, List.cons_append, List.append_assoc,
      settles_word starts (named c (by simp)).not_blank allWord notOpened
        ((EndsWord.dropWhile isWord tail).append ends) stays fun _ => missed]
    exact settles_pieces (by simp [LineContext.midLine]) remains harmless ends
  · exact settles_pieces notOpened nonempty ⟨named, noUnderscore, noDigit, notRaw⟩ ends

theorem settles_newName {context : LineContext} {first : Char} {rest name new : Text}
    (changes : convention.newName? (next context first rest).1 = some name)
    (calm : convention.disturbs (next context first rest).1 new = false)
    (ends : EndsWord isWord new) :
    convention.Settles context (name ++ new) ↔ convention.Settles .midLine new := by
  obtain ⟨starts, -, notOpened, allWord, -, renamed⟩ := exists_identifier changes
  have letter : isWord 'm' = true := by decide
  have underscore : isWord '_' = true := by decide
  have named := isNameCharacter_of_rename? allWord renamed
  have stays := rename?_takeWhile letter underscore allWord renamed
  rw [disturbs, changes] at calm
  dsimp only at calm
  split at calm
  · next identifier =>
      apply settles_identifier notOpened identifier named stays ends
      intro raw
      rcases Bool.and_eq_false_iff.mp calm with notRaw | missed
      · simp [raw] at notRaw
      · simpa using missed
  · next broken =>
      rw [Bool.or_eq_false_iff] at calm
      have nonempty : name ≠ [] := by
        rintro rfl
        obtain ⟨_, head, -⟩ := head_of_rename? renamed
        cases head
      have begins := head_or_not_mem_of_rename? (by decide : isWordStart 'm' = true)
        (by simpa using starts) renamed
      apply settles_broken notOpened nonempty (Bool.eq_false_iff.mpr broken) named ?_ ?_ begins
        stays (not_mem_dropWhile letter underscore allWord renamed) ends
      · simpa only [List.any_eq_false, Bool.not_eq_true] using calm.1
      · simpa only [List.any_eq_false, List.isSuffixOf_iff_suffix] using calm.2

/-- The tokens to which a second rewriting comes back: none if no token disturbs, and otherwise
those that are found from the first disturbing token on, once the text is rewritten. -/
def unsettled (convention : Convention) : LineContext → List Token → List Token
  | _, [] => []
  | context, token :: tokens =>
    if convention.disturbs token (convention.rewriteTokens tokens) then
      tokensFrom context (convention.rewriteTokens (token :: tokens))
    else
      unsettled convention (context.after token) tokens

theorem unsettled_eq_nil {context : LineContext} {tokens : List Token}
    (calm : ∀ token behind, token :: behind <:+ tokens →
      convention.disturbs token (convention.rewriteTokens behind) = false) :
    convention.unsettled context tokens = [] := by
  induction tokens generalizing context with
  | nil => rfl
  | cons token tokens ih =>
      rw [unsettled, calm token tokens (List.suffix_refl _), if_neg Bool.false_ne_true]
      apply ih
      intro other behind suffix
      exact calm other behind (suffix.trans (List.suffix_cons token tokens))

/-- A rewritten text settles if and only if the tokens do at which the lexer may go another way. -/
theorem settles_rewriteTokens (convention : Convention) (context : LineContext) (text : Text) :
    convention.Settles context (convention.rewriteTokens (tokensFrom context text)) ↔
      ∀ token ∈ convention.unsettled context (tokensFrom context text),
        convention.newName? token = none := by
  fun_induction tokensFrom context text with
  | case1 context => simp [Settles, unsettled, tokensFrom]
  | case2 context first rest token ih =>
      rw [unsettled]
      split
      · rfl
      · next calm =>
          rw [Bool.not_eq_true] at calm
          have alike := alike_rewriteTokens convention (context.after token)
            (scan context first rest).2.2
          rw [← ih, rewriteTokens_cons]
          cases changes : convention.newName? token with
          | none =>
              rw [disturbs, changes, Bool.and_eq_false_iff] at calm
              apply settles_kept changes alike
              intro number
              rcases calm with noNumber | noLetter
              · exact absurd number (Bool.eq_false_iff.mp noNumber)
              · exact noLetter
          | some name =>
              obtain ⟨-, -, -, -, value, -⟩ := exists_identifier changes
              have behind : context.after token = .midLine :=
                LineContext.after_eq_midLine (.inl (newName?_eq_some changes).1) context
              have ends : EndsWord isWord (scan context first rest).2.2 := by
                rw [value]
                exact EndsWord.dropWhile isWord rest
              have newEnds := alike.endsWord ends
              rw [behind] at newEnds calm ⊢
              exact settles_newName changes calm newEnds

theorem respelt_rewriteTokens (convention : Convention) (context : LineContext) (text : Text) :
    Respelt convention text (convention.rewriteTokens (tokensFrom context text)) := by
  fun_induction tokensFrom context text with
  | case1 context => exact .done
  | case2 context first rest token ih =>
      rw [rewriteTokens_cons, ← Token.next_append context first rest]
      cases changes : convention.newName? token with
      | none => exact Respelt.keep_append token.text ih
      | some name =>
          obtain ⟨-, -, -, allWord, value, renamed⟩ := exists_identifier changes
          have text : token.text = first :: rest.takeWhile isWord := by
            change first :: (scan context first rest).2.1 = _
            rw [value]
          have behind : (next context first rest).2 = rest.dropWhile isWord := by
            change (scan context first rest).2.2 = _
            rw [value]
          rw [← text] at allWord renamed
          refine .change renamed (fun inside => ?_) (fun head => ?_) ih
          · exact absurd (allWord _ inside) (by decide)
          · rw [behind] at head
            exact absurd (EndsWord.dropWhile isWord rest _ head) (by decide)

end Convention

/-! ## Rewriting once more -/

namespace Config

/-- In lexical mode a second rewriting succeeds as well.  It changes nothing if no token disturbs.
In general it changes nothing if and only if no name changes among the tokens that are found from
the first disturbing token on. -/
theorem rewrite_lexical_again_iff (config : Config) (lexical : config.mode = .lexical)
    (standard : config.toGuard = default.toGuard) {content : Text} {once : Rewrite}
    (rewritten : config.rewrite content = .ok once) :
    (∃ twice, config.rewrite once.content = .ok twice) ∧
      ((∀ token behind, token :: behind <:+ Token.tokenize (config.conceal content) →
          config.disturbs token (config.rewriteTokens behind) = false) →
        config.rewrite once.content =
          .ok { content := once.content, replacements := 0, renames := .empty }) ∧
      (config.rewrite once.content =
          .ok { content := once.content, replacements := 0, renames := .empty } ↔
        ∀ token ∈ config.unsettled .initial (Token.tokenize (config.conceal content)),
          config.newName? token = none) := by
  have parts : config.mode.parts = fun text => (tokensFrom .initial text).map Part.ofToken := by
    rw [lexical]
    rfl
  rw [rewrite, rewriteContent, parts] at rewritten ⊢
  obtain ⟨text, concealed, restored, again⟩ := rewriteContentBy_again standard
    (config.respelt_rewriteTokens .initial) rewritten
  obtain ⟨-, same⟩ := Guard.protect_eq_ok_iff.mp concealed
  have settles := config.settles_rewriteTokens .initial text
  rw [Convention.Settles, ← Convention.changes_eq_nil_iff] at settles
  have settled (unchanged : config.changes
      ((tokensFrom .initial (config.rewriteTokens (tokensFrom .initial text))).map Part.ofToken) =
        []) := by
    have joined := Mode.join_parts .lexical (config.rewriteTokens (tokensFrom .initial text))
    exact congrArg (fun rewrite : Rewrite =>
      Except.ok (ε := Error) { rewrite with content := config.restore rewrite.content })
      (Convention.rewriteBy_of_changes joined unchanged)
  rw [again, same, Token.tokenize, ← settles, restored]
  refine ⟨⟨_, rfl⟩, ?_, ?_, settled⟩
  · intro calm
    apply settled
    rw [settles, Convention.unsettled_eq_nil calm]
    exact fun _ member => absurd member List.not_mem_nil
  · intro unchanged
    have count := congrArg Rewrite.replacements (Except.ok.inj unchanged)
    exact List.length_eq_zero_iff.mp count

set_option maxRecDepth 2000 in
/-- One name is changed, and nothing disturbs it. -/
theorem rewrite_lexical_again_calm :
    ∃ once, (unfiltered [] .lexical).rewrite ['_', 'x', '(', '1', ')'] = .ok once ∧
      once.content = ['m', '_', 'X', '(', '1', ')'] ∧
      (unfiltered [] .lexical).rewrite once.content =
        .ok { content := once.content, replacements := 0, renames := .empty } := by
  have first : (unfiltered [] .lexical).rewrite ['_', 'x', '(', '1', ')'] =
      .ok { content := ['m', '_', 'X', '(', '1', ')']
            replacements := 1
            renames := Index.ofList [(['_', 'x'], ['m', '_', 'X'])] } := by
    cbv
  have none : (unfiltered [] .lexical).unsettled .initial
      (Token.tokenize ((unfiltered [] .lexical).conceal ['_', 'x', '(', '1', ')'])) = [] := by
    cbv
  refine ⟨_, first, rfl,
    (rewrite_lexical_again_iff (unfiltered [] .lexical) rfl rfl first).2.2.mpr ?_⟩
  rw [none]
  exact fun _ member => absurd member List.not_mem_nil

set_option maxRecDepth 2000 in
/-- A new name opens a raw string, and what stood in a literal comes to stand outside of it. -/
theorem rewrite_lexical_again_raw :
    ∃ once twice,
      (unfiltered [] .lexical).rewrite "r_\"(\")\" b_c \"".toList = .ok once ∧
        once.content = "R\"(\")\" b_c \"".toList ∧
        (unfiltered [] .lexical).rewrite once.content = .ok twice ∧
        twice.content = "R\"(\")\" BC \"".toList := by
  have first : (unfiltered [] .lexical).rewrite "r_\"(\")\" b_c \"".toList =
      .ok { content := "R\"(\")\" b_c \"".toList
            replacements := 1
            renames := Index.ofList [("r_".toList, "R".toList)] } := by
    cbv
  have second : (unfiltered [] .lexical).rewrite "R\"(\")\" b_c \"".toList =
      .ok { content := "R\"(\")\" BC \"".toList
            replacements := 1
            renames := Index.ofList [("b_c".toList, "BC".toList)] } := by
    cbv
  exact ⟨_, _, first, rfl, second, rfl⟩

end Config

end Recase
