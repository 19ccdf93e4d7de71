import Recase.Proofs.Grammar
import Recase.Proofs.Runs
import Mathlib

/-!
# Reading what the grammar allows

The reader finds every value that a document holds, however it is written.  A text that writes a
value is cut into the same symbols whatever stands behind it, as long as no number goes on there,
and the machine that puts symbols together delivers the value to the bracket that is open.
-/

namespace Recase.Json

/-! ## Reading strings -/

theorem toNat_range (c : Char) : c.toNat < 0xD800 ∨ 0xDFFF < c.toNat ∧ c.toNat < 0x110000 :=
  c.valid

/-- A surrogate pair stands for the character that it was made of. -/
theorem pairCode_halves {code : Nat} (beyond : 0x10000 ≤ code) :
    pairCode (0xD800 + (code - 0x10000) / 0x400) (0xDC00 + (code - 0x10000) % 0x400) = code := by
  unfold pairCode
  omega

theorem surrogate_toNat (c : Char) :
    (isHighSurrogate c.toNat || isLowSurrogate c.toNat) = false := by
  have range := toNat_range c
  simp only [isHighSurrogate, isLowSurrogate, Bool.or_eq_false_iff, Bool.and_eq_false_iff,
    decide_eq_false_iff_not]
  omega

/-- A code that is no half of a surrogate pair is read as a character of its own. -/
theorem spell_cons {code : Nat} (whole : (isHighSurrogate code || isLowSurrogate code) = false)
    (codes : List Nat) : spell (code :: codes) = (spell codes).map (Char.ofNat code :: ·) := by
  obtain ⟨high, low⟩ := Bool.or_eq_false_iff.mp whole
  cases codes with
  | nil => simp [spell, high, low]
  | cons next codes => simp [spell, high, low]

/-- The reader makes of a surrogate pair the character that it stands for. -/
theorem spell_pair (c : Char) (beyond : 0x10000 ≤ c.toNat) (codes : List Nat) :
    spell ([0xD800 + (c.toNat - 0x10000) / 0x400, 0xDC00 + (c.toNat - 0x10000) % 0x400] ++ codes) =
      (spell codes).map (c :: ·) := by
  have range := toNat_range c
  have high : isHighSurrogate (0xD800 + (c.toNat - 0x10000) / 0x400) = true := by
    simp only [isHighSurrogate, Bool.and_eq_true, decide_eq_true_eq]
    omega
  have low : isLowSurrogate (0xDC00 + (c.toNat - 0x10000) % 0x400) = true := by
    simp only [isLowSurrogate, Bool.and_eq_true, decide_eq_true_eq]
    omega
  rw [List.cons_append, List.singleton_append, spell, high, low, pairCode_halves beyond,
    Char.ofNat_toNat]
  rfl

theorem spell_of_spells {codes : List Nat} {content : Text} (spells : Spells codes content) :
    spell codes = some content := by
  induction spells with
  | nil => rfl
  | character c behind ih => rw [spell_cons (surrogate_toNat c), ih, Char.ofNat_toNat]; rfl
  | pair c beyond behind ih => rw [spell_pair c beyond, ih, Option.map_some]

theorem toNat_ofNat_of_whole {code : Nat} (small : code < 0x110000)
    (whole : (isHighSurrogate code || isLowSurrogate code) = false) :
    (Char.ofNat code).toNat = code := by
  have valid : code.isValidChar := by
    simp only [isHighSurrogate, isLowSurrogate, Bool.or_eq_false_iff, Bool.and_eq_false_iff,
      decide_eq_false_iff_not] at whole
    unfold Nat.isValidChar
    omega
  rw [Char.toNat_ofNat, if_pos valid]

/-- The two halves of a surrogate pair are those of the character that it stands for. -/
theorem halves_pairCode {high low : Nat}
    (halves : (isHighSurrogate high && isLowSurrogate low) = true) :
    0x10000 ≤ (Char.ofNat (pairCode high low)).toNat ∧
      high = 0xD800 + ((Char.ofNat (pairCode high low)).toNat - 0x10000) / 0x400 ∧
      low = 0xDC00 + ((Char.ofNat (pairCode high low)).toNat - 0x10000) % 0x400 := by
  simp only [isHighSurrogate, isLowSurrogate, Bool.and_eq_true, decide_eq_true_eq] at halves
  have valid : (pairCode high low).isValidChar := by
    unfold Nat.isValidChar pairCode
    omega
  rw [Char.toNat_ofNat, if_pos valid]
  unfold pairCode
  omega

/-- What the reader makes of some codes is what they spell. -/
theorem spells_of_spell {codes : List Nat} (small : ∀ code ∈ codes, code < 0x110000)
    {content : Text} (spelt : spell codes = some content) : Spells codes content := by
  fun_induction spell codes generalizing content with
  | case1 =>
      cases spelt
      exact .nil
  | case2 high low codes halves ih =>
      obtain ⟨rest, behind, rfl⟩ := Option.map_eq_some_iff.mp spelt
      have others := ih (fun code member => small code (by simp [member])) behind
      obtain ⟨beyond, first, second⟩ := halves_pairCode halves
      have pair := Spells.pair (Char.ofNat (pairCode high low)) beyond others
      rw [← first, ← second] at pair
      exact pair
  | case3 => cases spelt
  | case4 code next codes notPair whole ih =>
      obtain ⟨rest, behind, rfl⟩ := Option.map_eq_some_iff.mp spelt
      have others := ih (fun code member => small code (List.mem_cons_of_mem _ member)) behind
      have single := Spells.character (Char.ofNat code) others
      rw [toNat_ofNat_of_whole (small code List.mem_cons_self) (by simpa using whole)] at single
      exact single
  | case5 => cases spelt
  | case6 code whole =>
      cases spelt
      have single := Spells.character (Char.ofNat code) .nil
      rw [toNat_ofNat_of_whole (small code List.mem_cons_self) (by simpa using whole)] at single
      exact single

/-- No codes spell two texts. -/
theorem Spells.unique {codes : List Nat} {left right : Text} (first : Spells codes left)
    (second : Spells codes right) : left = right := by
  have same := spell_of_spells first
  rw [spell_of_spells second] at same
  exact (Option.some.inj same).symm

theorem lt_of_writesCodes {codes : List Nat} {inside : Text} (writes : WritesCodes codes inside) :
    ∀ code ∈ codes, code < 0x110000 := by
  have character (c : Char) : c.toNat < 0x110000 := by
    have range := toNat_range c
    omega
  induction writes with
  | nil => simp
  | plain c visible noQuote noEscape behind ih | short letter c listed behind ih =>
      exact List.forall_mem_cons.mpr ⟨character c, ih⟩
  | code written behind ih =>
      have small := written.1
      exact List.forall_mem_cons.mpr ⟨by omega, ih⟩

theorem digitValue?_toLower (c : Char) : Text.digitValue? c.toLower = Text.digitValue? c := by
  by_cases capital : c.isUpper = true
  · have letters : ∀ place : Fin 26, Text.digitValue? (Char.ofNat ('A'.toNat + place)).toLower =
        Text.digitValue? (Char.ofNat ('A'.toNat + place)) := by
      decide
    have range : 'A'.toNat ≤ c.toNat ∧ c.toNat ≤ 'Z'.toNat := by
      simpa [Char.isUpper, UInt32.le_iff_toNat_le] using capital
    have place := letters ⟨c.toNat - 'A'.toNat, by simp at range ⊢; omega⟩
    rw [Nat.add_sub_cancel' range.1, Char.ofNat_toNat] at place
    exact place
  · rw [Char.toLower_eq_of_not_isUpper capital]

theorem hexUnit?_of_isCode {code : Nat} {a b c d : Char} (written : IsCode code [a, b, c, d]) :
    hexUnit? a b c d = some code := by
  obtain ⟨small, digits⟩ := written
  have value (number : Nat) : Text.digitValue? (Nat.digitChar (number % 0x10)) =
      some (number % 0x10) :=
    Text.digitValue?_digitChar ⟨number % 0x10, Nat.mod_lt _ (by decide)⟩
  simp only [hexDigits, List.map_cons, List.map_nil, List.cons.injEq, and_true] at digits
  obtain ⟨first, second, third, fourth⟩ := digits
  simp only [hexUnit?, List.mapM_cons, List.mapM_nil]
  rw [← digitValue?_toLower a, first, value, ← digitValue?_toLower b, second, value,
    ← digitValue?_toLower c, third, value, ← digitValue?_toLower d, fourth, value]
  simp
  omega

theorem IsCode.exists_eq {code : Nat} {digits : Text} (written : IsCode code digits) :
    ∃ a b c d, digits = [a, b, c, d] := by
  have count : digits.length = 4 := by
    rw [← List.length_map Char.toLower, written.2]
    rfl
  obtain ⟨a, b, c, d, rfl⟩ := List.length_eq_four.mp count
  exact ⟨a, b, c, d, rfl⟩

/-- The reader knows the letters that stand for one character, and no digits begin with them. -/
theorem unescape?_of_mem {letter c : Char} (listed : (letter, c) ∈ shortEscapes) :
    unescape? letter = some c ∧ letter ≠ 'u' := by
  simp only [shortEscapes, List.mem_cons, Prod.mk.injEq, List.not_mem_nil, or_false] at listed
  rcases listed with ⟨rfl, rfl⟩ | ⟨rfl, rfl⟩ | ⟨rfl, rfl⟩ | ⟨rfl, rfl⟩ | ⟨rfl, rfl⟩ | ⟨rfl, rfl⟩ |
    ⟨rfl, rfl⟩ | ⟨rfl, rfl⟩
  all_goals exact ⟨rfl, by decide⟩

/-- The reader finds the codes that stand between the quotation marks. -/
theorem readCodes?_append {codes : List Nat} {inside : Text} (writes : WritesCodes codes inside)
    (rest : Text) : readCodes? (inside ++ '"' :: rest) = some (codes, rest) := by
  induction writes with
  | nil => rw [List.nil_append, readCodes?]
  | plain c visible noQuote noEscape behind ih =>
      rw [List.cons_append, readCodes?, if_neg (by omega), ih]
      · rfl
      · exact noQuote
      · intros; contradiction
      · intros; contradiction
  | short letter c listed behind ih =>
      obtain ⟨known, different⟩ := unescape?_of_mem listed
      rw [List.cons_append, List.cons_append, readCodes?, known, ih]
      · rfl
      · intros; contradiction
  | code written behind ih =>
      obtain ⟨a, b, c, d, rfl⟩ := written.exists_eq
      simp only [List.cons_append, List.nil_append]
      rw [readCodes?, hexUnit?_of_isCode written, ih]
      rfl

theorem readSymbol?_string {spelling : Spelling} {written : Text}
    (string : WritesString spelling written) (rest : Text) :
    readSymbol? (written ++ rest) = some (.string spelling, rest) := by
  obtain ⟨codes, inside, writes, rfl, spells⟩ := string
  have same : spell codes = spelling := by
    apply Option.ext
    intro content
    exact ⟨fun spelt => (spells content).mpr (spells_of_spell (lt_of_writesCodes writes) spelt),
      fun spelt => spell_of_spells ((spells content).mp spelt)⟩
  rw [List.append_assoc, List.cons_append, List.singleton_append, readSymbol?,
    readCodes?_append writes, ← same]
  rfl

/-! ## Reading numbers -/

/-- The characters by which a number that has begun can go on. -/
def isNumeral (c : Char) : Bool :=
  c.isDigit || c == '.' || c == 'e' || c == 'E'

section Numbers

variable {digits whole fraction exponent rest : Text}

theorem readDigits?_append (written : IsDigits digits) (ends : EndsWord Char.isDigit rest) :
    readDigits? (digits ++ rest) = some (digits, rest) := by
  obtain ⟨nonempty, allDigits⟩ := written
  obtain ⟨c, digits, rfl⟩ := List.exists_cons_of_ne_nil nonempty
  rw [readDigits?, ends.takeWhile_append allDigits, ends.dropWhile_append allDigits]

theorem readWhole?_append (counted : IsWhole whole)
    (ends : EndsWord Char.isDigit rest) : readWhole? (whole ++ rest) = some (whole, rest) := by
  rcases counted with rfl | ⟨written, noZero⟩
  · rfl
  · rw [readWhole?, readDigits?_append written ends]
    intro others same
    obtain ⟨c, digits, rfl⟩ := List.exists_cons_of_ne_nil written.1
    cases same
    exact noZero rfl

theorem readFraction?_append (divided : IsFraction fraction)
    (ends : EndsWord Char.isDigit rest) (noPoint : rest.head? ≠ some '.') :
    readFraction? (fraction ++ rest) = some (fraction, rest) := by
  rcases divided with rfl | ⟨digits, written, rfl⟩
  · rw [List.nil_append, readFraction?]
    rintro others rfl
    exact noPoint rfl
  · rw [List.cons_append, readFraction?, readDigits?_append written ends]
    rfl

/-- What no number goes on with is no digit, no point and no mark of an exponent. -/
theorem isNumeral_eq_false_iff {c : Char} :
    isNumeral c = false ↔ c.isDigit = false ∧ c ≠ '.' ∧ c ≠ 'e' ∧ c ≠ 'E' := by
  simp only [isNumeral, Bool.or_eq_false_iff, beq_eq_false_iff_ne, and_assoc]

theorem endsDigits_of_endsNumber (ends : EndsWord isNumeral rest) : EndsWord Char.isDigit rest :=
  fun c head => (isNumeral_eq_false_iff.mp (ends c head)).1

theorem readSign_append {direction : Text}
    (directed : direction = [] ∨ direction = ['+'] ∨ direction = ['-'])
    (written : IsDigits digits) (rest : Text) :
    readSign (direction ++ digits ++ rest) = (direction, digits ++ rest) := by
  rcases directed with rfl | rfl | rfl
  · obtain ⟨nonempty, allDigits⟩ := written
    obtain ⟨c, digits, rfl⟩ := List.exists_cons_of_ne_nil nonempty
    have digit := allDigits c List.mem_cons_self
    rw [List.nil_append, List.cons_append, readSign]
    · rintro others same
      cases same
      exact absurd digit (by decide)
    · rintro others same
      cases same
      exact absurd digit (by decide)
  · rfl
  · rfl

theorem readExponent?_append (scaled : IsExponent exponent) (ends : EndsWord isNumeral rest) :
    readExponent? (exponent ++ rest) = some (exponent, rest) := by
  rcases scaled with rfl | ⟨mark, direction, digits, marked, directed, written, rfl⟩
  · cases rest with
    | nil => rfl
    | cons c rest =>
        obtain ⟨-, -, small, large⟩ := isNumeral_eq_false_iff.mp (ends c rfl)
        rw [List.nil_append, readExponent?, if_neg (not_or.mpr ⟨small, large⟩)]
  · rw [List.cons_append, List.cons_append, readExponent?, if_pos marked,
      readSign_append directed written, readDigits?_append written (endsDigits_of_endsNumber ends)]
    rfl

/-- What begins with an exponent, or ends a number, is no further digit and no point. -/
theorem ends_of_isExponent (scaled : IsExponent exponent) (ends : EndsWord isNumeral rest) :
    EndsWord Char.isDigit (exponent ++ rest) ∧ (exponent ++ rest).head? ≠ some '.' := by
  rcases scaled with rfl | ⟨mark, direction, digits, marked, directed, written, rfl⟩
  · refine ⟨endsDigits_of_endsNumber ends, fun head => ?_⟩
    exact (isNumeral_eq_false_iff.mp (ends _ head)).2.1 rfl
  · rcases marked with rfl | rfl
    all_goals exact ⟨fun c head => by cases head; rfl, by simp⟩

theorem readMagnitude?_append (counted : IsWhole whole) (divided : IsFraction fraction)
    (scaled : IsExponent exponent) (ends : EndsWord isNumeral rest) :
    readMagnitude? (whole ++ fraction ++ exponent ++ rest) =
      some (whole ++ fraction ++ exponent, rest) := by
  obtain ⟨behindFraction, noPoint⟩ := ends_of_isExponent scaled ends
  have behindWhole : EndsWord Char.isDigit (fraction ++ (exponent ++ rest)) := by
    rcases divided with rfl | ⟨digits, written, rfl⟩
    · exact behindFraction
    · exact .cons rfl _
  rw [List.append_assoc, List.append_assoc, readMagnitude?, readWhole?_append counted behindWhole]
  simp only [Option.bind_eq_bind, Option.bind_some, pure]
  rw [readFraction?_append divided behindFraction noPoint]
  simp only [Option.bind_some]
  rw [readExponent?_append scaled ends]
  rfl

/-- The first character behind the sign of a number is a digit. -/
theorem IsWhole.exists_digit (counted : IsWhole whole) :
    ∃ c others, whole = c :: others ∧ c.isDigit = true := by
  rcases counted with rfl | ⟨⟨nonempty, allDigits⟩, -⟩
  · exact ⟨'0', [], rfl, rfl⟩
  · obtain ⟨c, others, rfl⟩ := List.exists_cons_of_ne_nil nonempty
    exact ⟨c, others, rfl, allDigits c List.mem_cons_self⟩

theorem readNumber?_append {written : Text} (number : IsNumber written)
    (ends : EndsWord isNumeral rest) : readNumber? (written ++ rest) = some (written, rest) := by
  obtain ⟨sign, whole, fraction, exponent, signed, counted, divided, scaled⟩ := number
  have read := readMagnitude?_append counted divided scaled ends
  rcases signed with rfl | rfl
  · obtain ⟨c, others, rfl, digit⟩ := counted.exists_digit
    rw [List.nil_append, readNumber?, read]
    intro more same
    cases same
    exact absurd digit (by decide)
  · change readNumber? ('-' :: (whole ++ fraction ++ exponent ++ rest)) =
      some ('-' :: (whole ++ fraction ++ exponent), rest)
    rw [readNumber?, read]
    rfl

end Numbers

/-- A number begins with its sign or with a digit. -/
theorem IsNumber.exists_cons {written : Text} (number : IsNumber written) :
    ∃ c others, written = c :: others ∧ (c = '-' ∨ c.isDigit = true) := by
  obtain ⟨sign, whole, fraction, exponent, signed, counted, -, -⟩ := number
  rcases signed with rfl | rfl
  · obtain ⟨c, others, rfl, digit⟩ := counted.exists_digit
    exact ⟨c, others ++ fraction ++ exponent, rfl, .inr digit⟩
  · exact ⟨'-', whole ++ fraction ++ exponent, rfl, .inl rfl⟩

theorem readSymbol?_number {written : Text} (number : IsNumber written) {rest : Text}
    (ends : EndsWord isNumeral rest) :
    readSymbol? (written ++ rest) = some (.scalar (.number written), rest) := by
  have read := readNumber?_append number ends
  obtain ⟨c, others, rfl, first⟩ := number.exists_cons
  have differs (other : Char) (noSign : other ≠ '-') (noDigit : other.isDigit = false) :
      ∀ more, (c :: others) ++ rest = other :: more → False := by
    intro more same
    cases same
    rcases first with rfl | digit
    · exact noSign rfl
    · rw [noDigit] at digit
      cases digit
  rw [readSymbol?, read]
  · rfl
  all_goals exact differs _ (by decide) (by decide)

/-! ## Reading symbols -/

theorem readSymbols?_blanks {blanks : Text} (blank : IsBlanks blanks) (rest : Text) :
    readSymbols? (blanks ++ rest) = readSymbols? rest := by
  have same : (blanks ++ rest).dropWhile isBlank = rest.dropWhile isBlank :=
    List.dropWhile_append_of_pos blank
  rw [readSymbols?.eq_def (blanks ++ rest), readSymbols?.eq_def rest]
  generalize found : (blanks ++ rest).dropWhile isBlank = left
  generalize rest.dropWhile isBlank = right at same ⊢
  rw [found] at same
  subst same
  rfl

/-- Behind a symbol the reader goes on with the text behind it. -/
theorem readSymbols?_cons {c : Char} {text rest : Text} {symbol : Symbol}
    (noBlank : isBlank c = false) (read : readSymbol? (c :: text) = some (symbol, rest)) :
    readSymbols? (c :: text) = (readSymbols? rest).map (symbol :: ·) := by
  have begins : (c :: text).dropWhile isBlank = c :: text := by
    rw [List.dropWhile_cons_of_neg (by simp [noBlank])]
  rw [readSymbols?.eq_def]
  split
  · next nothing =>
      rw [begins] at nothing
      cases nothing
  · next first more same =>
      rw [begins] at same
      cases same
      split
      · next failed =>
          rw [read] at failed
          cases failed
      · next found after same =>
          rw [read] at same
          cases same
          rfl

/-- Whether a text is cut into some symbols wherever no number goes on behind it. -/
def IsCutInto (symbols : List Symbol) (written : Text) : Prop :=
  ∀ rest, EndsWord isNumeral rest →
    readSymbols? (written ++ rest) = (readSymbols? rest).map (symbols ++ ·)

theorem endsNumber_of_isBlanks {text : Text} (blank : IsBlanks text) : EndsWord isNumeral text := by
  intro c head
  have blank := blank c (List.mem_of_head? head)
  simp only [isBlank, Bool.or_eq_true, beq_iff_eq, or_assoc] at blank
  rcases blank with rfl | rfl | rfl | rfl
  all_goals rfl

theorem isBlank_of_isDigit {c : Char} (digit : c.isDigit = true) : isBlank c = false := by
  apply Bool.eq_false_iff.mpr
  intro blank
  simp only [isBlank, Bool.or_eq_true, beq_iff_eq, or_assoc] at blank
  rcases blank with rfl | rfl | rfl | rfl
  all_goals exact absurd digit (by decide)

namespace IsCutInto

variable {symbols others : List Symbol} {symbol : Symbol} {written text : Text}

theorem blanks (blank : IsBlanks text) : IsCutInto [] text := by
  intro rest ends
  rw [readSymbols?_blanks blank]
  simp

theorem blanks_append (blank : IsBlanks text) (behind : IsCutInto symbols written) :
    IsCutInto symbols (text ++ written) := by
  intro rest ends
  rw [List.append_assoc, readSymbols?_blanks blank, behind rest ends]

theorem append (left : IsCutInto symbols written) (right : IsCutInto others text)
    (ends : EndsWord isNumeral text) : IsCutInto (symbols ++ others) (written ++ text) := by
  intro rest restEnds
  rw [List.append_assoc, left _ (ends.append restEnds), right rest restEnds, Option.map_map]
  simp [Function.comp_def]

theorem cons {c : Char} (noBlank : isBlank c = false)
    (read : ∀ rest, readSymbol? (c :: rest) = some (symbol, rest))
    (behind : IsCutInto symbols text) : IsCutInto (symbol :: symbols) (c :: text) := by
  intro rest ends
  rw [List.cons_append, readSymbols?_cons noBlank (read _), behind rest ends, Option.map_map]
  rfl

theorem single {c : Char} (noBlank : isBlank c = false)
    (read : ∀ rest, EndsWord isNumeral rest →
      readSymbol? (c :: text ++ rest) = some (symbol, rest)) :
    IsCutInto [symbol] (c :: text) := by
  intro rest ends
  have first := read rest ends
  rw [List.cons_append] at first ⊢
  rw [readSymbols?_cons noBlank first]
  rfl

end IsCutInto

theorem isCutInto_closeArray : IsCutInto [.closeArray] [']'] :=
  .single rfl fun _ _ => rfl

theorem isCutInto_closeObject : IsCutInto [.closeObject] ['\x7d'] :=
  .single rfl fun _ _ => rfl

/-! ## Putting symbols together -/

/-- Whether a value may come next. -/
def Expectation.TakesValue (expecting : Expectation) : Prop :=
  expecting = .value ∨ expecting = .valueOrClose

/-- Whether a key may come next. -/
def Expectation.TakesKey (expecting : Expectation) : Prop :=
  expecting = .key ∨ expecting = .keyOrClose

/-- Whether the machine makes of some symbols the phrase that they are meant for: it delivers a
value, and puts items and members into the bracket that is open. -/
def Phrase.IsMadeOf : Phrase → List Symbol → Prop
  | .value whole, symbols | .element whole, symbols =>
    ∀ frames expecting, expecting.TakesValue →
      symbols.foldlM Progress.step { frames, expecting } = Progress.deliver whole frames
  | .elements items, symbols =>
    ∀ before frames expecting, expecting.TakesValue →
      symbols.foldlM Progress.step { frames := .array before :: frames, expecting } =
        some { frames := .array (items.reverse ++ before) :: frames, expecting := .commaOrClose }
  | .member key whole, symbols =>
    ∀ before frames expecting, expecting.TakesKey →
      symbols.foldlM Progress.step { frames := .object before :: frames, expecting } =
        some { frames := .object ((key, whole) :: before) :: frames, expecting := .commaOrClose }
  | .members parts, symbols =>
    ∀ before frames expecting, expecting.TakesKey →
      symbols.foldlM Progress.step { frames := .object before :: frames, expecting } =
        some { frames := .object (parts.reverse ++ before) :: frames, expecting := .commaOrClose }

/-- Whether the reader finds a phrase in a text. -/
def Phrase.IsReadFrom (phrase : Phrase) (written : Text) : Prop :=
  ∃ symbols, phrase.IsMadeOf symbols ∧ IsCutInto symbols written

namespace Progress

theorem step_of_takesValue {expecting : Expectation} (takes : expecting.TakesValue)
    (frames : List Frame) {symbol : Symbol} (opens : symbol ≠ .closeArray) :
    step { frames, expecting } symbol = beginValue frames symbol := by
  rcases takes with rfl | rfl
  · rfl
  · cases symbol with
    | closeArray => exact absurd rfl opens
    | _ => rfl

theorem step_of_takesKey {expecting : Expectation} (takes : expecting.TakesKey)
    (frames : List Frame) {symbol : Symbol} (opens : symbol ≠ .closeObject) :
    step { frames, expecting } symbol = beginMember frames symbol := by
  rcases takes with rfl | rfl
  · rfl
  · cases symbol with
    | closeObject => exact absurd rfl opens
    | _ => rfl

theorem foldlM_cons {symbol : Symbol} {symbols : List Symbol} {progress next : Progress}
    (first : progress.step symbol = some next) :
    (symbol :: symbols).foldlM step progress = symbols.foldlM step next := by
  rw [List.foldlM_cons, first]
  rfl

theorem foldlM_append {symbols others : List Symbol} {progress next : Progress}
    (first : symbols.foldlM step progress = some next) :
    (symbols ++ others).foldlM step progress = others.foldlM step next := by
  rw [List.foldlM_append, first]
  rfl

/-- An array ends behind its last item, or at once if it has none. -/
theorem foldlM_closeArray {expecting : Expectation}
    (closes : expecting = .commaOrClose ∨ expecting = .valueOrClose) (items : List Json)
    (frames : List Frame) :
    [Symbol.closeArray].foldlM step { frames := .array items :: frames, expecting } =
      deliver (.array items.reverse) frames := by
  rcases closes with rfl | rfl
  all_goals
    rw [List.foldlM_cons]
    exact bind_pure _

/-- An object ends behind its last member, or at once if it has none. -/
theorem foldlM_closeObject {expecting : Expectation}
    (closes : expecting = .commaOrClose ∨ expecting = .keyOrClose)
    (members : List (Spelling × Json)) (frames : List Frame) :
    [Symbol.closeObject].foldlM step { frames := .object members :: frames, expecting } =
      deliver (.object members.reverse) frames := by
  rcases closes with rfl | rfl
  all_goals
    rw [List.foldlM_cons]
    exact bind_pure _

end Progress

namespace Phrase

theorem isMadeOf_single {whole : Json} {symbol : Symbol}
    (delivered : ∀ frames, Progress.beginValue frames symbol = Progress.deliver whole frames)
    (opens : symbol ≠ .closeArray) : (value whole).IsMadeOf [symbol] := by
  intro frames expecting takes
  rw [List.foldlM_cons, Progress.step_of_takesValue takes frames opens, delivered]
  exact bind_pure _

theorem isReadFrom_single {whole : Json} {symbol : Symbol} {c : Char} {text : Text}
    (delivered : ∀ frames, Progress.beginValue frames symbol = Progress.deliver whole frames)
    (opens : symbol ≠ .closeArray) (noBlank : isBlank c = false)
    (read : ∀ rest, EndsWord isNumeral rest →
      readSymbol? (c :: text ++ rest) = some (symbol, rest)) :
    (value whole).IsReadFrom (c :: text) :=
  ⟨[symbol], isMadeOf_single delivered opens, .single noBlank read⟩

end Phrase

/-- The reader finds a phrase in every text that the phrase may be written as. -/
theorem Writes.isReadFrom {phrase : Phrase} {written : Text} (writes : Writes phrase written) :
    phrase.IsReadFrom written := by
  induction writes with
  | null => exact Phrase.isReadFrom_single (fun _ => rfl) (by simp) rfl fun _ _ => rfl
  | bool value =>
      cases value with
      | true => exact Phrase.isReadFrom_single (fun _ => rfl) (by simp) rfl fun _ _ => rfl
      | false => exact Phrase.isReadFrom_single (fun _ => rfl) (by simp) rfl fun _ _ => rfl
  | number number =>
      have read (rest : Text) (ends : EndsWord isNumeral rest) := readSymbol?_number number ends
      obtain ⟨c, others, rfl, first⟩ := number.exists_cons
      refine Phrase.isReadFrom_single (fun _ => rfl) (by simp) ?_ read
      rcases first with rfl | digit
      · rfl
      · exact isBlank_of_isDigit digit
  | string string =>
      have read := readSymbol?_string string
      obtain ⟨codes, inside, -, rfl, -⟩ := string
      exact Phrase.isReadFrom_single (fun _ => rfl) (by simp) rfl fun rest _ => read rest
  | noItems blank =>
      refine ⟨[.openArray, .closeArray], ?_, ?_⟩
      · intro frames expecting takes
        rw [Progress.foldlM_cons (Progress.step_of_takesValue takes frames (by simp))]
        exact Progress.foldlM_closeArray (.inr rfl) [] frames
      · exact .cons rfl (fun _ => rfl) (.blanks_append blank isCutInto_closeArray)
  | array listed ih =>
      obtain ⟨symbols, made, cut⟩ := ih
      refine ⟨.openArray :: (symbols ++ [.closeArray]), ?_, ?_⟩
      · intro frames expecting takes
        rw [Progress.foldlM_cons (Progress.step_of_takesValue takes frames (by simp)),
          Progress.foldlM_append (made [] frames _ (.inr rfl)),
          Progress.foldlM_closeArray (.inl rfl), List.append_nil, List.reverse_reverse]
      · have ends : EndsWord isNumeral [']'] := .cons rfl []
        exact .cons rfl (fun _ => rfl) (cut.append isCutInto_closeArray ends)
  | noMembers blank =>
      refine ⟨[.openObject, .closeObject], ?_, ?_⟩
      · intro frames expecting takes
        rw [Progress.foldlM_cons (Progress.step_of_takesValue takes frames (by simp))]
        exact Progress.foldlM_closeObject (.inr rfl) [] frames
      · exact .cons rfl (fun _ => rfl) (.blanks_append blank isCutInto_closeObject)
  | object listed ih =>
      obtain ⟨symbols, made, cut⟩ := ih
      refine ⟨.openObject :: (symbols ++ [.closeObject]), ?_, ?_⟩
      · intro frames expecting takes
        rw [Progress.foldlM_cons (Progress.step_of_takesValue takes frames (by simp)),
          Progress.foldlM_append (made [] frames _ (.inr rfl)),
          Progress.foldlM_closeObject (.inl rfl), List.append_nil, List.reverse_reverse]
      · have ends : EndsWord isNumeral ['\x7d'] := .cons rfl []
        exact .cons rfl (fun _ => rfl) (cut.append isCutInto_closeObject ends)
  | element front back inside ih =>
      obtain ⟨symbols, made, cut⟩ := ih
      have ends := endsNumber_of_isBlanks back
      have whole := IsCutInto.blanks_append front (cut.append (.blanks back) ends)
      rw [List.append_nil, ← List.append_assoc] at whole
      exact ⟨symbols, made, whole⟩
  | lastItem last ih =>
      obtain ⟨symbols, made, cut⟩ := ih
      exact ⟨symbols, fun before frames expecting takes => made _ expecting takes, cut⟩
  | moreItems first more firstIh moreIh =>
      obtain ⟨symbols, made, cut⟩ := firstIh
      obtain ⟨others, moreMade, moreCut⟩ := moreIh
      refine ⟨symbols ++ .comma :: others, ?_, ?_⟩
      · intro before frames expecting takes
        rw [Progress.foldlM_append (made _ expecting takes), Progress.foldlM_cons rfl,
          moreMade _ frames _ (.inl rfl), List.reverse_cons, List.append_assoc,
          List.singleton_append]
      · exact cut.append (.cons rfl (fun _ => rfl) moreCut) (.cons rfl _)
  | member front back named inside ih =>
      obtain ⟨symbols, made, cut⟩ := ih
      rename_i key whole before name behind written
      refine ⟨.string key :: .colon :: symbols, ?_, ?_⟩
      · intro before frames expecting takes
        rw [Progress.foldlM_cons (Progress.step_of_takesKey takes _ (by simp)),
          Progress.foldlM_cons rfl, made _ _ (.inl rfl)]
        rfl
      · have read := readSymbol?_string named
        obtain ⟨codes, inside, -, rfl, -⟩ := named
        have key : IsCutInto [.string key] ('"' :: inside ++ ['"']) :=
          .single rfl fun rest _ => read rest
        have colon : IsCutInto (.colon :: symbols) (':' :: written) := .cons rfl (fun _ => rfl) cut
        have noNumber : EndsWord isNumeral (':' :: written) := .cons rfl written
        have ends := (endsNumber_of_isBlanks back).append noNumber
        have whole := IsCutInto.blanks_append front (key.append (colon.blanks_append back) ends)
        simpa only [List.append_assoc, List.cons_append, List.nil_append] using whole
  | lastMember last ih =>
      obtain ⟨symbols, made, cut⟩ := ih
      exact ⟨symbols, made, cut⟩
  | moreMembers first more firstIh moreIh =>
      obtain ⟨symbols, made, cut⟩ := firstIh
      obtain ⟨others, moreMade, moreCut⟩ := moreIh
      refine ⟨symbols ++ .comma :: others, ?_, ?_⟩
      · intro before frames expecting takes
        rw [Progress.foldlM_append (made before frames expecting takes), Progress.foldlM_cons rfl,
          moreMade _ frames _ (.inl rfl), List.reverse_cons, List.append_assoc,
          List.singleton_append]
      · exact cut.append (.cons rfl (fun _ => rfl) moreCut) (.cons rfl _)

/-- The reader finds the value that a document holds. -/
theorem read?_of_document {value : Json} {text : Text} (document : Document value text) :
    read? text = some value := by
  obtain ⟨symbols, made, cut⟩ := Writes.isReadFrom document
  have found : readSymbols? text = some symbols := by
    have whole := cut [] (fun c head => by cases head)
    rw [List.append_nil] at whole
    rw [whole, readSymbols?]
    simp
  have delivered := made [] .value (.inl rfl)
  rw [read?, found]
  simp only [Option.bind_eq_bind, Option.bind_some, Progress.start]
  rw [delivered]
  rfl

end Recase.Json
