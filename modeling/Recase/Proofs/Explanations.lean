import Recase.Proofs.Agreement
import Recase.Proofs.Listing
import Recase.Proofs.Placeholders
import Recase.Proofs.Visits
import Mathlib

/-!
# What explanations foretell

An explanation takes an identifier for one name and says what becomes of it.  A rewriting of the
identifier has to find the name first.  The lexer finds it.  In running text it is found unless some
of its characters are too recent to belong to a word there.  Such an identifier falls apart, and
the explanation is right about it only if nothing changes, neither in the whole nor in what is left.
-/

namespace Recase

open Character (isWord isRecent isIdentifier)

/-! ## Identifiers that stand alone -/

theorem Token.tokenize_of_isIdentifier {name : Text} (identifier : isIdentifier name = true) :
    tokenize name = [{ kind := .identifier, text := name }] := by
  cases name with
  | nil => cases identifier
  | cons first rest =>
      obtain ⟨starts, others⟩ := Bool.and_eq_true_iff.mp identifier
      have allWord : ∀ c ∈ rest, isWord c = true := List.all_eq_true.mp others
      have noBlank := isBlank_eq_false_of_isWord (Character.isWord_of_isWordStart starts)
      have noLiteral : Lexeme.encoded (first :: rest) [] = none :=
        Lexeme.encoded_eq_none_of_head (by simp) (by simp)
      have value : scan .initial first rest = (.identifier, rest, []) := by
        rw [scan_word .initial starts noBlank, if_neg (by decide),
          List.takeWhile_eq_self_iff.mpr allWord, List.dropWhile_eq_nil_iff.mpr allWord, noLiteral]
      rw [tokenize, tokensFrom_of_scan value, tokensFrom]

namespace Mode

variable {mode : Mode} {name : Text}

theorem parts_of_isIdentifier (identifier : isIdentifier name = true)
    (allWord : ∀ c ∈ name, mode.isWord c = true) :
    mode.parts name = [{ isName := true, text := name }] := by
  cases mode with
  | lexical =>
      rw [parts, Token.tokenize_of_isIdentifier identifier]
      rfl
  | text =>
      have nonempty : name ≠ [] := by
        rintro rfl
        cases identifier
      have whole := Part.ofWords_word nonempty allWord .nil
      rw [List.append_nil] at whole
      exact whole

/-- The characters of an identifier may belong to names, except that running text knows no recent
ones. -/
theorem forall_isWord_iff (identifier : isIdentifier name = true) :
    (∀ c ∈ name, mode.isWord c = true) ↔ mode = .lexical ∨ ∀ c ∈ name, isRecent c = false := by
  have allWord : ∀ c ∈ name, Character.isWord c = true :=
    fun c member => Character.isWord_of_isIdentifier identifier member
  cases mode with
  | lexical => exact iff_of_true allWord (.inl rfl)
  | text =>
      rw [or_iff_right (by decide)]
      apply forall₂_congr
      intro c member
      rw [Mode.isWord, Character.isTextWord, allWord c member, Bool.true_and, Bool.not_eq_true']

end Mode

/-! ## Texts that are one name -/

namespace Convention

variable {convention : Convention} {mode : Mode} {name new : Text}

/-- What a text is rewritten to if the whole of it is a name. -/
def rewriteName (convention : Convention) (name : Text) : Rewrite :=
  convention.rewriteBy (fun text => [{ isName := true, text }]) name

theorem rewriteName_of_some (renamed : convention.rename? name = some new) :
    convention.rewriteName name =
      { content := new, replacements := 1, renames := Index.ofList [(name, new)] } := by
  rw [rewriteName, rewriteBy, rewriteParts_name, changes_name_of_some renamed, renamed]
  simp [rewriteParts, changes]

theorem rewriteName_of_none (unchanged : convention.rename? name = none) :
    convention.rewriteName name = { content := name, replacements := 0, renames := .empty } := by
  apply rewriteBy_of_changes
  · exact List.append_nil name
  · rw [changes_name_of_none unchanged]
    rfl

theorem changes_parts_eq_nil_iff : convention.changes (mode.parts name) = [] ↔
    ∀ word ∈ mode.visited name, convention.rename? word = none := by
  rw [← List.length_eq_zero_iff, length_changes_eq_countP, List.countP_eq_zero,
    Mode.names_parts]
  simp only [Option.isSome_iff_ne_none, ne_eq, not_not]

/-- Finding names comes to the same as taking an identifier for one name if all its characters may
belong to names, or else if nothing changes either way. -/
theorem rewriteBy_eq_rewriteName_iff (identifier : isIdentifier name = true) :
    convention.rewriteBy mode.parts name = convention.rewriteName name ↔
      (∀ c ∈ name, mode.isWord c = true) ∨
        ∀ word ∈ name :: mode.visited name, convention.rename? word = none := by
  rw [List.forall_mem_cons, ← changes_parts_eq_nil_iff]
  constructor
  · intro same
    cases renamed : convention.rename? name with
    | some new =>
        left
        rw [rewriteName_of_some renamed] at same
        have recorded : (convention.rewriteBy mode.parts name).renames.get? name = some new := by
          rw [same, Index.get?_ofList, Index.find, if_pos rfl]
        rw [rewriteBy, Index.get?_ofList] at recorded
        exact (mem_changes (mode.bounded_parts name) (Index.mem_of_find recorded)).2
    | none =>
        right
        rw [rewriteName_of_none renamed] at same
        have nothing : (convention.changes (mode.parts name)).length = 0 :=
          congrArg Rewrite.replacements same
        exact ⟨rfl, List.length_eq_zero_iff.mp nothing⟩
  · rintro (allWord | ⟨unchanged, nothing⟩)
    · rw [rewriteName, rewriteBy, rewriteBy, Mode.parts_of_isIdentifier identifier allWord]
    · rw [rewriteName_of_none unchanged, rewriteBy_of_changes (mode.join_parts name) nothing]

end Convention

/-! ## Explanations -/

namespace Explanation

theorem member?_result (explanation : Explanation) :
    explanation.toJson.member? "result".toList = some (.text explanation.result) := by
  rw [toJson, Json.member?_record, Index.find_append]
  rfl

theorem member?_changed (explanation : Explanation) :
    explanation.toJson.member? "changed".toList = some (.bool explanation.changed) := by
  rw [toJson, Json.member?_record, Index.find_append]
  rfl

/-- An explanation says what a text is rewritten to if the whole of it is a name. -/
theorem rewriteName_eq (convention : Convention) (name : Text) :
    convention.rewriteName name =
      { content := (Explanation.of convention name).result
        replacements := if (Explanation.of convention name).changed then 1 else 0
        renames :=
          if (Explanation.of convention name).changed then
            Index.ofList [(name, (Explanation.of convention name).result)]
          else .empty } := by
  cases renamed : convention.rename? name with
  | some new =>
      have result : (Explanation.of convention name).result = new := by
        rw [Explanation.of, renamed, Option.getD_some]
      have changes : (Explanation.of convention name).changed = true := by
        rw [changed, result, decide_eq_true_eq]
        exact Convention.ne_of_rename? renamed
      rw [Convention.rewriteName_of_some renamed, result, changes, if_pos rfl, if_pos rfl]
  | none =>
      have result : (Explanation.of convention name).result = name := by
        rw [Explanation.of, renamed, Option.getD_none]
      have keeps : (Explanation.of convention name).changed = false := by
        rw [changed, result]
        exact decide_eq_false fun different => different rfl
      rw [Convention.rewriteName_of_none renamed, result, keeps, if_neg Bool.false_ne_true,
        if_neg Bool.false_ne_true]

end Explanation

namespace Config

variable {config : Config} {name : Text}

/-- What an explanation holds about a name is what becomes of the name when it is rewritten alone:
the result is the new text, and the name is replaced once if it is said to change, and otherwise not
at all. -/
def Foretells (config : Config) (name : Text) (entry : Json) : Prop :=
  ∃ result changed, entry.member? "result".toList = some (.text result) ∧
    entry.member? "changed".toList = some (.bool changed) ∧
    config.rewrite name = .ok
      { content := result
        replacements := if changed then 1 else 0
        renames := if changed then Index.ofList [(name, result)] else .empty }

theorem foretells_iff :
    config.Foretells name (Explanation.of config.toConvention name).toJson ↔
      config.rewrite name = .ok (config.rewriteName name) := by
  have result := (Explanation.of config.toConvention name).member?_result
  have told := (Explanation.of config.toConvention name).member?_changed
  rw [Explanation.rewriteName_eq]
  constructor
  · rintro ⟨other, changed, otherResult, otherTold, rewritten⟩
    rw [result] at otherResult
    rw [told] at otherTold
    cases otherResult
    cases otherTold
    exact rewritten
  · intro rewritten
    exact ⟨_, _, result, told, rewritten⟩

/-- Under the guard of a console output an identifier is rewritten without regard to the guard. -/
theorem rewrite_of_isIdentifier (standard : config.toGuard = default.toGuard)
    (identifier : isIdentifier name = true) :
    config.rewrite name = .ok (config.rewriteBy config.mode.parts name) := by
  have noWord : isWord config.placeholder = false := by
    rw [standard]
    decide
  have unmarked : config.placeholder ∉ Character.marks := by
    rw [standard]
    decide
  have absent : config.placeholder ∉ name := by
    intro member
    have inWord := Character.isWord_of_isIdentifier identifier member
    rw [noWord] at inWord
    cases inWord
  have noSeparator : ¬ config.separator <:+: name := by
    intro inside
    have backslash : '\\' ∈ config.separator := by
      rw [standard]
      decide
    exact absurd (Character.isWord_of_isIdentifier identifier (inside.subset backslash))
      (by decide)
  have concealed : config.protect name = .ok name := by
    rw [Guard.protect_of_not_mem absent, Guard.conceal_of_not_infix _ noSeparator]
  rw [rewrite, rewriteContent, Guard.rewriteContentBy_of_protect concealed,
    Guard.restore_of_not_mem _ (Convention.not_mem_rewriteParts noWord unmarked absent)]
  rfl

/-- What an explanation of an identifier foretells comes true if the lexer finds names, or if no
character of the identifier is too recent for the words of running text.  Otherwise it comes true
just in case nothing changes, neither in the identifier nor in the words that it falls into. -/
theorem foretells_explanation_iff (standard : config.toGuard = default.toGuard)
    (identifier : isIdentifier name = true) :
    config.Foretells name (Explanation.of config.toConvention name).toJson ↔
      config.mode = .lexical ∨ (∀ c ∈ name, isRecent c = false) ∨
        ∀ word ∈ name :: config.mode.visited name, config.rename? word = none := by
  rw [foretells_iff, rewrite_of_isIdentifier standard identifier, Except.ok.injEq,
    Convention.rewriteBy_eq_rewriteName_iff identifier, Mode.forall_isWord_iff identifier,
    or_assoc]

/-- The default configuration, but for running text, and with underscores left alone unless they are
leading ones. -/
def runningText : Config :=
  { default with mode := .text, camelCase := false }

end Config

namespace Command

variable {arguments : ConfigArguments} {paths : List Text} {world : World} {config : Config}

theorem exists_resolve_nil (resolved : arguments.resolve paths world = .ok config) :
    ∃ other, arguments.resolve [] world = .ok other ∧
      other.toConvention = config.toConvention := by
  obtain ⟨base, mode, based, chosen, rfl, valid⟩ := ConfigArguments.resolve_eq_ok_iff.mp resolved
  exact ⟨arguments.applyTo [] base mode,
    ConfigArguments.resolve_eq_ok_iff.mpr ⟨base, mode, based, chosen, rfl, valid⟩, rfl⟩

theorem execute_explain (resolved : arguments.resolve paths world = .ok config)
    {identifiers : List Text} (identified : ∀ name ∈ identifiers, isIdentifier name = true) :
    (explain identifiers arguments).execute world =
      (.success (.record [("identifiers".toList, .array (identifiers.map fun name =>
        (Explanation.of config.toConvention name).toJson))]) 0, world) := by
  obtain ⟨other, found, same⟩ := exists_resolve_nil resolved
  have noOther : identifiers.find? (fun name => !isIdentifier name) = none := by
    rw [List.find?_eq_none]
    intro name member
    rw [identified name member]
    decide
  have explained : executeExplain identifiers arguments world =
      .ok (identifiers.map (Explanation.of config.toConvention)) := by
    simp only [executeExplain, found, bind, Except.bind, noOther, same]
  rw [execute, explained]
  simp only [Except.map, ending, List.map_map]
  rfl

/-- Identifiers are explained one by one, and every one of them is rewritten if it stands alone.
The explanation foretells what it becomes if the lexer finds the names, or if no character of the
identifier is too recent for the words of running text, and otherwise just in case nothing changes,
neither in the identifier nor in the words that it falls into. -/
theorem explain_foretells (config : Config) (standard : config.toGuard = Config.default.toGuard)
    {arguments : ConfigArguments} {paths : List Text} {world : World}
    (resolved : arguments.resolve paths world = .ok config) {identifiers : List Text}
    (identified : ∀ name ∈ identifiers, isIdentifier name = true) :
    ∃ entries, (explain identifiers arguments).execute world =
        (.success (.record [("identifiers".toList, .array entries)]) 0, world) ∧
      List.Forall₂ (fun name entry =>
        (∃ rewrite, config.rewrite name = .ok rewrite) ∧
        (config.Foretells name entry ↔
          config.mode = .lexical ∨ (∀ c ∈ name, isRecent c = false) ∨
            ∀ word ∈ name :: config.mode.visited name, config.rename? word = none))
        identifiers entries := by
  refine ⟨_, execute_explain resolved identified, ?_⟩
  rw [List.forall₂_map_right_iff, List.forall₂_same]
  intro name member
  have identifier := identified name member
  exact ⟨⟨_, Config.rewrite_of_isIdentifier standard identifier⟩,
    Config.foretells_explanation_iff standard identifier⟩

/-- The arguments that ask for running text and for leading underscores only. -/
def runningTextArguments : ConfigArguments where
  mode := some "text".toList
  markOnly := true

theorem resolve_runningText :
    runningTextArguments.resolve [] { tree := .empty } = .ok Config.runningText := by
  rfl

/-- Two identifiers of old letters in running text, one that changes and one that does not. -/
theorem explain_foretells_oldLetters :
    ∃ first second,
      runningTextArguments.resolve [] { tree := .empty } = .ok Config.runningText ∧
      Config.runningText.toGuard = Config.default.toGuard ∧
      (explain [['_', 'x'], ['y', '_', 'z']] runningTextArguments).execute { tree := .empty } =
        (.success (.record [("identifiers".toList, .array [first, second])]) 0,
          { tree := .empty }) ∧
      Config.runningText.Foretells ['_', 'x'] first ∧
      Config.runningText.Foretells ['y', '_', 'z'] second := by
  have standard : Config.runningText.toGuard = Config.default.toGuard := rfl
  have identified : ∀ name ∈ [['_', 'x'], ['y', '_', 'z']], isIdentifier name = true := by decide
  have old : ∀ name ∈ [['_', 'x'], ['y', '_', 'z']], ∀ c ∈ name, isRecent c = false := by
    have none : ([['_', 'x'], ['y', '_', 'z']].any fun name => name.any isRecent) = false := by cbv
    simpa using none
  obtain ⟨entries, executed, told⟩ := explain_foretells _ standard resolve_runningText identified
  cases told with
  | cons first others =>
      cases others with
      | cons second others =>
          cases others
          refine ⟨_, _, resolve_runningText, standard, executed, first.2.mpr ?_, second.2.mpr ?_⟩
          · exact .inr (.inl (old _ (by simp)))
          · exact .inr (.inl (old _ (by simp)))

/-- A letter that is too recent for the words of running text.  The identifier is said not to
change, but the underscore behind the letter is taken for a leading one. -/
theorem explain_foretells_recentLetter :
    ∃ entry,
      runningTextArguments.resolve [] { tree := .empty } = .ok Config.runningText ∧
      Config.runningText.toGuard = Config.default.toGuard ∧
      isIdentifier ['\u088F', '_', 'x'] = true ∧
      (explain [['\u088F', '_', 'x']] runningTextArguments).execute { tree := .empty } =
        (.success (.record [("identifiers".toList, .array [entry])]) 0, { tree := .empty }) ∧
      entry.member? "result".toList = some (.text ['\u088F', '_', 'x']) ∧
      Config.runningText.rewrite ['\u088F', '_', 'x'] = .ok
        { content := ['\u088F', 'm', '_', 'x'], replacements := 1
          renames := Index.ofList [(['_', 'x'], ['m', '_', 'x'])] } ∧
      ¬ Config.runningText.Foretells ['\u088F', '_', 'x'] entry := by
  have standard : Config.runningText.toGuard = Config.default.toGuard := rfl
  have identified : ∀ name ∈ [['\u088F', '_', 'x']], isIdentifier name = true := by decide
  have identifier : isIdentifier ['\u088F', '_', 'x'] = true := identified _ (by simp)
  have renamed : Config.runningText.rename? ['\u088F', '_', 'x'] = none :=
    Convention.rename?_of_marks rfl _
  have marked : Config.runningText.rename? ['_', 'x'] = some ['m', '_', 'x'] :=
    Convention.rename?_of_marks rfl _
  have parts : Config.runningText.mode.parts ['\u088F', '_', 'x'] =
      [{ isName := false, text := ['\u088F'] }, { isName := true, text := ['_', 'x'] }] := by
    change Part.ofWords Character.isTextWord ['\u088F', '_', 'x'] = _
    cbv
  have rewritten : Config.runningText.rewrite ['\u088F', '_', 'x'] = .ok
      { content := ['\u088F', 'm', '_', 'x'], replacements := 1
        renames := Index.ofList [(['_', 'x'], ['m', '_', 'x'])] } := by
    rw [Config.rewrite_of_isIdentifier standard identifier, Convention.rewriteBy, parts,
      Convention.rewriteParts_other, Convention.rewriteParts_name, Convention.changes_other,
      Convention.changes_name_of_some marked, marked]
    rfl
  refine ⟨_, resolve_runningText, standard, identifier,
    execute_explain resolve_runningText identified, ?_, rewritten, ?_⟩
  · rw [Explanation.member?_result, Explanation.of, renamed, Option.getD_none]
  · rw [Config.foretells_iff, rewritten, Convention.rewriteName_of_none renamed]
    intro same
    exact absurd (congrArg Rewrite.replacements (Except.ok.inj same)) (by decide)

end Command

end Recase
