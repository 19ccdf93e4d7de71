import Recase.Rewrite

/-!
# Configurations

A configuration says where to look for files, how their names are to be written, which separator to
guard and how to find the names.
-/

namespace Recase

/-- Which files are to be rewritten: those right inside some directories whose names have one of the
endings. -/
structure Sources where
  paths : List Text
  suffixes : List Text
  deriving DecidableEq

/-- All that a run depends on apart from the files. -/
structure Config extends Sources, Convention, Guard where
  mode : Mode
  deriving DecidableEq

namespace Config

/-- Names with underscores from the standard library, which belong to an interface that cannot be
renamed. -/
def libraryNames : List Text :=
  ["back_inserter".toList, "c_str".toList, "const_cast".toList, "dynamic_cast".toList,
    "emplace_back".toList, "find_first_not_of".toList, "find_first_of".toList, "find_if".toList,
    "find_if_not".toList, "find_last_not_of".toList, "find_last_of".toList,
    "invalid_argument".toList, "is_open".toList, "logic_error".toList, "make_pair".toList,
    "make_shared".toList, "make_unique".toList, "out_of_range".toList, "pop_back".toList,
    "push_back".toList, "reinterpret_cast".toList, "remove_if".toList, "runtime_error".toList,
    "shared_ptr".toList, "size_t".toList, "size_type".toList, "static_cast".toList,
    "string_view".toList, "to_string".toList, "unique_ptr".toList, "unordered_map".toList,
    "unordered_set".toList]

/-- Keywords, operators spelt as words, and types of the language with underscores.  To the lexer
they are identifiers. -/
def languageNames : List Text :=
  ["and_eq".toList, "char16_t".toList, "char32_t".toList, "char8_t".toList, "co_await".toList,
    "co_return".toList, "co_yield".toList, "int16_t".toList, "int32_t".toList, "int64_t".toList,
    "int8_t".toList, "int_fast16_t".toList, "int_fast32_t".toList, "int_fast64_t".toList,
    "int_fast8_t".toList, "int_least16_t".toList, "int_least32_t".toList, "int_least64_t".toList,
    "int_least8_t".toList, "intmax_t".toList, "intptr_t".toList, "max_align_t".toList,
    "not_eq".toList, "nullptr_t".toList, "off_t".toList, "or_eq".toList, "ptrdiff_t".toList,
    "ssize_t".toList, "static_assert".toList, "thread_local".toList, "time_t".toList,
    "uint16_t".toList, "uint32_t".toList, "uint64_t".toList, "uint8_t".toList,
    "uint_fast16_t".toList, "uint_fast32_t".toList, "uint_fast64_t".toList, "uint_fast8_t".toList,
    "uint_least16_t".toList, "uint_least32_t".toList, "uint_least64_t".toList,
    "uint_least8_t".toList, "uintmax_t".toList, "uintptr_t".toList, "wchar_t".toList,
    "xor_eq".toList]

/-- The configuration that holds where nothing else is said.  Its separator is the divider of a
console output, fifty underscores and two escaped line feeds, as it stands in a string literal. -/
def default : Config where
  paths := []
  suffixes := [['.', 'c', 'p', 'p'], ['.', 'h']]
  ignored := Names.ofList (languageNames ++ libraryNames)
  memberMarker := ['m']
  argumentMarker := ['a']
  camelCase := true
  separator := List.replicate 50 '_' ++ ['\\', 'n', '\\', 'n']
  placeholder := '§'
  mode := .lexical

/-- The configuration that holds where nothing else is said, for the files in some directories, and
with no name ignored. -/
def unfiltered (paths : List Text) (mode : Mode) : Config where
  paths := paths
  suffixes := [['.', 'c', 'p', 'p'], ['.', 'h']]
  ignored := .empty
  memberMarker := ['m']
  argumentMarker := ['a']
  camelCase := true
  separator := List.replicate 50 '_' ++ ['\\', 'n', '\\', 'n']
  placeholder := '§'
  mode := mode

/-- What a text is rewritten to under a configuration. -/
def rewrite (config : Config) (content : Text) : Except Error Rewrite :=
  rewriteContent config.toGuard config.toConvention config.mode content

/-! ## Validation -/

/-- The name of a setting in configuration files. -/
inductive Setting where
  | sourcePaths
  | fileSuffixes
  | ignoredIdentifiers
  | memberPrefixMarker
  | argumentPrefixMarker
  | separator
  | placeholder
  | mode
  | camelCase
  deriving DecidableEq, Repr

namespace Setting

/-- The key of a setting. -/
def key : Setting → Text
  | sourcePaths => "sourcePaths".toList
  | fileSuffixes => "fileSuffixes".toList
  | ignoredIdentifiers => "ignoredIdentifiers".toList
  | memberPrefixMarker => "memberPrefixMarker".toList
  | argumentPrefixMarker => "argumentPrefixMarker".toList
  | separator => "separator".toList
  | placeholder => "placeholder".toList
  | mode => "mode".toList
  | camelCase => "camelCase".toList

/-- All settings, in the order in which a configuration lists them. -/
def all : List Setting :=
  [sourcePaths, fileSuffixes, ignoredIdentifiers, memberPrefixMarker, argumentPrefixMarker,
    separator, placeholder, mode, camelCase]

/-- The error that a setting has a value that it may not have. -/
def invalid (setting : Setting) (value : Option Text) (problem : String) : Error :=
  .of (.invalidSetting setting.key value problem.toList)

end Setting

/-- Whether a text may mark a member or an argument. -/
def isMarker (marker : Text) : Bool :=
  !marker.isEmpty && marker.all Character.isAlphanumeric

/-- Whether a character may stand in for the separator. -/
def isPlaceholder (c : Char) : Bool :=
  0x80 ≤ c.toNat && !Character.isAlphanumeric c

/-- Require a condition. -/
def require (condition : Bool) (otherwise : Error) : Except Error Unit :=
  if condition then .ok () else .error otherwise

/-- Refuse a configuration under which a rewriting would go wrong. -/
def validate (config : Config) : Except Error Unit := do
  require (config.suffixes.any fun suffix => !suffix.isEmpty)
    (Setting.fileSuffixes.invalid none "At least one non-empty suffix is required")
  require (isMarker config.memberMarker)
    (Setting.memberPrefixMarker.invalid config.memberMarker
      "Prefix markers must be non-empty and contain only letters or digits")
  require (isMarker config.argumentMarker)
    (Setting.argumentPrefixMarker.invalid config.argumentMarker
      "Prefix markers must be non-empty and contain only letters or digits")
  require (isPlaceholder config.placeholder)
    (Setting.placeholder.invalid (some [config.placeholder])
      "Placeholder must be a non-ASCII, non-word character")
  require (!config.separator.isEmpty)
    (Setting.separator.invalid none "Separator must not be empty")
  require (!config.separator.contains config.placeholder)
    (Setting.separator.invalid config.separator "Separator must not contain the placeholder glyph")

/-- A configuration is accepted if all settings pass their checks. -/
theorem validate_eq_ok {config : Config}
    (suffix : config.suffixes.any (fun suffix => !suffix.isEmpty) = true)
    (member : isMarker config.memberMarker = true)
    (argument : isMarker config.argumentMarker = true)
    (placeholder : isPlaceholder config.placeholder = true)
    (nonempty : config.separator.isEmpty = false)
    (unmarked : config.separator.contains config.placeholder = false) :
    config.validate = .ok () := by
  simp only [validate, require, suffix, member, argument, placeholder, nonempty, unmarked,
    Bool.not_false, if_true]
  rfl

/-- A requirement in front of a check passes if its condition holds and the check passes. -/
theorem require_bind_eq_ok_iff {condition : Bool} {otherwise : Error}
    {check : Except Error Unit} :
    (do require condition otherwise; check) = .ok () ↔ condition = true ∧ check = .ok () := by
  cases condition with
  | false =>
      constructor
      · intro passes
        cases passes
      · rintro ⟨holds, -⟩
        cases holds
  | true =>
      constructor
      · intro passes
        exact ⟨rfl, passes⟩
      · rintro ⟨-, passes⟩
        exact passes

theorem require_eq_ok_iff {condition : Bool} {otherwise : Error} :
    require condition otherwise = .ok () ↔ condition = true := by
  cases condition <;> simp [require]

/-- The guard of an accepted configuration: neither of its parts can be mistaken for the other, and
no name holds the placeholder. -/
theorem guard_of_validate {config : Config} (valid : config.validate = .ok ()) :
    isPlaceholder config.placeholder = true ∧ config.separator ≠ [] ∧
      config.placeholder ∉ config.separator := by
  rw [validate, require_bind_eq_ok_iff, require_bind_eq_ok_iff, require_bind_eq_ok_iff,
    require_bind_eq_ok_iff, require_bind_eq_ok_iff, require_eq_ok_iff] at valid
  obtain ⟨-, -, -, placeholder, nonempty, unmarked⟩ := valid
  refine ⟨placeholder, ?_, ?_⟩
  · simpa using nonempty
  · simpa using unmarked

/-- A placeholder belongs to no word. -/
theorem isWord_eq_false_of_isPlaceholder {c : Char} (placeholder : isPlaceholder c = true) :
    Character.isWord c = false := by
  rw [isPlaceholder, Bool.and_eq_true, Bool.not_eq_true', decide_eq_true_eq] at placeholder
  have noUnderscore : (c == '_') = false := by
    apply beq_eq_false_iff_ne.mpr
    rintro rfl
    exact absurd placeholder.1 (by decide)
  rw [Character.isWord, noUnderscore, placeholder.2]
  rfl

theorem validate_unfiltered (paths : List Text) (mode : Mode) :
    (unfiltered paths mode).validate = .ok () :=
  validate_eq_ok rfl (by decide : isMarker ['m'] = true) (by decide : isMarker ['a'] = true)
    (by decide : isPlaceholder '§' = true) rfl rfl

end Config

end Recase
