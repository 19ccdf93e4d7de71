import Recase.Proofs.Listing
import Recase.Proofs.Visits
import Mathlib

/-!
# More names that are ignored

A name that is added to the ignored ones keeps its underscores.  It is looked up in its marked form,
so a name that begins with an underscore still gets the letter of a member, and it is that form that
has to be added.  No other name is affected by the addition, wherever it stands.
-/

namespace Recase

/-! ## Sets with more names -/

namespace Names

theorem contains_extend_iff (names : Names) (more : List Text) (name : Text) :
    (names.extend more).contains name = true ↔ names.contains name = true ∨ name ∈ more := by
  induction more generalizing names with
  | nil => simp [extend]
  | cons first more ih =>
      have added : (names.insertNew first ()).contains name = true ↔
          names.contains name = true ∨ name = first := by
        rw [Index.contains, Index.get?_insertNew, Index.contains]
        by_cases same : name = first <;> simp [same]
      calc (names.extend (first :: more)).contains name = true
          ↔ (names.insertNew first ()).contains name = true ∨ name ∈ more :=
            ih (names.insertNew first ())
        _ ↔ names.contains name = true ∨ name ∈ first :: more := by
            rw [added, List.mem_cons, or_assoc]

theorem extend_append (names : Names) (left right : List Text) :
    names.extend (left ++ right) = (names.extend left).extend right :=
  List.foldl_append

end Names

/-! ## Names under a convention that ignores more -/

namespace Convention

variable {convention : Convention} {more : List Text}

/-- The convention with more names that keep their underscores. -/
def ignoring (convention : Convention) (more : List Text) : Convention :=
  { convention with ignored := convention.ignored.extend more }

/-- What becomes of a name: the new name, or the name itself if it is left alone. -/
def becomes (convention : Convention) (name : Text) : Text :=
  (convention.rename? name).getD name

theorem isCandidate_ignoring_iff {name : Text} :
    (convention.ignoring more).isCandidate name = true ↔
      convention.isCandidate name = true ∧ name ∉ more := by
  have kept : (convention.ignoring more).ignores name = true ↔
      convention.ignores name = true ∨ name ∈ more :=
    Names.contains_extend_iff convention.ignored more name
  cases name with
  | nil => simp [isCandidate]
  | cons first rest =>
      simp only [isCandidate, Bool.and_eq_true, Bool.not_eq_true', Bool.eq_false_iff, ne_eq, kept,
        not_or, and_assoc]

theorem camelCase?_ignoring (convention : Convention) (more : List Text) (name : Text) :
    (convention.ignoring more).camelCase? name =
      if name ∈ more then none else convention.camelCase? name := by
  have joined : (convention.ignoring more).joinWords (words name) =
      convention.joinWords (words name) := by
    cases words name <;> rfl
  rw [camelCase?, camelCase?, joined]
  by_cases added : name ∈ more
  · rw [if_pos added, if_neg fun candidate => (isCandidate_ignoring_iff.mp candidate).2 added]
  · have same : (convention.ignoring more).isCandidate name = convention.isCandidate name :=
      Bool.eq_iff_iff.mpr (isCandidate_ignoring_iff.trans (and_iff_left added))
    rw [if_neg added, same]

variable (joins : convention.camelCase = true)

include joins in
/-- A name whose marked form has been added is marked and nothing else.  Any other name is renamed
as before. -/
theorem rename?_ignoring (more : List Text) (name : Text) :
    (convention.ignoring more).rename? name =
      if markName name ∈ more then markMember? name else convention.rename? name := by
  have joinsToo : (convention.ignoring more).camelCase = true := joins
  rw [rename?, rename?, joinsToo, joins, if_pos rfl, if_pos rfl, camelCase?_ignoring, markName]
  split
  · exact Option.none_or
  · rfl

include joins in
theorem becomes_ignoring (more : List Text) (name : Text) :
    (convention.ignoring more).becomes name =
      if markName name ∈ more then markName name else convention.becomes name := by
  rw [becomes, rename?_ignoring joins]
  split
  · rfl
  · rfl

include joins in
theorem isSome_rename?_of_ignoring {name : Text}
    (changed : ((convention.ignoring more).rename? name).isSome = true) :
    (convention.rename? name).isSome = true := by
  rw [rename?_ignoring joins] at changed
  split at changed
  · obtain ⟨marked, found⟩ := Option.isSome_iff_exists.mp changed
    rw [rename?, found, Option.isSome_or, Option.isSome_some, Bool.or_true]
  · exact changed

theorem rewriteParts_eq_replaceNames_becomes (convention : Convention) (parts : List Part) :
    convention.rewriteParts parts = Part.replaceNames convention.becomes parts := by
  rw [rewriteParts, Part.replaceNames]
  apply List.flatMap_congr
  intro part _
  exact convention.rewritten_eq part

include joins in
theorem length_changes_ignoring_le (more : List Text) (parts : List Part) :
    ((convention.ignoring more).changes parts).length ≤ (convention.changes parts).length := by
  rw [length_changes_eq_countP, length_changes_eq_countP]
  apply List.countP_mono_left
  intro name _ changed
  exact isSome_rename?_of_ignoring joins changed

include joins in
theorem get?_changes_ignoring {name : Text} (spared : markName name ∉ more) (parts : List Part) :
    (Index.ofList ((convention.ignoring more).changes parts)).get? name =
      (Index.ofList (convention.changes parts)).get? name := by
  apply Option.ext
  intro new
  rw [Index.get?_ofList, Index.get?_ofList, find_changes_eq_some_iff, find_changes_eq_some_iff,
    rename?_ignoring joins, if_neg spared]

end Convention

/-! ## Texts -/

namespace Config

variable {config : Config}

/-- The configuration with more names that keep their underscores. -/
def ignoring (config : Config) (more : List Text) : Config :=
  { config with ignored := config.ignored.extend more }

theorem content_eq_replaceVisited {content : Text} {rewrite : Rewrite}
    (rewritten : config.rewrite content = .ok rewrite) :
    rewrite.content =
      config.restore (config.mode.replaceVisited config.becomes (config.conceal content)) := by
  obtain ⟨-, rfl⟩ := rewrite_eq_ok rewritten
  rw [← Mode.replaceNames_parts, ← Convention.rewriteParts_eq_replaceNames_becomes]

/-- More names in the arguments are more names in the configuration that they make up. -/
theorem resolve_ignoring {arguments : ConfigArguments} {paths : List Text} {world : World}
    (resolved : arguments.resolve paths world = .ok config) (more : List Text) :
    ConfigArguments.resolve { arguments with ignore := arguments.ignore ++ more } paths world =
      .ok (config.ignoring more) := by
  obtain ⟨base, mode, based, chosen, rfl, valid⟩ := ConfigArguments.resolve_eq_ok_iff.mp resolved
  refine ConfigArguments.resolve_eq_ok_iff.mpr ⟨base, mode, based, chosen, ?_, valid⟩
  rw [ignoring, ConfigArguments.applyTo, ConfigArguments.applyTo, Names.extend_append]

/-- Adding names to the ignored ones acts on the names alone whose marked forms are added: they are
marked and nothing else.  All other names become what they became before, so that no more names
are replaced, and those that are have the new names that they had. -/
theorem rewrite_ignoring (config : Config) (joins : config.camelCase = true) (more : List Text)
    {content : Text} {rewrite : Rewrite} (rewritten : config.rewrite content = .ok rewrite) :
    (∀ (arguments : ConfigArguments) (paths : List Text) (world : World),
      arguments.resolve paths world = .ok config →
        ConfigArguments.resolve { arguments with ignore := arguments.ignore ++ more } paths world =
          .ok (config.ignoring more)) ∧
    (∀ name, (config.ignoring more).becomes name =
      if markName name ∈ more then markName name else config.becomes name) ∧
    ∃ sparing, (config.ignoring more).rewrite content = .ok sparing ∧
      rewrite.content =
        config.restore (config.mode.replaceVisited config.becomes (config.conceal content)) ∧
      sparing.content = config.restore
        (config.mode.replaceVisited (config.ignoring more).becomes (config.conceal content)) ∧
      sparing.replacements ≤ rewrite.replacements ∧
      ∀ name, markName name ∉ more → sparing.renames.get? name = rewrite.renames.get? name := by
  refine ⟨?_, ?_, ?_⟩
  · intro arguments paths world resolved
    exact resolve_ignoring resolved more
  · intro name
    exact Convention.becomes_ignoring joins more name
  · obtain ⟨absent, same⟩ := rewrite_eq_ok rewritten
    obtain ⟨sparing, spared⟩ := (config.ignoring more).rewrite_of_not_mem absent
    obtain ⟨-, alike⟩ := rewrite_eq_ok spared
    have before := content_eq_replaceVisited rewritten
    have after := content_eq_replaceVisited spared
    refine ⟨sparing, spared, before, after, ?_, ?_⟩
    · rw [same, alike]
      exact Convention.length_changes_ignoring_le joins more _
    · intro name other
      rw [same, alike]
      exact Convention.get?_changes_ignoring joins other _

set_option maxRecDepth 4000 in
/-- A name that begins with an underscore is spared if its marked form is added.  Adding the name
itself, as is done with the last one, makes no difference. -/
theorem rewrite_ignoring_marked :
    ∃ rewrite sparing,
      (unfiltered [] .lexical).camelCase = true ∧
      (unfiltered [] .lexical).rewrite "_x_y(c_d)e_f+_z".toList = .ok rewrite ∧
      rewrite.content = "m_XY(CD)EF+m_Z".toList ∧ rewrite.replacements = 4 ∧
      ((unfiltered [] .lexical).ignoring ["m_x_y".toList, "c_d".toList, "_z".toList]).rewrite
        "_x_y(c_d)e_f+_z".toList = .ok sparing ∧
      sparing.content = "m_x_y(c_d)EF+m_Z".toList ∧
      sparing.replacements ≤ rewrite.replacements ∧
      sparing.renames.get? "e_f".toList = rewrite.renames.get? "e_f".toList := by
  have joins : (unfiltered [] .lexical).camelCase = true := rfl
  have rewritten : (unfiltered [] .lexical).rewrite "_x_y(c_d)e_f+_z".toList = .ok
      { content := "m_XY(CD)EF+m_Z".toList, replacements := 4
        renames := Index.ofList [("_x_y".toList, "m_XY".toList), ("c_d".toList, "CD".toList),
          ("e_f".toList, "EF".toList), ("_z".toList, "m_Z".toList)] } := by
    cbv
  obtain ⟨-, -, sparing, spared, -, content, fewer, alike⟩ :=
    rewrite_ignoring (unfiltered [] .lexical) joins
      ["m_x_y".toList, "c_d".toList, "_z".toList] rewritten
  have other : markName "e_f".toList ∉ ["m_x_y".toList, "c_d".toList, "_z".toList] := by decide
  refine ⟨_, sparing, joins, rewritten, ?_, ?_, spared, ?_, fewer, ?_⟩
  · rfl
  · rfl
  · rw [content]
    cbv
  · exact alike _ other

end Config

end Recase
