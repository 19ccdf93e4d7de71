import Recase.Config.File
import Recase.Proofs.Printing
import Mathlib

/-!
# Loading configurations

A file that says what a configuration is gives that configuration when it is loaded.  Neither the
order of the settings matters, nor members that are no settings, nor how the document is written;
and the settings can be the items of an array.  Where the file lies matters for source directories
that are not absolute, unless the path of the file names no directory.
-/

namespace Recase

/-! ## Values that are read back -/

namespace Json

@[simp] theorem asText?_text (content : Text) : (text content).asText? = some content := rfl

@[simp] theorem asTexts?_texts (contents : List Text) :
    (texts contents).asTexts? = some contents := by
  rw [texts, asTexts?]
  induction contents with
  | nil => rfl
  | cons content contents ih =>
      rw [List.map_cons, List.mapM_cons, ih]
      rfl

end Json

theorem Names.ofList_toList (names : Names) : Names.ofList names.toList = names := by
  have same : (names.toList.map fun name => (name, ())) = names.entries := by
    rw [toList, Index.keys, List.map_map]
    exact List.map_id names.entries
  apply Index.ext_get?
  intro key
  rw [ofList, same, Index.get?_ofList]
  rfl

theorem Mode.ofJson?_name (mode : Mode) : Mode.ofJson? (.text mode.name) = some mode := by
  cases mode <;> rfl

/-! ## Settings -/

namespace Config

theorem config?_setting (config : Config) :
    Given.config? (fun setting => some (config.setting setting)) = some config := by
  simp only [Given.config?, Given.value, setting, Json.asTexts?_texts, Json.asText?_text,
    Mode.ofJson?_name, Names.ofList_toList, Option.map_some]
  rfl

theorem ofJson?_toArray (config : Config) : ofJson? config.toArray = some config := by
  rw [toArray, ofJson?, if_pos (by simp)]
  rw [← config?_setting]
  congr 1
  funext setting
  cases setting <;> rfl

theorem valuesOf_append (key : Text) (members others : List (Json.Spelling × Json)) :
    valuesOf key (members ++ others) = valuesOf key members ++ valuesOf key others := by
  rw [valuesOf, List.filter_append, List.map_append, valuesOf, valuesOf]

theorem valuesOf_perm {members others : List (Json.Spelling × Json)} (key : Text)
    (permuted : members.Perm others) : (valuesOf key members).Perm (valuesOf key others) :=
  (permuted.filter _).map _

theorem valuesOf_eq_nil {key : Text} {members : List (Json.Spelling × Json)}
    (absent : ∀ member ∈ members, member.1 ≠ some key) : valuesOf key members = [] := by
  rw [valuesOf, List.filter_eq_nil_iff.mpr, List.map_nil]
  intro member listed
  simpa using absent member listed

/-- The members that describe a configuration. -/
def members (config : Config) : List (Json.Spelling × Json) :=
  Setting.all.map fun setting => (some setting.key, config.setting setting)

theorem toJson_eq_object (config : Config) : config.toJson = .object config.members := by
  rw [toJson, Json.fields, List.map_map]
  rfl

/-- Every setting is given once. -/
theorem valuesOf_members (config : Config) (setting : Setting) :
    valuesOf setting.key config.members = [config.setting setting] := by
  have once : Setting.all.filter (fun other => decide (some other.key = some setting.key)) =
      [setting] := by
    cases setting <;> decide
  calc valuesOf setting.key config.members
      = (Setting.all.filter fun other => decide (some other.key = some setting.key)).map
          config.setting := by
        rw [valuesOf, members, List.filter_map, List.map_map]
        rfl
    _ = [config.setting setting] := by rw [once, List.map_singleton]

/-- Whether a value describes a configuration: an object with its settings, in any order and among
members that are no settings, or the array of its settings. -/
inductive Describes (config : Config) : Json → Prop where
  | object {members others : List (Json.Spelling × Json)}
      (unknown : ∀ member ∈ others, ∃ key, member.1 = some key ∧
        ∀ setting : Setting, key ≠ setting.key)
      (listed : members.Perm (config.members ++ others)) : Describes config (.object members)
  | array : Describes config config.toArray

/-- A value that describes a configuration is understood as that configuration. -/
theorem Describes.ofJson? {config : Config} {value : Json} (describes : config.Describes value) :
    Config.ofJson? value = some config := by
  cases describes with
  | array => exact ofJson?_toArray config
  | @object members others unknown listed =>
      have spelt : members.all (fun member => member.1.isSome) = true := by
        apply List.all_eq_true.mpr
        intro member inside
        rcases List.mem_append.mp (listed.subset inside) with known | other
        · obtain ⟨setting, -, rfl⟩ := List.mem_map.mp known
          rfl
        · obtain ⟨key, same, -⟩ := unknown member other
          rw [same]
          rfl
      have values (setting : Setting) :
          valuesOf setting.key members = [config.setting setting] := by
        have absent : valuesOf setting.key others = [] := by
          apply valuesOf_eq_nil
          intro member other same
          obtain ⟨key, named, different⟩ := unknown member other
          rw [named] at same
          exact different setting (Option.some.inj same)
        have permuted := valuesOf_perm setting.key listed
        rw [valuesOf_append, valuesOf_members, absent, List.append_nil] at permuted
        exact List.perm_singleton.mp permuted
      have once : Setting.all.all (fun setting =>
          decide ((valuesOf setting.key members).length ≤ 1)) = true := by
        apply List.all_eq_true.mpr
        intro setting _
        rw [values]
        rfl
      rw [Config.ofJson?, spelt, once, Bool.and_self, if_pos rfl, ← config?_setting]
      congr 1
      funext setting
      rw [values]
      rfl

end Config

/-! ## Paths -/

namespace Path

/-- Whether a path names no directory in front of its last step. -/
def IsBare (path : Text) : Prop :=
  ∀ directory, parent? path = some directory → directory = []

theorem trimBackwards_of_not_mem {path : Text} (absent : '/' ∉ path) :
    trimBackwards path = path := by
  fun_induction trimBackwards path with
  | case1 => rfl
  | case2 => exact absurd List.mem_cons_self absent
  | case3 => exact absurd List.mem_cons_self absent
  | case4 => exact absurd (List.mem_cons_of_mem _ List.mem_cons_self) absent
  | case5 => rfl

/-- A path without a slash names no directory. -/
theorem isBare_of_not_mem {path : Text} (absent : '/' ∉ path) : IsBare path := by
  have backwards : '/' ∉ path.reverse := by simpa using absent
  intro directory found
  rw [parent?, trimBackwards_of_not_mem backwards] at found
  split at found
  · cases found
  · cases found
  · have stepped : path.reverse.dropWhile (· != '/') = [] := by
      apply List.dropWhile_eq_nil_iff.mpr
      intro c member
      apply bne_iff_ne.mpr
      rintro rfl
      exact backwards member
    rw [stepped] at found
    cases found
    rfl

theorem join_of_isAbsolute (base : Text) {path : Text} (absolute : isAbsolute path = true) :
    join base path = path := by
  rw [join, if_pos absolute]

theorem nil_join (path : Text) : join [] path = path := by
  rw [join]
  split
  · rfl
  · rfl

end Path

/-! ## Files -/

namespace Config

/-- Source directories that do not depend on where a file is are understood as they are. -/
theorem relativeTo_eq_self {config : Config} {file : Text}
    (located : (∀ path ∈ config.paths, Path.isAbsolute path = true) ∨ Path.IsBare file) :
    config.relativeTo file = config := by
  rw [relativeTo]
  split
  · next directory found =>
      have same : config.paths.map (Path.join directory) = config.paths := by
        conv_rhs => rw [← List.map_id config.paths]
        apply List.map_congr_left
        intro path member
        rcases located with absolute | bare
        · exact Path.join_of_isAbsolute directory (absolute path member)
        · rw [bare directory found]
          exact Path.nil_join path
      rw [same]
  · rfl

theorem isPrintable_setting (config : Config) (setting : Setting) :
    (config.setting setting).IsPrintable := by
  cases setting with
  | sourcePaths | fileSuffixes | ignoredIdentifiers => exact Json.isPrintable_texts _
  | memberPrefixMarker | argumentPrefixMarker | separator | placeholder | mode =>
      exact Json.isPrintable_text _
  | camelCase => exact Json.isPrintable_bool config.camelCase

/-- What is printed for a configuration is a document that holds what describes it. -/
theorem document_toJson (config : Config) : Json.Document config.toJson config.toJson.print := by
  apply Json.IsPrintable.document
  apply Json.isPrintable_fields
  intro member listed
  obtain ⟨setting, -, rfl⟩ := List.mem_map.mp listed
  exact config.isPrintable_setting setting

theorem describes_toJson (config : Config) : config.Describes config.toJson := by
  have listed : config.members.Perm (config.members ++ []) := by rw [List.append_nil]
  rw [toJson_eq_object]
  exact .object (fun _ member => absurd member List.not_mem_nil) listed

/-- A file that holds what describes an accepted configuration is loaded as that configuration, in
whatever way it is written, if the source directories do not depend on where the file is.  What is
printed for a configuration describes it. -/
theorem load_described (config : Config) (valid : config.validate = .ok ()) :
    (config.Describes config.toJson ∧ Json.Document config.toJson config.toJson.print) ∧
    ∀ world file document value, world.content file = .ok document →
      ((∀ path ∈ config.paths, Path.isAbsolute path = true) ∨ Path.IsBare file) →
      config.Describes value → Json.Document value document →
        Config.load world file = .ok config := by
  refine ⟨⟨config.describes_toJson, config.document_toJson⟩, ?_⟩
  intro world file document value content located describes written
  have parsed : Config.parse file document = .ok config := by
    rw [parse, Json.read?_of_document written]
    simp only [Option.bind_eq_bind, Option.bind_some, describes.ofJson?,
      relativeTo_eq_self located, valid]
    rfl
  rw [load, World.read, content]
  exact parsed

/-- A tree in which a file has some text. -/
def holding (document : Text) : World where
  tree := Tree.empty.addFile [['c']] { bytes := Text.encode document }

theorem content_holding (document : Text) : (holding document).content ['c'] = .ok document := by
  have node : (holding document).nodeAt ['c'] = .ok (.file 0) := by cbv
  have bytes : ((holding document).tree.file 0).bytes = Text.encode document := rfl
  simp only [World.content, node, bytes, Text.decode?_encode, bind, Except.bind]

/-- An object with another member in front of the settings, which are listed from the last to the
first. -/
def reversed (config : Config) : Json :=
  .fields ((['x'], .texts [['"'], ['\n']]) ::
    Setting.all.reverse.map fun setting => (setting.key, config.setting setting))

theorem describes_reversed (config : Config) : config.Describes config.reversed := by
  have unknown : ∀ member ∈ [((some ['x'], .texts [['"'], ['\n']]) : Json.Spelling × Json)],
      ∃ key, member.1 = some key ∧ ∀ setting : Setting, key ≠ setting.key := by
    intro member listed
    obtain rfl := List.mem_singleton.mp listed
    exact ⟨['x'], rfl, fun setting => by cases setting <;> decide⟩
  have turned : (Setting.all.reverse.map fun setting =>
      (some setting.key, config.setting setting)).Perm config.members :=
    (List.reverse_perm Setting.all).map _
  have listed := (turned.cons (some ['x'], Json.texts [['"'], ['\n']])).trans
    (List.perm_append_singleton _ _).symm
  exact .object unknown listed

theorem isPrintable_reversed (config : Config) : config.reversed.IsPrintable := by
  apply Json.isPrintable_fields
  intro member listed
  rcases List.mem_cons.mp listed with rfl | listed
  · exact Json.isPrintable_texts _
  · obtain ⟨setting, -, rfl⟩ := List.mem_map.mp listed
    exact config.isPrintable_setting setting

/-- A file with such an object, and a source directory that is not absolute. -/
theorem load_described_reversed :
    (unfiltered [['s']] .text).validate = .ok () ∧
      Config.load (holding (unfiltered [['s']] .text).reversed.print) ['c'] =
        .ok (unfiltered [['s']] .text) := by
  have valid := validate_unfiltered [['s']] .text
  have bare : Path.IsBare ['c'] := Path.isBare_of_not_mem (by decide)
  obtain ⟨-, loads⟩ := load_described (unfiltered [['s']] .text) valid
  exact ⟨valid, loads _ _ _ _ (content_holding _) (.inr bare) (describes_reversed _)
    (isPrintable_reversed _).document⟩

end Config

end Recase
