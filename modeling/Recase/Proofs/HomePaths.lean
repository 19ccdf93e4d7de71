import Recase.Proofs.Listing
import Recase.Proofs.Loading
import Recase.Proofs.Selecting
import Mathlib

/-!
# Paths in the home directory

A tilde at the front of a path stands for the home directory.  The source directories of a
configuration file are understood from the directory of the file first, which leaves no tilde at the
front unless the file is named without a directory.  So a tilde in a file elsewhere is the name of a
directory, while in the arguments it stands for the home directory.
-/

namespace Recase

/-! ## Paths with a tilde -/

namespace Path

variable {path directory entry : Text}

/-- A path that begins in the home directory: with a tilde, alone or in front of a slash. -/
inductive IsHomeRelative : Text → Prop where
  | home : IsHomeRelative ['~']
  | below (rest : Text) : IsHomeRelative ('~' :: '/' :: rest)

namespace IsHomeRelative

theorem exists_behind (relative : IsHomeRelative path) :
    ∃ behind, path = '~' :: behind ∧ ∀ home, expand (some home) path = home ++ behind := by
  cases relative with
  | home => exact ⟨[], rfl, fun home => (List.append_nil home).symm⟩
  | below rest => exact ⟨'/' :: rest, rfl, fun _ => rfl⟩

theorem length_expand (relative : IsHomeRelative path) (home : Text) :
    (expand (some home) path).length + 1 = home.length + path.length := by
  obtain ⟨behind, rfl, expanded⟩ := relative.exists_behind
  rw [expanded, List.length_append, List.length_cons, Nat.add_assoc]

theorem isAbsolute_eq_false (relative : IsHomeRelative path) : isAbsolute path = false := by
  cases relative with
  | home => rfl
  | below rest => rfl

end IsHomeRelative

theorem isHomeRelative_singleton_iff {c : Char} : IsHomeRelative [c] ↔ c = '~' := by
  constructor
  · intro relative
    cases relative
    rfl
  · rintro rfl
    exact .home

theorem isHomeRelative_cons_cons_iff {c d : Char} {rest : Text} :
    IsHomeRelative (c :: d :: rest) ↔ c = '~' ∧ d = '/' := by
  constructor
  · intro relative
    cases relative
    exact ⟨rfl, rfl⟩
  · rintro ⟨rfl, rfl⟩
    exact .below rest

theorem expand_of_not_isHomeRelative (noTilde : ¬ IsHomeRelative path) (home : Option Text) :
    expand home path = path := by
  rw [expand.eq_def]
  split
  · exact absurd .home noTilde
  · exact absurd (.below _) noTilde
  · rfl

/-- A directory as it stands in front of what is in it. -/
def asFront (directory : Text) : Text :=
  if directory.isEmpty || directory.getLast? == some '/' then directory else directory ++ ['/']

theorem join_eq_asFront_append (relative : isAbsolute path = false) :
    join directory path = asFront directory ++ path := by
  rw [join, asFront, relative, if_neg Bool.false_ne_true]
  split
  · rfl
  · rw [List.append_assoc, List.singleton_append]

theorem length_asFront_pos (nonempty : directory ≠ []) : 0 < (asFront directory).length := by
  rw [asFront]
  split
  · exact List.length_pos_iff.mpr nonempty
  · simp

/-- A tilde is at the front of a joined path if and only if it is at the front of the directory. -/
theorem isHomeRelative_join_iff (nonempty : directory ≠ []) (relative : isAbsolute path = false) :
    IsHomeRelative (join directory path) ↔ IsHomeRelative directory := by
  obtain ⟨first, rest, rfl⟩ := List.exists_cons_of_ne_nil nonempty
  rw [join_eq_asFront_append relative]
  cases rest with
  | nil =>
      by_cases slash : first = '/'
      · have front : asFront [first] = [first] := by simp [asFront, slash]
        have noTilde : first ≠ '~' := by simp [slash]
        rw [front, isHomeRelative_singleton_iff, List.singleton_append]
        refine iff_of_false (fun tilde => ?_) noTilde
        cases tilde <;> exact noTilde rfl
      · have front : asFront [first] = [first, '/'] := by simp [asFront, slash]
        rw [front, List.cons_append, List.cons_append, isHomeRelative_cons_cons_iff,
          isHomeRelative_singleton_iff]
        exact and_iff_left rfl
  | cons second rest =>
      rw [asFront, isHomeRelative_cons_cons_iff]
      split
      · rw [List.cons_append, List.cons_append, isHomeRelative_cons_cons_iff]
      · rw [List.cons_append, List.cons_append, List.cons_append, List.cons_append,
          isHomeRelative_cons_cons_iff]

/-- Understood from a directory, a path in the home directory leads there only if the directory is
not mentioned, or if the home directory happens to be what a tilde in that directory names. -/
theorem expand_join_eq_iff (home : Option Text) (directory : Text)
    (relative : IsHomeRelative entry) :
    expand home (join directory entry) = expand home entry ↔
      directory = [] ∨ ¬ IsHomeRelative directory ∧ home = some (join directory ['~']) := by
  have joined : join directory entry = asFront directory ++ entry :=
    join_eq_asFront_append relative.isAbsolute_eq_false
  by_cases nonempty : directory = []
  · rw [nonempty, nil_join]
    simp
  have longer := length_asFront_pos nonempty
  have tilde := isHomeRelative_join_iff nonempty relative.isAbsolute_eq_false
  rw [or_iff_right nonempty]
  cases home with
  | none =>
      refine iff_of_false ?_ (by simp)
      intro same
      have lengths : (join directory entry).length = entry.length := congrArg List.length same
      rw [joined, List.length_append] at lengths
      omega
  | some home =>
      by_cases front : IsHomeRelative directory
      · refine iff_of_false ?_ (by simp [front])
        intro same
        have lengths := congrArg List.length same
        have long := (tilde.mpr front).length_expand home
        have short := relative.length_expand home
        rw [joined, List.length_append] at long
        rw [joined] at lengths
        omega
      · rw [expand_of_not_isHomeRelative (mt tilde.mp front), joined]
        obtain ⟨behind, rfl, expanded⟩ := relative.exists_behind
        have tilde : join directory ['~'] = asFront directory ++ ['~'] :=
          join_eq_asFront_append rfl
        rw [expanded, tilde, and_iff_right front, Option.some.injEq, ← List.singleton_append,
          ← List.append_assoc, List.append_left_inj]
        exact eq_comm

end Path

/-! ## Source directories of files and of arguments -/

/-- A source directory that a file names, understood from the directory of the file. -/
def Path.fromFile (file entry : Text) : Text :=
  match parent? file with
  | some directory => join directory entry
  | none => entry

/-- A path in the home directory leads there from a file just in case the file is named without a
directory, or the home directory happens to be what a tilde next to the file names. -/
theorem Path.expand_fromFile_eq_iff (home : Option Text) (file : Text) {entry : Text}
    (relative : IsHomeRelative entry) :
    expand home (fromFile file entry) = expand home entry ↔
      IsBare file ∨ ∃ directory, parent? file = some directory ∧
        ¬ IsHomeRelative directory ∧ home = some (join directory ['~']) := by
  rw [fromFile, IsBare]
  cases parent? file with
  | none => simp
  | some directory => simp [expand_join_eq_iff home directory relative]

namespace Config

variable {world : World} {file : Text} {written : Config}

/-- The configuration that is written in a file, its source directories as they are written. -/
def written? (world : World) (file : Text) : Option Config :=
  match world.content file with
  | .ok content => Json.read? content >>= ofJson?
  | .error _ => none

theorem written?_of_describes {document : Text} {value : Json}
    (content : world.content file = .ok document) (describes : written.Describes value)
    (printed : Json.Document value document) : written? world file = some written := by
  rw [written?, content]
  simp only [Json.read?_of_document printed, Option.bind_eq_bind, Option.bind_some,
    describes.ofJson?]

theorem paths_relativeTo (config : Config) (file : Text) :
    (config.relativeTo file).paths = config.paths.map (Path.fromFile file) := by
  unfold relativeTo Path.fromFile
  cases Path.parent? file with
  | none => exact (List.map_id config.paths).symm
  | some directory => rfl

theorem validate_relativeTo (config : Config) (file : Text) :
    (config.relativeTo file).validate = config.validate := by
  rw [relativeTo]
  split
  · rfl
  · rfl

/-- An accepted configuration is loaded with its source directories understood from the directory of
the file. -/
theorem load_of_written? (reads : written? world file = some written)
    (valid : written.validate = .ok ()) :
    Config.load world file = .ok (written.relativeTo file) := by
  rw [written?] at reads
  split at reads
  · next document content =>
      have parsed : parse file document = .ok (written.relativeTo file) := by
        rw [parse, reads]
        simp only [validate_relativeTo, valid]
        rfl
      rw [load, World.read, content]
      exact parsed
  · cases reads

theorem paths_of_resolve {config : Config} {arguments : ConfigArguments} {paths : List Text}
    (resolved : arguments.resolve paths world = .ok config) (nonempty : paths ≠ []) :
    config.paths = paths := by
  obtain ⟨base, mode, -, -, rfl, -⟩ := ConfigArguments.resolve_eq_ok_iff.mp resolved
  rw [ConfigArguments.applyTo, if_neg (by simpa using nonempty)]

/-- A source directory in the home directory that a file names is looked for in the directory of
the file, with a tilde for its name.  It is the directory that the same path stands for in the
arguments just in case the file is named without a directory, or the home directory happens to be
what a tilde next to the file names. -/
theorem load_homeRelative {world : World} {file : Text} {written : Config}
    (reads : written? world file = some written) (valid : written.validate = .ok ()) :
    ∃ loaded, Config.load world file = .ok loaded ∧
      ∀ (index : Nat) (entry : Text),
        written.paths[index]? = some entry → Path.IsHomeRelative entry →
        loaded.select world = loaded.selectAll world (loaded.directories world) ∧
        (∃ opened, (loaded.directories world)[index]? = some opened ∧
          opened = world.expand (Path.fromFile file entry) ∧
          (opened = world.expand entry ↔
            Path.IsBare file ∨ ∃ directory, Path.parent? file = some directory ∧
              ¬ Path.IsHomeRelative directory ∧
              world.home = some (Path.join directory ['~']))) ∧
        ∀ (arguments : ConfigArguments) (paths : List Text) (config : Config),
          arguments.resolve paths world = .ok config →
            ∀ place : Nat, paths[place]? = some entry →
              config.select world = config.selectAll world (config.directories world) ∧
              (config.directories world)[place]? = some (world.expand entry) := by
  refine ⟨written.relativeTo file, load_of_written? reads valid, ?_⟩
  intro index entry listed relative
  have understood : (written.relativeTo file).paths[index]? = some (Path.fromFile file entry) := by
    rw [paths_relativeTo, List.getElem?_map, listed]
    rfl
  refine ⟨?_, ⟨world.expand (Path.fromFile file entry), ?_, rfl, ?_⟩, ?_⟩
  · apply Sources.select_eq_selectAll
    exact List.ne_nil_of_mem (List.mem_of_getElem? understood)
  · rw [Sources.directories, List.getElem?_map, understood]
    rfl
  · exact Path.expand_fromFile_eq_iff world.home file relative
  · intro arguments paths config resolved place given
    have nonempty : paths ≠ [] := List.ne_nil_of_mem (List.mem_of_getElem? given)
    have taken := paths_of_resolve resolved nonempty
    constructor
    · exact Sources.select_eq_selectAll (by rwa [taken])
    · rw [Sources.directories, taken, List.getElem?_map, given]
      rfl

/-- A configuration that names the home directory. -/
def atHome : Config :=
  unfiltered [['~']] .lexical

/-- A tree in which a file and another one in a directory have the same text, and a home directory
with a header. -/
def twoPlaces (document : Text) : World where
  tree := ((((Tree.empty.addFile [['c']] { bytes := Text.encode document }).set [['d']]
    .directory).addFile [['d'], ['c']] { bytes := Text.encode document }).set [['h']]
    .directory).addFile [['h'], ['a', '.', 'h']] {}
  home := some ['/', 'h']

theorem content_twoPlaces (document : Text) {file : Text}
    (place : file = ['c'] ∨ file = ['d', '/', 'c']) :
    (twoPlaces document).content file = .ok document := by
  rcases place with rfl | rfl
  · have node : (twoPlaces document).nodeAt ['c'] = .ok (.file 0) := by cbv
    have bytes : ((twoPlaces document).tree.file 0).bytes = Text.encode document := rfl
    simp only [World.content, node, bytes, Text.decode?_encode, bind, Except.bind]
  · have node : (twoPlaces document).nodeAt ['d', '/', 'c'] = .ok (.file 1) := by cbv
    have bytes : ((twoPlaces document).tree.file 1).bytes = Text.encode document := rfl
    simp only [World.content, node, bytes, Text.decode?_encode, bind, Except.bind]

theorem written?_twoPlaces {file : Text} (place : file = ['c'] ∨ file = ['d', '/', 'c']) :
    written? (twoPlaces atHome.toJson.print) file = some atHome :=
  written?_of_describes (content_twoPlaces _ place) atHome.describes_toJson atHome.document_toJson

/-- The file that is named without a directory means the home directory. -/
theorem load_homeRelative_bare :
    written? (twoPlaces atHome.toJson.print) ['c'] = some atHome ∧ atHome.validate = .ok () ∧
      ∃ loaded, Config.load (twoPlaces atHome.toJson.print) ['c'] = .ok loaded ∧
        (loaded.directories (twoPlaces atHome.toJson.print))[0]? = some ['/', 'h'] := by
  have reads : written? (twoPlaces atHome.toJson.print) ['c'] = some atHome :=
    written?_twoPlaces (.inl rfl)
  have valid : atHome.validate = .ok () := validate_unfiltered [['~']] .lexical
  have bare : Path.IsBare ['c'] := Path.isBare_of_not_mem (by decide)
  obtain ⟨loaded, loads, entries⟩ := load_homeRelative reads valid
  obtain ⟨-, ⟨opened, found, -, same⟩, -⟩ := entries 0 ['~'] rfl .home
  refine ⟨reads, valid, loaded, loads, ?_⟩
  rw [found, same.mpr (.inl bare)]
  rfl

/-- The file in a directory means a tilde in that directory, which is not there, while the same path
in the arguments means the home directory. -/
theorem load_homeRelative_directory :
    ∃ loaded config,
      Config.load (twoPlaces atHome.toJson.print) ['d', '/', 'c'] = .ok loaded ∧
      loaded.select (twoPlaces atHome.toJson.print) =
        .error (.of (.sourceNotFound ['d', '/', '~'] "not a directory".toList)) ∧
      ConfigArguments.resolve { file := some ['d', '/', 'c'] } [['~']]
        (twoPlaces atHome.toJson.print) = .ok config ∧
      config.select (twoPlaces atHome.toJson.print) = .ok [['/', 'h', '/', 'a', '.', 'h']] := by
  have reads : written? (twoPlaces atHome.toJson.print) ['d', '/', 'c'] = some atHome :=
    written?_twoPlaces (.inr rfl)
  have valid : atHome.validate = .ok () := validate_unfiltered [['~']] .lexical
  have loads := load_of_written? reads valid
  have noDirectory (document : Text) :
      (twoPlaces document).isDirectory ['d', '/', '~'] = false := by
    cbv
  have files (document : Text) : (unfiltered [['~']] .lexical).select (twoPlaces document) =
      .ok [['/', 'h', '/', 'a', '.', 'h']] := by
    cbv
  have resolved : ConfigArguments.resolve { file := some ['d', '/', 'c'] } [['~']]
      (twoPlaces atHome.toJson.print) = .ok atHome :=
    ConfigArguments.resolve_eq_ok_iff.mpr ⟨_, .lexical, loads, rfl, rfl, valid⟩
  refine ⟨_, _, loads, ?_, resolved, files _⟩
  rw [Sources.select_eq_selectAll (by decide)]
  exact Sources.selectAll_cons_of_not_isDirectory (noDirectory _) []

end Config

end Recase
