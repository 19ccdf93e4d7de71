import Recase.Proofs.ByteOrder
import Recase.Proofs.Directories
import Recase.Proofs.Entries
import Recase.Proofs.Visits
import Mathlib

/-!
# Selections

A selection takes the directories one after the other, and of each directory the entries that lead
to regular files and whose names have one of the endings, in the order of their names.  It does not
matter in which order the entries of a directory are listed.  The first of the directories that is
none is the one that is complained about.
-/

namespace Recase

/-! ## Entries -/

namespace Tree

variable {left right tree : Tree} {location : Location} {node : Node}

theorem find_eq_some_iff {entries : List (Location × Node)}
    (distinct : (entries.map Prod.fst).Nodup) :
    find location entries = some node ↔ (location, node) ∈ entries := by
  induction entries with
  | nil => simp [find]
  | cons entry entries ih =>
      obtain ⟨other, first⟩ := entry
      rw [List.map_cons, List.nodup_cons] at distinct
      obtain ⟨fresh, distinct⟩ := distinct
      rw [find, List.mem_cons]
      by_cases same : location = other
      · subst same
        have absent : (location, node) ∉ entries :=
          fun member => fresh (List.mem_map.mpr ⟨_, member, rfl⟩)
        simp [absent, eq_comm]
      · simp [same, ih distinct]

/-- The order of the entries makes no difference to what is where. -/
theorem node?_eq_of_perm (same : left.entries.Perm right.entries) : left.node? = right.node? := by
  funext location
  rw [node?, node?]
  split
  · rfl
  · apply Option.ext
    intro node
    rw [find_eq_some_iff left.distinct, find_eq_some_iff right.distinct]
    exact same.mem_iff

/-- The names of a directory are those under which something is in it. -/
theorem mem_names_iff {name : Text} :
    name ∈ tree.names location ↔ ∃ node, tree.node? (location ++ [name]) = some node := by
  have inside : location ++ [name] ≠ [] := by simp
  simp only [node?, if_neg inside, find_eq_some_iff tree.distinct, names, List.mem_filterMap]
  constructor
  · rintro ⟨⟨other, node⟩, member, found⟩
    rw [Option.ite_none_right_eq_some] at found
    obtain ⟨rfl, last⟩ := found
    rw [List.dropLast_append_getLast? name last]
    exact ⟨node, member⟩
  · rintro ⟨node, member⟩
    exact ⟨_, member, by simp⟩

end Tree

/-! ## Names in order -/

namespace Names

theorem mem_toList_ofList {names : List Text} {name : Text} :
    name ∈ (ofList names).toList ↔ name ∈ names := by
  constructor
  · exact mem_of_mem_toList_ofList
  · intro member
    rw [toList, Index.mem_keys_iff, Option.isSome_iff_ne_none, ofList, Index.get?_ofList,
      Index.find_ne_none_iff]
    exact ⟨(name, ()), List.mem_map_of_mem member, rfl⟩

theorem pairwise_toList (names : Names) : names.toList.Pairwise (· < ·) :=
  List.pairwise_map.mpr names.ascending

end Names

/-! ## What is taken -/

namespace Sources

variable {sources : Sources} {world : World} {directory name : Text}

/-- A name in a directory is taken: it is the name of an entry, the entry leads to a regular file,
and the name has one of the endings. -/
structure Takes (sources : Sources) (world : World) (directory name : Text) : Prop where
  entry : ∃ location node, world.tree.locate world.here directory = .ok location ∧
    world.tree.node? (location ++ [name]) = some node
  file : ∃ number, world.nodeAt (Path.join directory name) = .ok (.file number)
  ending : ∃ suffix ∈ sources.suffixes, suffix ≠ [] ∧ suffix <:+ name

/-- A list holds the names that are taken in a directory, in ascending order of their bytes, so that
none of them occurs twice. -/
structure Lists (sources : Sources) (world : World) (directory : Text) (names : List Text) :
    Prop where
  ascending : names.Pairwise fun left right =>
    (Text.encode left).data.toList < (Text.encode right).data.toList
  members : ∀ name, name ∈ names ↔ sources.Takes world directory name

/-- No two lists hold the names that are taken in a directory. -/
theorem Lists.unique {names others : List Text} (lists : sources.Lists world directory names)
    (listsToo : sources.Lists world directory others) : names = others := by
  have ascending : names.Pairwise (· < ·) :=
    lists.ascending.imp fun less => Text.encode_lt_encode_iff.mp less
  have ascendingToo : others.Pairwise (· < ·) :=
    listsToo.ascending.imp fun less => Text.encode_lt_encode_iff.mp less
  apply ascending.eq_of_mem_iff ascendingToo
  intro name
  rw [lists.members, listsToo.members]

theorem matchesName_iff :
    sources.matchesName name = true ↔
      ∃ suffix ∈ sources.suffixes, suffix ≠ [] ∧ suffix <:+ name := by
  simp [matchesName]

end Sources

theorem World.isFile_iff {world : World} {path : Text} :
    world.isFile path = true ↔ ∃ number, world.nodeAt path = .ok (.file number) := by
  rw [isFile]
  split
  · next number found => simp [found]
  · next other =>
      refine iff_of_false Bool.false_ne_true ?_
      rintro ⟨number, found⟩
      exact other number found

theorem World.mem_names_iff {world : World} {directory name : Text} :
    name ∈ world.names directory ↔ ∃ location node,
      world.tree.locate world.here directory = .ok location ∧
        world.tree.node? (location ++ [name]) = some node := by
  rw [names]
  cases world.tree.locate world.here directory with
  | error error => simp
  | ok location => simp [Tree.mem_names_iff]

namespace Sources

variable {sources : Sources} {world : World} {directory : Text} {listed files : List Text}

/-- The names that are taken in a directory. -/
def taken (sources : Sources) (world : World) (directory : Text) : List Text :=
  (Names.ofList ((world.names directory).filter fun name =>
    sources.matchesName name && world.isFile (Path.join directory name))).toList

theorem selectIn_eq_map (sources : Sources) (world : World) (directory : Text) :
    sources.selectIn world directory =
      (sources.taken world directory).map (Path.join directory) := rfl

theorem lists_taken (sources : Sources) (world : World) (directory : Text) :
    sources.Lists world directory (sources.taken world directory) := by
  constructor
  · exact (Names.pairwise_toList _).imp fun less => Text.encode_lt_encode_iff.mpr less
  · intro name
    rw [taken, Names.mem_toList_ofList, List.mem_filter, Bool.and_eq_true, World.mem_names_iff,
      matchesName_iff, World.isFile_iff]
    constructor
    · rintro ⟨entry, ending, file⟩
      exact ⟨entry, file, ending⟩
    · rintro ⟨entry, file, ending⟩
      exact ⟨entry, ending, file⟩

/-! ## Selections -/

/-- What is selected is what the names that are taken make up. -/
theorem selectAll_eq_ok_iff : sources.selectAll world listed = .ok files ↔
    (∀ directory ∈ listed, world.isDirectory directory = true) ∧
      ∃ names : Text → List Text,
        (∀ directory, sources.Lists world directory (names directory)) ∧
        files = listed.flatMap fun directory => (names directory).map (Path.join directory) := by
  constructor
  · intro selected
    have all := exists_selectAll_iff.mp ⟨files, selected⟩
    rw [selectAll_of_isDirectory all] at selected
    cases selected
    exact ⟨all, sources.taken world, sources.lists_taken world, rfl⟩
  · rintro ⟨all, names, lists, rfl⟩
    have same : names = sources.taken world :=
      funext fun directory => (lists directory).unique (sources.lists_taken world directory)
    rw [selectAll_of_isDirectory all, same]
    rfl

/-! ## The order of entries -/

section Order

variable {tree : Tree}

theorem takes_of_node? (same : tree.node? = world.tree.node?) (directory name : Text) :
    sources.Takes { world with tree } directory name ↔ sources.Takes world directory name := by
  have located : tree.locate world.here directory = world.tree.locate world.here directory :=
    Tree.follow_eq_of_node? same .look world.here directory
  have leads : ({ world with tree } : World).nodeAt (Path.join directory name) =
      world.nodeAt (Path.join directory name) :=
    Tree.nodeAt_eq_of_node? same world.here _
  constructor
  · rintro ⟨⟨location, node, found, there⟩, file, ending⟩
    exact ⟨⟨location, node, located ▸ found, same ▸ there⟩, leads ▸ file, ending⟩
  · rintro ⟨⟨location, node, found, there⟩, file, ending⟩
    exact ⟨⟨location, node, located ▸ found, same ▸ there⟩, leads ▸ file, ending⟩

theorem taken_of_node? (same : tree.node? = world.tree.node?) (directory : Text) :
    sources.taken { world with tree } directory = sources.taken world directory := by
  have lists := sources.lists_taken { world with tree } directory
  have listsToo : sources.Lists world directory (sources.taken { world with tree } directory) := by
    refine ⟨lists.ascending, fun name => ?_⟩
    rw [lists.members, takes_of_node? same]
  exact listsToo.unique (sources.lists_taken world directory)

/-- A selection depends on nothing but what is where. -/
theorem selectAll_of_node? (same : tree.node? = world.tree.node?) (listed : List Text) :
    sources.selectAll { world with tree } listed = sources.selectAll world listed := by
  apply selectAll_congr
  · intro directory
    have leads : ({ world with tree } : World).nodeAt directory = world.nodeAt directory :=
      Tree.nodeAt_eq_of_node? same world.here directory
    rw [World.isDirectory, World.isDirectory, leads]
  · intro directory
    rw [selectIn_eq_map, selectIn_eq_map, taken_of_node? same]

end Order

/-- A selection succeeds just in case all paths lead to directories.  It is made up of the
directories in their order, each of them with the names that are taken in it, ascending and without
repetition.  Otherwise the first path that leads to no directory is complained about.  The order in
which a directory lists its entries makes no difference.  An entry leads where its name leads from
inside the directory, with as many links as the path to the directory has left, and to itself if it
is no link. -/
theorem select_exact (sources : Sources) (nonempty : sources.paths ≠ []) (world : World) :
    ((∃ files, sources.select world = .ok files) ↔
      ∀ directory ∈ sources.directories world, world.isDirectory directory = true) ∧
    (∀ files, sources.select world = .ok files ↔
      (∀ directory ∈ sources.directories world, world.isDirectory directory = true) ∧
        ∃ names : Text → List Text,
          (∀ directory, sources.Lists world directory (names directory)) ∧
          files = (sources.directories world).flatMap fun directory =>
            (names directory).map (Path.join directory)) ∧
    (∀ error, sources.select world = .error error ↔
      ∃ before directory behind, sources.directories world = before ++ directory :: behind ∧
        (∀ earlier ∈ before, world.isDirectory earlier = true) ∧
        world.isDirectory directory = false ∧
        error = .of (.sourceNotFound directory "not a directory".toList)) ∧
    (∀ tree : Tree, tree.entries.Perm world.tree.entries →
      sources.select { world with tree } = sources.select world) ∧
    ∀ directory location name, world.tree.locate world.here directory = .ok location →
      world.tree.node? location = some .directory → Path.IsEntryName name →
      Text.byteCount (Path.join directory name) ≤ Tree.maxPathBytes →
        (∃ left ≤ Tree.maxLinks, world.tree.locate world.here (Path.join directory name) =
          world.tree.walkThrough .look left location [.down name]) ∧
        ∀ node, world.tree.node? (location ++ [name]) = some node →
          (∀ target, node ≠ .link target) →
            world.nodeAt (Path.join directory name) = .ok node := by
  rw [select_eq_selectAll nonempty]
  refine ⟨exists_selectAll_iff, fun _ => selectAll_eq_ok_iff, fun _ => selectAll_eq_error_iff,
    ?_, ?_⟩
  · intro tree same
    rw [select_eq_selectAll nonempty]
    exact selectAll_of_node? (Tree.node?_eq_of_perm same) _
  · intro directory location name found isDirectory isName short
    constructor
    · exact Tree.exists_locate_join found isDirectory isName short
    · intro node there noLink
      exact Tree.nodeAt_join found isDirectory isName short there noLink

/-- A directory with a header, a link to it, a directory that is named like a header, and a file
with another ending. -/
def mixed : World where
  tree := ((((Tree.empty.set [['s']] .directory).set [['s'], ['c', '.', 'h']] .directory).addFile
    [['s'], ['b', '.', 'h']] {}).set [['s'], ['a', '.', 'h']] (.link ['b', '.', 'h'])).addFile
    [['s'], ['d']] {}

/-- The header and the link to it are taken. -/
theorem select_exact_mixed :
    (Config.unfiltered [['s']] .lexical).paths ≠ [] ∧
      (Config.unfiltered [['s']] .lexical).select mixed =
        .ok [['s', '/', 'a', '.', 'h'], ['s', '/', 'b', '.', 'h']] ∧
      (∃ names : Text → List Text,
        (∀ directory, (Config.unfiltered [['s']] .lexical).Lists mixed directory
          (names directory)) ∧
        [['s', '/', 'a', '.', 'h'], ['s', '/', 'b', '.', 'h']] =
          [['s']].flatMap fun directory => (names directory).map (Path.join directory)) ∧
      ∀ tree : Tree, tree.entries.Perm mixed.tree.entries →
        (Config.unfiltered [['s']] .lexical).select { mixed with tree } =
          .ok [['s', '/', 'a', '.', 'h'], ['s', '/', 'b', '.', 'h']] := by
  have nonempty : (Config.unfiltered [['s']] .lexical).paths ≠ [] := by decide
  have selected : (Config.unfiltered [['s']] .lexical).select mixed =
      .ok [['s', '/', 'a', '.', 'h'], ['s', '/', 'b', '.', 'h']] := by
    cbv
  obtain ⟨-, exactly, -, order, -⟩ :=
    select_exact (Config.unfiltered [['s']] .lexical).toSources nonempty mixed
  obtain ⟨-, names, lists, files⟩ := (exactly _).mp selected
  refine ⟨nonempty, selected, ⟨names, lists, files⟩, ?_⟩
  intro tree same
  rw [order tree same, selected]

end Sources

end Recase
