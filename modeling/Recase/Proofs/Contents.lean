import Recase.World

/-!
# Contents of files

Which file a path leads to depends on the nodes of a tree and not on what is in its files.  So a
file that gets other bytes is found where it was, and so are all others; and a write at a path
changes just the file that a look at the path has found.
-/

namespace Recase

/-! ## Paths do not depend on contents -/

namespace Tree

variable {left right : Tree}

theorem node?_eq_of_entries (same : left.entries = right.entries) : left.node? = right.node? := by
  funext location
  rw [node?, node?, same]

theorem walk_eq_of_node? (same : left.node? = right.node?) (purpose : Purpose)
    (follow : Location → List Path.Step → Except FileError Location) (directory : Location)
    (steps : List Path.Step) :
    left.walk purpose follow directory steps = right.walk purpose follow directory steps := by
  induction steps generalizing directory with
  | nil => rfl
  | cons step steps ih =>
      cases step with
      | slash => exact ih directory
      | stay => exact ih directory
      | up => exact ih directory.dropLast
      | down name => simp only [walk, same, ih]

theorem walkThrough_eq_of_node? (same : left.node? = right.node?) (purpose : Purpose)
    (links : Nat) : left.walkThrough purpose links = right.walkThrough purpose links := by
  induction links with
  | zero =>
      funext directory steps
      exact walk_eq_of_node? same purpose _ directory steps
  | succ links ih =>
      funext directory steps
      rw [walkThrough, walkThrough, ih]
      exact walk_eq_of_node? same purpose _ directory steps

theorem follow_eq_of_node? (same : left.node? = right.node?) (purpose : Purpose)
    (directory : Location) (path : Text) :
    left.follow purpose directory path = right.follow purpose directory path := by
  rw [follow, follow, walkThrough_eq_of_node? same]

theorem nodeAt_eq_of_node? (same : left.node? = right.node?) (directory : Location)
    (path : Text) : left.nodeAt directory path = right.nodeAt directory path := by
  rw [nodeAt, nodeAt, locate, locate, follow_eq_of_node? same, same]

theorem nodeAt_eq_of_entries (same : left.entries = right.entries) (directory : Location)
    (path : Text) : left.nodeAt directory path = right.nodeAt directory path :=
  nodeAt_eq_of_node? (node?_eq_of_entries same) directory path

theorem locateForWriting_eq_of_entries (same : left.entries = right.entries) (directory : Location)
    (path : Text) :
    left.locateForWriting directory path = right.locateForWriting directory path := by
  have alike := node?_eq_of_entries same
  rw [locateForWriting, locateForWriting, follow_eq_of_node? alike, alike]

/-! ## A write goes where a look leads -/

variable {tree : Tree}

theorem walk_look_of_write
    {write look : Location → List Path.Step → Except FileError Location}
    (follows : ∀ directory steps location, write directory steps = .ok location →
      look directory steps = .ok location)
    {directory location : Location} {steps : List Path.Step}
    (found : tree.walk .write write directory steps = .ok location) :
    tree.walk .look look directory steps = .ok location := by
  induction steps generalizing directory with
  | nil => exact found
  | cons step steps ih =>
      cases step with
      | slash => exact ih found
      | stay => exact ih found
      | up => exact ih found
      | down name =>
          have lookNotWrite : ¬ (Purpose.look = .write ∧ Path.onlySlashes steps = true) := by simp
          simp only [walk] at found ⊢
          rw [if_neg lookNotWrite]
          split at found
          · cases found
          · split at found
            · cases found
            · next short =>
                rw [if_neg short]
                split at found
                · exact ih found
                · exact found
                · exact found
                · exact follows _ _ _ found
                · exact found

theorem walkThrough_look_of_write (links : Nat) (directory : Location) (steps : List Path.Step)
    (location : Location) (found : tree.walkThrough .write links directory steps = .ok location) :
    tree.walkThrough .look links directory steps = .ok location := by
  induction links generalizing directory steps location with
  | zero => exact walk_look_of_write (fun _ _ _ impossible => by cases impossible) found
  | succ links ih => exact walk_look_of_write ih found

/-- A path leads to the place where a file would be written, if one can be. -/
theorem locate_of_locateForWriting {directory location : Location} {path : Text}
    (found : tree.locateForWriting directory path = .ok location) :
    tree.locate directory path = .ok location := by
  rw [locateForWriting] at found
  cases followed : tree.follow .write directory path with
  | error error =>
      rw [followed] at found
      cases found
  | ok place =>
      have same : place = location := by
        rw [followed] at found
        simp only [bind, Except.bind] at found
        split at found
        · cases found
        · exact Except.ok.inj found
      subst same
      rw [follow] at followed
      split at followed
      · cases followed
      · next noZero =>
          split at followed
          · cases followed
          · next nonempty =>
              split at followed
              · cases followed
              · next short =>
                  rw [locate, follow, if_neg noZero, if_neg nonempty, if_neg short]
                  exact walkThrough_look_of_write _ _ _ _ followed

/-! ## Changing a file -/

/-- A change to one file leaves the others alone. -/
theorem file_updateFile_of_ne {number other : Nat} (different : other ≠ number)
    (change : File → File) : (tree.updateFile number change).file other = tree.file other := by
  simp [file, updateFile, Array.getElem?_modify, different.symm]

/-- A file is as the change leaves it, if there is one with the number. -/
theorem file_updateFile_self {number : Nat} (used : number < tree.files.size)
    (change : File → File) :
    (tree.updateFile number change).file number = change (tree.file number) := by
  simp [file, updateFile, used, Array.getElem_modify_self]

/-- A change that leaves a file as it is changes nothing. -/
theorem updateFile_eq_self {number : Nat} {change : File → File}
    (same : change (tree.file number) = tree.file number) :
    tree.updateFile number change = tree := by
  have files : tree.files.modify number change = tree.files := by
    apply Array.ext
    · simp
    · intro index bound used
      rw [Array.getElem_modify]
      split
      · next equal =>
          subst equal
          simpa [file, used] using same
      · rfl
  rw [updateFile, files]

end Tree

namespace World

variable (world : World)

/-- The number of the regular file that a path leads to. -/
def fileNumber? (path : Text) : Option Nat :=
  match world.nodeAt path with
  | .ok (.file number) => some number
  | _ => none

/-- What is in the regular file that a path leads to. -/
def bytes (path : Text) : ByteArray :=
  match world.fileNumber? path with
  | some number => (world.tree.file number).bytes
  | none => .empty

/-- Whether a file can be written at a path. -/
def CanWrite (path : Text) : Prop :=
  ∃ location, world.tree.locateForWriting world.here path = .ok location

/-- The surroundings with other bytes in one file. -/
def withBytes (number : Nat) (bytes : ByteArray) : World :=
  { world with tree := world.tree.updateFile number ({ · with bytes }) }

/-- Surroundings in which every path leads to the same node. -/
structure SamePlaces (before after : World) : Prop where
  entries : after.tree.entries = before.tree.entries
  here : after.here = before.here
  home : after.home = before.home

namespace SamePlaces

variable {world} {after last : World}

theorem refl (world : World) : SamePlaces world world :=
  ⟨rfl, rfl, rfl⟩

theorem trans (first : SamePlaces world after) (second : SamePlaces after last) :
    SamePlaces world last :=
  ⟨second.entries.trans first.entries, second.here.trans first.here, second.home.trans first.home⟩

theorem withBytes (world : World) (number : Nat) (bytes : ByteArray) :
    SamePlaces world (world.withBytes number bytes) :=
  ⟨rfl, rfl, rfl⟩

theorem nodeAt (same : SamePlaces world after) (path : Text) :
    after.nodeAt path = world.nodeAt path := by
  rw [World.nodeAt, World.nodeAt, same.here, Tree.nodeAt_eq_of_entries same.entries]

theorem fileNumber? (same : SamePlaces world after) (path : Text) :
    after.fileNumber? path = world.fileNumber? path := by
  rw [World.fileNumber?, World.fileNumber?, same.nodeAt]

theorem canWrite (same : SamePlaces world after) {path : Text} (writable : world.CanWrite path) :
    after.CanWrite path := by
  obtain ⟨location, found⟩ := writable
  refine ⟨location, ?_⟩
  rwa [same.here, Tree.locateForWriting_eq_of_entries same.entries]

end SamePlaces

variable {world} {path : Text} {number : Nat}

theorem exists_fileNumber?_of_isFile (isFile : world.isFile path = true) :
    ∃ number, world.fileNumber? path = some number := by
  rw [World.isFile] at isFile
  split at isFile
  · next number found => exact ⟨number, by rw [fileNumber?, found]⟩
  · cases isFile

theorem nodeAt_of_fileNumber? (regular : world.fileNumber? path = some number) :
    world.nodeAt path = .ok (.file number) := by
  rw [fileNumber?] at regular
  split at regular
  · next found =>
      cases regular
      exact found
  · cases regular

theorem bytes_of_fileNumber? (regular : world.fileNumber? path = some number) :
    world.bytes path = (world.tree.file number).bytes := by
  rw [bytes, regular]

/-- The bytes of a regular file are read as UTF-8. -/
theorem content_of_fileNumber? (regular : world.fileNumber? path = some number) :
    world.content path =
      match Text.decode? (world.bytes path) with
      | some text => .ok text
      | none => .error .notText := by
  rw [content, nodeAt_of_fileNumber? regular, bytes_of_fileNumber? regular]
  rfl

/-- A write changes just the bytes of the file that the path leads to. -/
theorem store_of_fileNumber? (regular : world.fileNumber? path = some number)
    (writable : world.CanWrite path) (text : Text) :
    world.store path text = .ok (world.withBytes number (Text.encode text)) := by
  obtain ⟨location, found⟩ := writable
  have node : world.tree.node? location = some (.file number) := by
    have looked := nodeAt_of_fileNumber? regular
    rw [nodeAt, Tree.nodeAt, Tree.locate_of_locateForWriting found] at looked
    simp only [bind, Except.bind] at looked
    split at looked
    · next node same =>
        cases looked
        exact same
    · cases looked
  rw [store, found]
  simp only [bind, Except.bind, Tree.store, node, withBytes]

theorem file_withBytes_of_ne {other : Nat} (different : other ≠ number) (bytes : ByteArray) :
    (world.withBytes number bytes).tree.file other = world.tree.file other :=
  Tree.file_updateFile_of_ne different _

/-- A file has the bytes that it was given.  Nothing can be in a file that is not there. -/
theorem bytes_withBytes {bytes : ByteArray}
    (used : number < world.tree.files.size ∨ bytes = .empty) :
    ((world.withBytes number bytes).tree.file number).bytes = bytes := by
  by_cases bound : number < world.tree.files.size
  · rw [withBytes, Tree.file_updateFile_self bound]
  · rw [used.resolve_left bound]
    simp [withBytes, Tree.file, Tree.updateFile, bound]

/-- A file that gets the bytes that it has stays as it is. -/
theorem withBytes_eq_self (world : World) (number : Nat) :
    world.withBytes number (world.tree.file number).bytes = world := by
  rw [withBytes, Tree.updateFile_eq_self rfl]

end World

end Recase
