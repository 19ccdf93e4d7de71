import Recase.Selection
import Mathlib.Data.List.Infix
import Mathlib.Tactic.ByContra

/-!
# Source directories

A selection takes the source directories one after the other.  It succeeds if all of them are
directories; otherwise it complains about the first one that is none.
-/

namespace Recase.Sources

variable {sources : Sources} {world other : World} {directory : Text} {listed files : List Text}

/-- The directories that a selection takes, in order. -/
def directories (sources : Sources) (world : World) : List Text :=
  sources.paths.map world.expand

theorem select_eq_selectAll (nonempty : sources.paths ≠ []) :
    sources.select world = sources.selectAll world (sources.directories world) := by
  rw [select, if_neg (by simpa using nonempty), directories]

theorem selectAll_cons_of_isDirectory (isDirectory : world.isDirectory directory = true)
    (others : List Text) : sources.selectAll world (directory :: others) =
      (sources.selectAll world others).map (sources.selectIn world directory ++ ·) := by
  rw [selectAll, if_pos isDirectory]
  rfl

theorem selectAll_cons_of_not_isDirectory (noDirectory : world.isDirectory directory = false)
    (others : List Text) : sources.selectAll world (directory :: others) =
      .error (.of (.sourceNotFound directory "not a directory".toList)) := by
  rw [selectAll, noDirectory, if_neg Bool.false_ne_true]

/-- Directories are taken one behind the other. -/
theorem selectAll_of_isDirectory
    (all : ∀ directory ∈ listed, world.isDirectory directory = true) :
    sources.selectAll world listed = .ok (listed.flatMap (sources.selectIn world)) := by
  induction listed with
  | nil => rfl
  | cons directory listed ih =>
      obtain ⟨first, others⟩ := List.forall_mem_cons.mp all
      rw [selectAll_cons_of_isDirectory first, ih others, List.flatMap_cons]
      rfl

/-- What is no directory is complained about, whatever comes behind it. -/
theorem selectAll_of_not_isDirectory {before : List Text}
    (all : ∀ earlier ∈ before, world.isDirectory earlier = true)
    (noDirectory : world.isDirectory directory = false) (behind : List Text) :
    sources.selectAll world (before ++ directory :: behind) =
      .error (.of (.sourceNotFound directory "not a directory".toList)) := by
  induction before with
  | nil => exact selectAll_cons_of_not_isDirectory noDirectory behind
  | cons first before ih =>
      obtain ⟨isDirectory, others⟩ := List.forall_mem_cons.mp all
      rw [List.cons_append, selectAll_cons_of_isDirectory isDirectory, ih others]
      rfl

/-- A list in which not all paths lead to directories has a first one that does not. -/
theorem exists_first_of_not_isDirectory
    (some : ¬ ∀ directory ∈ listed, world.isDirectory directory = true) :
    ∃ before directory behind, listed = before ++ directory :: behind ∧
      (∀ earlier ∈ before, world.isDirectory earlier = true) ∧
      world.isDirectory directory = false := by
  induction listed with
  | nil => exact absurd (fun _ member => absurd member List.not_mem_nil) some
  | cons first listed ih =>
      cases isDirectory : world.isDirectory first with
      | false => exact ⟨[], first, listed, rfl, by simp, isDirectory⟩
      | true =>
          have later : ¬ ∀ directory ∈ listed, world.isDirectory directory = true :=
            fun all => some (List.forall_mem_cons.mpr ⟨isDirectory, all⟩)
          obtain ⟨before, directory, behind, rfl, all, noDirectory⟩ := ih later
          exact ⟨first :: before, directory, behind, rfl,
            List.forall_mem_cons.mpr ⟨isDirectory, all⟩, noDirectory⟩

theorem exists_selectAll_iff : (∃ files, sources.selectAll world listed = .ok files) ↔
    ∀ directory ∈ listed, world.isDirectory directory = true := by
  constructor
  · rintro ⟨files, selected⟩
    by_contra some
    obtain ⟨before, directory, behind, rfl, all, noDirectory⟩ :=
      exists_first_of_not_isDirectory some
    rw [selectAll_of_not_isDirectory all noDirectory] at selected
    cases selected
  · intro all
    exact ⟨_, selectAll_of_isDirectory all⟩

theorem selectAll_eq_error_iff {error : Error} : sources.selectAll world listed = .error error ↔
    ∃ before directory behind, listed = before ++ directory :: behind ∧
      (∀ earlier ∈ before, world.isDirectory earlier = true) ∧
      world.isDirectory directory = false ∧
      error = .of (.sourceNotFound directory "not a directory".toList) := by
  constructor
  · intro failed
    have some : ¬ ∀ directory ∈ listed, world.isDirectory directory = true := by
      intro all
      rw [selectAll_of_isDirectory all] at failed
      cases failed
    obtain ⟨before, directory, behind, rfl, all, noDirectory⟩ :=
      exists_first_of_not_isDirectory some
    rw [selectAll_of_not_isDirectory all noDirectory] at failed
    cases failed
    exact ⟨before, directory, behind, rfl, all, noDirectory, rfl⟩
  · rintro ⟨before, directory, behind, rfl, all, noDirectory, rfl⟩
    exact selectAll_of_not_isDirectory all noDirectory behind

/-- A selection depends on what is a directory and on what is selected there. -/
theorem selectAll_congr
    (isDirectory : ∀ directory, world.isDirectory directory = other.isDirectory directory)
    (selectIn : ∀ directory, sources.selectIn world directory = sources.selectIn other directory)
    (listed : List Text) : sources.selectAll world listed = sources.selectAll other listed := by
  induction listed with
  | nil => rfl
  | cons directory listed ih => rw [selectAll, selectAll, ih, isDirectory, selectIn]

end Recase.Sources
