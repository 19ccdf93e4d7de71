import Recase.Proofs.Contents
import Recase.Proofs.Cutting
import Mathlib

/-!
# Entries of directories

The path to an entry of a directory is the path to the directory and the name of the entry.  It
leads where the name alone leads from inside the directory, with as many symbolic links as the path
to the directory leaves.
-/

namespace Recase

/-! ## Walks that go on -/

namespace Tree

variable {tree : Tree} {start location : Location} {steps more : List Path.Step}

/-- A look at a name, whatever is behind it. -/
theorem walk_look_down {follow : Location → List Path.Step → Except FileError Location}
    (directory : Location) (name : Text) (steps : List Path.Step) :
    tree.walk .look follow directory (.down name :: steps) =
      if maxNameBytes < Text.byteCount name then .error .nameTooLong
      else
        match tree.node? (directory ++ [name]) with
        | some .directory => tree.walk .look follow (directory ++ [name]) steps
        | some (.file _) | some .device =>
          if steps = [] then .ok (directory ++ [name]) else .error .notADirectory
        | some (.link target) =>
          follow (if Path.isAbsolute target then [] else directory) (Path.steps target ++ steps)
        | none => if steps = [] then .ok (directory ++ [name]) else .error .notFound := by
  have noWrite : ¬ (Purpose.look = .write ∧ Path.onlySlashes steps = true) := by simp
  rw [walk]
  exact if_neg noWrite

/-- A walk that goes on behind a directory, if that is said of walks through links. -/
theorem walk_append {follow : Location → List Path.Step → Except FileError Location}
    (goesOn : Location → Except FileError Location → Prop)
    (atEnd : ∀ location, goesOn location (tree.walk .look follow location more))
    (follows : ∀ start steps location, follow start steps = .ok location →
      tree.node? location = some .directory → goesOn location (follow start (steps ++ more)))
    (isDirectory : tree.node? location = some .directory)
    (found : tree.walk .look follow start steps = .ok location) :
    goesOn location (tree.walk .look follow start (steps ++ more)) := by
  induction steps generalizing start with
  | nil =>
      cases found
      exact atEnd location
  | cons step steps ih =>
      cases step with
      | slash => exact ih found
      | stay => exact ih found
      | up => exact ih found
      | down name =>
          rw [walk_look_down] at found
          rw [List.cons_append, walk_look_down]
          split at found
          · cases found
          next short =>
          rw [if_neg short]
          cases there : tree.node? (start ++ [name]) with
          | none =>
              simp only [there] at found
              split at found
              · cases found
                rw [there] at isDirectory
                cases isDirectory
              · cases found
          | some node =>
              cases node with
              | directory =>
                  simp only [there] at found ⊢
                  exact ih found
              | link target =>
                  simp only [there] at found ⊢
                  rw [← List.append_assoc]
                  exact follows _ _ _ found isDirectory
              | file number | device =>
                  simp only [there] at found
                  split at found
                  · cases found
                    rw [there] at isDirectory
                    cases isDirectory
                  · cases found

/-- What is behind a directory is found from there, with as many links as are left. -/
theorem exists_walkThrough_append {links : Nat}
    (found : tree.walkThrough .look links start steps = .ok location)
    (isDirectory : tree.node? location = some .directory) (more : List Path.Step) :
    ∃ left ≤ links, tree.walkThrough .look links start (steps ++ more) =
      tree.walkThrough .look left location more := by
  induction links generalizing start steps location with
  | zero =>
      refine walk_append (fun location result => ∃ left ≤ 0, result =
        tree.walkThrough .look left location more) ?_ ?_ isDirectory found
      · intro location
        exact ⟨0, Nat.le_refl 0, rfl⟩
      · intro start steps location failed
        cases failed
  | succ links ih =>
      refine walk_append (fun location result => ∃ left ≤ links + 1, result =
        tree.walkThrough .look left location more) ?_ ?_ isDirectory found
      · intro location
        exact ⟨links + 1, Nat.le_refl _, rfl⟩
      · intro start steps location found isDirectory
        obtain ⟨left, fewer, same⟩ := ih found isDirectory
        exact ⟨left, Nat.le_succ_of_le fewer, same⟩

theorem walk_slash {follow : Location → List Path.Step → Except FileError Location}
    (further : more ≠ [])
    (follows : ∀ start steps, follow start (steps ++ .slash :: more) = follow start (steps ++ more))
    (start : Location) (steps : List Path.Step) :
    tree.walk .look follow start (steps ++ .slash :: more) =
      tree.walk .look follow start (steps ++ more) := by
  induction steps generalizing start with
  | nil => rfl
  | cons step steps ih =>
      cases step with
      | slash => exact ih start
      | stay => exact ih start
      | up => exact ih start.dropLast
      | down name =>
          have goesOn : steps ++ more ≠ [] := List.append_ne_nil_of_right_ne_nil steps further
          have goesOnToo : steps ++ .slash :: more ≠ [] := by simp
          simp only [List.cons_append, walk_look_down, ih, if_neg goesOn, if_neg goesOnToo,
            ← List.append_assoc, follows]

theorem walkThrough_slash (further : more ≠ []) (links : Nat) (start : Location)
    (steps : List Path.Step) : tree.walkThrough .look links start (steps ++ .slash :: more) =
      tree.walkThrough .look links start (steps ++ more) := by
  induction links generalizing start steps with
  | zero => exact walk_slash further (fun _ _ => rfl) start steps
  | succ links ih => exact walk_slash further ih start steps

end Tree

/-! ## Paths to entries -/

theorem Text.cutAt_singleton_append (c : Char) (left right : Text) :
    cutAt [c] (left ++ c :: right) = cutAt [c] left ++ cutAt [c] right := by
  have separates (rest : Text) : cutAt [c] (c :: rest) = [] :: cutAt [c] rest :=
    cutAt_of_prefix (by simp) ⟨rest, rfl⟩
  induction left with
  | nil => rw [List.nil_append, separates, cutAt_nil, List.singleton_append]
  | cons d left ih =>
      rw [List.cons_append]
      by_cases same : d = c
      · rw [same, separates, separates, ih, List.cons_append]
      · have elsewhere (rest : Text) : ¬ [c] <+: d :: rest :=
          fun starts => same (List.cons_prefix_cons.mp starts).1.symm
        rw [cutAt_cons (elsewhere _), cutAt_cons (elsewhere _), ih]
        cases cut : cutAt [c] left with
        | nil => exact absurd cut (cutAt_ne_nil [c] left)
        | cons piece pieces => rfl

namespace Path

variable {directory name : Text}

/-- Whether a text may be the name of an entry. -/
structure IsEntryName (name : Text) : Prop where
  proper : name ≠ [] ∧ name ≠ ['.'] ∧ name ≠ ['.', '.']
  noSlash : '/' ∉ name
  noZero : '\x00' ∉ name
  short : Text.byteCount name ≤ Tree.maxNameBytes

theorem steps_append (left right : Text) :
    steps (left ++ '/' :: right) = steps left ++ steps right := by
  rw [steps, Text.cutAt_singleton_append, List.map_append, steps, steps]

theorem IsEntryName.steps (isName : IsEntryName name) : steps name = [.down name] := by
  have whole : Text.cutAt ['/'] name = [name] := by
    apply Text.cutAt_of_not_infix
    rw [List.singleton_infix_iff]
    exact isName.noSlash
  obtain ⟨nonempty, noStay, noUp⟩ := isName.proper
  rw [Path.steps, whole, List.map_singleton, List.cons.injEq]
  refine ⟨?_, rfl⟩
  fun_cases Step.ofText name <;> simp_all

theorem IsEntryName.not_isAbsolute (isName : IsEntryName name) : isAbsolute name = false := by
  rw [isAbsolute, beq_eq_false_iff_ne]
  intro head
  exact isName.noSlash (List.mem_of_mem_head? head)

/-- The steps to an entry are those to its directory and the one to its name.  A slash at the end of
the directory is not doubled. -/
theorem steps_join (nonempty : directory ≠ []) (isName : IsEntryName name) :
    ∃ front, steps (join directory name) = front ++ [.down name] ∧
      (steps directory = front ∨ steps directory = front ++ [.slash]) := by
  rw [join, isName.not_isAbsolute, if_neg Bool.false_ne_true]
  by_cases slash : directory.getLast? = some '/'
  · obtain ⟨front, rfl⟩ := List.getLast?_eq_some_iff.mp slash
    refine ⟨steps front, ?_, .inr ?_⟩
    · rw [if_pos (by simp), List.append_assoc, List.singleton_append, steps_append, isName.steps]
    · rw [steps_append, steps, steps, Text.cutAt_nil]
      rfl
  · refine ⟨steps directory, ?_, .inl rfl⟩
    rw [if_neg (by simp [nonempty, slash]), steps_append, isName.steps]

theorem join_ne_nil (directory : Text) (isName : IsEntryName name) : join directory name ≠ [] := by
  rw [join, isName.not_isAbsolute, if_neg Bool.false_ne_true]
  split
  · exact List.append_ne_nil_of_right_ne_nil directory isName.proper.1
  · simp

theorem isAbsolute_join (nonempty : directory ≠ []) (isName : IsEntryName name) :
    isAbsolute (join directory name) = isAbsolute directory := by
  obtain ⟨first, rest, rfl⟩ := List.exists_cons_of_ne_nil nonempty
  rw [join, isName.not_isAbsolute, if_neg Bool.false_ne_true]
  split
  · rfl
  · rfl

theorem not_mem_join {c : Char} (inName : c ∉ name) (inDirectory : c ∉ directory)
    (noSlash : c ≠ '/') : c ∉ join directory name := by
  rw [join]
  split
  · exact inName
  · split <;> simp [inName, inDirectory, noSlash]

end Path

namespace Tree

variable {tree : Tree} {here location : Location} {directory name : Text}

/-- The path to an entry leads where the name of the entry leads from inside the directory, with as
many links as the path to the directory has left. -/
theorem exists_locate_join (found : tree.locate here directory = .ok location)
    (isDirectory : tree.node? location = some .directory) (isName : Path.IsEntryName name)
    (short : Text.byteCount (Path.join directory name) ≤ maxPathBytes) :
    ∃ left ≤ maxLinks, tree.locate here (Path.join directory name) =
      tree.walkThrough .look left location [.down name] := by
  rw [locate, follow] at found
  split at found
  · cases found
  next noZero =>
  split at found
  · cases found
  next nonempty =>
  split at found
  · cases found
  have noZeroToo : ¬ (Path.join directory name).contains '\x00' = true := by
    rw [List.contains_iff_mem] at noZero ⊢
    exact Path.not_mem_join isName.noZero noZero (by decide)
  obtain ⟨front, joined, steps⟩ := Path.steps_join nonempty isName
  have nonemptyToo := Path.join_ne_nil directory isName
  rw [locate, follow, if_neg noZeroToo, if_neg nonemptyToo, if_neg (Nat.not_lt.mpr short),
    Path.isAbsolute_join nonempty isName, joined]
  rcases steps with same | slash
  · rw [same] at found
    exact exists_walkThrough_append found isDirectory [.down name]
  · rw [slash] at found
    have passed := exists_walkThrough_append found isDirectory [.down name]
    rw [List.append_assoc, List.singleton_append,
      walkThrough_slash (List.cons_ne_nil _ _)] at passed
    exact passed

/-- An entry that is no link is found at its place in the directory. -/
theorem nodeAt_join {node : Node} (found : tree.locate here directory = .ok location)
    (isDirectory : tree.node? location = some .directory) (isName : Path.IsEntryName name)
    (short : Text.byteCount (Path.join directory name) ≤ maxPathBytes)
    (there : tree.node? (location ++ [name]) = some node) (noLink : ∀ target, node ≠ .link target) :
    tree.nodeAt here (Path.join directory name) = .ok node := by
  obtain ⟨left, -, leads⟩ := exists_locate_join found isDirectory isName short
  have arrives (follow : Location → List Path.Step → Except FileError Location) :
      tree.walk .look follow location [.down name] = .ok (location ++ [name]) := by
    rw [walk_look_down, if_neg (Nat.not_lt.mpr isName.short), there]
    cases node with
    | directory => rfl
    | file number => rfl
    | link target => exact absurd rfl (noLink target)
    | device => rfl
  have arrived : tree.walkThrough .look left location [.down name] = .ok (location ++ [name]) := by
    cases left with
    | zero => exact arrives _
    | succ left => exact arrives _
  rw [nodeAt, leads, arrived]
  simp only [bind, Except.bind, there]

end Tree

end Recase
