import Recase.Text

/-!
# Indexes

An index records a value for each of finitely many texts, in the order of the texts.  Two indexes
that record the same values are equal, so how an index came about cannot be told from it.  A set of
names is an index that records nothing but the presence of a name.
-/

namespace Recase

/-- Values recorded under texts.  The texts ascend, so that none occurs twice. -/
structure Index (α : Type) where
  entries : List (Text × α)
  ascending : entries.Pairwise fun left right => left.1 < right.1 := by exact .nil
  deriving DecidableEq

namespace Index

variable {α : Type}

/-- The index that records nothing. -/
def empty : Index α where
  entries := []

/-- The value of the first entry with a text. -/
def find (key : Text) : List (Text × α) → Option α
  | [] => none
  | entry :: entries => if key = entry.1 then some entry.2 else find key entries

/-- The recorded value, if there is one. -/
def get? (index : Index α) (key : Text) : Option α :=
  find key index.entries

/-- Whether a value is recorded. -/
def contains (index : Index α) (key : Text) : Bool :=
  (index.get? key).isSome

/-- The texts that have a value, in order. -/
def keys (index : Index α) : List Text :=
  index.entries.map Prod.fst

/-- The number of texts that have a value. -/
def size (index : Index α) : Nat :=
  index.entries.length

/-- Put an entry at its place, unless its text has a value already. -/
def insertEntry (key : Text) (value : α) : List (Text × α) → List (Text × α)
  | [] => [(key, value)]
  | entry :: entries =>
    if key < entry.1 then (key, value) :: entry :: entries
    else if key = entry.1 then entry :: entries
    else entry :: insertEntry key value entries

theorem mem_insertEntry {key : Text} {value : α} {entries : List (Text × α)}
    {entry : Text × α} (member : entry ∈ insertEntry key value entries) :
    entry = (key, value) ∨ entry ∈ entries := by
  fun_induction insertEntry key value entries <;> simp_all
  grind

theorem ascending_insertEntry (key : Text) (value : α) {entries : List (Text × α)}
    (ascending : entries.Pairwise fun left right => left.1 < right.1) :
    (insertEntry key value entries).Pairwise fun left right => left.1 < right.1 := by
  fun_induction insertEntry key value entries with
  | case1 => simp
  | case2 entry entries before =>
      refine .cons (fun other member => ?_) ascending
      rcases List.mem_cons.mp member with rfl | member
      · exact before
      · exact List.lt_trans before (List.rel_of_pairwise_cons ascending member)
  | case3 => exact ascending
  | case4 entry entries notBefore different ih =>
      refine .cons (fun other member => ?_) (ih ascending.of_cons)
      rcases mem_insertEntry member with rfl | member
      · exact Text.lt_of_not_lt notBefore different
      · exact List.rel_of_pairwise_cons ascending member

/-- Record a value under a text that has none yet. -/
def insertNew (index : Index α) (key : Text) (value : α) : Index α where
  entries := insertEntry key value index.entries
  ascending := ascending_insertEntry key value index.ascending

/-- The index of a list of entries.  Of entries with one text the first one counts. -/
def ofList (entries : List (Text × α)) : Index α :=
  entries.foldl (fun index entry => index.insertNew entry.1 entry.2) empty

/-- An index records nothing but the entries of the list it was made of. -/
theorem mem_of_mem_ofList {entries : List (Text × α)} {entry : Text × α}
    (member : entry ∈ (ofList entries).entries) : entry ∈ entries := by
  have recorded (index : Index α) (entries : List (Text × α))
      (member : entry ∈ (entries.foldl (fun index entry => index.insertNew entry.1 entry.2)
        index).entries) : entry ∈ index.entries ∨ entry ∈ entries := by
    induction entries generalizing index with
    | nil => exact .inl member
    | cons first entries ih =>
        rcases ih (index.insertNew first.1 first.2) member with before | later
        · exact (mem_insertEntry before).symm.imp id fun same => by simp [same]
        · exact .inr (List.mem_cons_of_mem first later)
  exact (recorded empty entries member).resolve_left List.not_mem_nil

theorem insertEntry_ne_nil (key : Text) (value : α) (entries : List (Text × α)) :
    insertEntry key value entries ≠ [] := by
  fun_induction insertEntry key value entries <;> simp

/-- An index of some entries records something. -/
theorem ofList_eq_empty_iff {entries : List (Text × α)} : ofList entries = empty ↔ entries = [] := by
  have grown (index : Index α) (entries : List (Text × α))
      (nothing : entries.foldl (fun index entry => index.insertNew entry.1 entry.2) index = empty) :
      index = empty := by
    induction entries generalizing index with
    | nil => exact nothing
    | cons entry entries ih =>
        have before := ih (index.insertNew entry.1 entry.2) nothing
        exact absurd (congrArg Index.entries before) (insertEntry_ne_nil _ _ _)
  constructor
  · intro nothing
    cases entries with
    | nil => rfl
    | cons entry entries =>
        have before := grown (empty.insertNew entry.1 entry.2) entries nothing
        exact absurd (congrArg Index.entries before) (insertEntry_ne_nil _ _ _)
  · rintro rfl
    rfl

@[simp] theorem get?_empty (key : Text) : (empty : Index α).get? key = none := rfl

/-- A text in front of all entries has no value. -/
theorem find_eq_none {key : Text} {entries : List (Text × α)}
    (before : ∀ entry ∈ entries, key < entry.1) : find key entries = none := by
  induction entries with
  | nil => rfl
  | cons entry entries ih =>
      have different : key ≠ entry.1 := fun same =>
        List.lt_irrefl _ (same ▸ before entry (by simp))
      simp [find, different, ih fun other member => before other (by simp [member])]

@[simp] theorem get?_insertNew (index : Index α) (key : Text) (value : α) (query : Text) :
    (index.insertNew key value).get? query =
      if query = key then some ((index.get? key).getD value) else index.get? query := by
  have ascending := index.ascending
  simp only [get?, insertNew]
  generalize index.entries = entries at *
  fun_induction insertEntry key value entries with
  | case1 => by_cases same : query = key <;> simp [find, same]
  | case2 entry entries before =>
      have absent : find key (entry :: entries) = none := by
        refine find_eq_none fun other member => ?_
        rcases List.mem_cons.mp member with rfl | member
        · exact before
        · exact List.lt_trans before (List.rel_of_pairwise_cons ascending member)
      by_cases same : query = key
      · rw [absent]
        simp [find, same]
      · simp [find, same]
  | case3 entry entries notBefore same =>
      by_cases equal : query = key
      · simp [find, equal, same]
      · rw [if_neg equal]
  | case4 entry entries notBefore different ih =>
      by_cases equal : query = key
      · subst equal
        simpa [find, different] using ih ascending.of_cons
      · simpa [find, equal] using congrArg _ (ih ascending.of_cons)

/-- Of the entries with one text the first one is recorded. -/
theorem get?_ofList (entries : List (Text × α)) (key : Text) :
    (ofList entries).get? key = find key entries := by
  have recorded (index : Index α) (entries : List (Text × α)) :
      (entries.foldl (fun index entry => index.insertNew entry.1 entry.2) index).get? key =
        (index.get? key).or (find key entries) := by
    induction entries generalizing index with
    | nil => rw [List.foldl_nil, find, Option.or_none]
    | cons entry entries ih =>
        rw [List.foldl_cons, ih, get?_insertNew, find]
        split
        · next same =>
            rw [same]
            cases index.get? entry.1 <;> rfl
        · rfl
  rw [ofList, recorded, get?_empty, Option.none_or]

/-- Two indexes that record the same values are equal. -/
theorem ext_get? {left right : Index α} (same : ∀ key, left.get? key = right.get? key) :
    left = right := by
  obtain ⟨left, leftAscending⟩ := left
  obtain ⟨right, rightAscending⟩ := right
  simp only [get?, mk.injEq] at *
  induction left generalizing right with
  | nil =>
      cases right with
      | nil => rfl
      | cons entry entries => simpa [find] using same entry.1
  | cons leftEntry left ih =>
      have leftAbsent : find leftEntry.1 left = none :=
        find_eq_none fun _ member => List.rel_of_pairwise_cons leftAscending member
      cases right with
      | nil => simpa [find] using same leftEntry.1
      | cons rightEntry right =>
          have rightAbsent : find rightEntry.1 right = none :=
            find_eq_none fun _ member => List.rel_of_pairwise_cons rightAscending member
          have keysEqual : leftEntry.1 = rightEntry.1 := by
            by_cases equal : leftEntry.1 = rightEntry.1
            · exact equal
            have leftFound := same leftEntry.1
            have rightFound := same rightEntry.1
            simp only [find, if_true, if_neg equal, if_neg (Ne.symm equal)] at leftFound rightFound
            by_cases before : leftEntry.1 < rightEntry.1
            · rw [find_eq_none fun _ member => List.lt_trans before
                (List.rel_of_pairwise_cons rightAscending member)] at leftFound
              cases leftFound
            · have after := Text.lt_of_not_lt before equal
              rw [find_eq_none fun _ member => List.lt_trans after
                (List.rel_of_pairwise_cons leftAscending member)] at rightFound
              cases rightFound
          have valuesEqual : leftEntry.2 = rightEntry.2 := by
            simpa [find, keysEqual] using same leftEntry.1
          have entriesEqual : leftEntry = rightEntry := Prod.ext keysEqual valuesEqual
          subst entriesEqual
          refine congrArg (leftEntry :: ·)
            (ih leftAscending.of_cons right rightAscending.of_cons fun key => ?_)
          by_cases equal : key = leftEntry.1
          · rw [equal, leftAbsent, rightAbsent]
          · simpa [find, equal] using same key

end Index

/-- A set of names. -/
abbrev Names := Index Unit

namespace Names

/-- The set that holds the members of a list. -/
def ofList (names : List Text) : Names :=
  Index.ofList (names.map fun name => (name, ()))

/-- The set with the members of a list added to it. -/
def extend (names : Names) (more : List Text) : Names :=
  more.foldl (fun names name => names.insertNew name ()) names

/-- The members in order. -/
def toList (names : Names) : List Text :=
  names.keys

theorem mem_of_mem_toList_ofList {names : List Text} {name : Text}
    (member : name ∈ (ofList names).toList) : name ∈ names := by
  obtain ⟨entry, recorded, rfl⟩ := List.mem_map.mp member
  obtain ⟨name, listed, rfl⟩ := List.mem_map.mp (Index.mem_of_mem_ofList recorded)
  exact listed

end Names

end Recase
