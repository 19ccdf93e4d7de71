import Recase.Config
import Recase.Proofs.Guarding
import Recase.Proofs.Renaming

/-!
# No new separators

Names are respelt one by one, and a new name may end next to text that stays.  The separator of a
console output, a long run of underscores and two escaped line feeds, does not come about in this
way.  A new name ends with several underscores only if the old one does, and it neither begins with
an underscore nor holds a backslash, so that an occurrence of the separator in the new text is one
in the old text.
-/

namespace Recase

open Character (IsCapitalForm)

/-- What follows the underscores of the separator. -/
def lineFeeds : Text := ['\\', 'n', '\\', 'n']

/-- How a text is respelt: some names that no underscore follows are changed, and every other
character is kept. -/
inductive Respelt (convention : Convention) : Text → Text → Prop where
  | done : Respelt convention [] []
  | keep (c : Char) {old new : Text} (behind : Respelt convention old new) :
      Respelt convention (c :: old) (c :: new)
  | change {name newName old new : Text} (renamed : convention.rename? name = some newName)
      (plain : '\\' ∉ name) (follows : old.head? ≠ some '_') (behind : Respelt convention old new) :
      Respelt convention (name ++ old) (newName ++ new)

namespace Respelt

variable {convention : Convention} {old new : Text}

theorem keep_append (same : Text) (behind : Respelt convention old new) :
    Respelt convention (same ++ old) (same ++ new) := by
  induction same with
  | nil => exact behind
  | cons c same ih => exact .keep c ih

theorem not_mem_newName {name newName : Text} (renamed : convention.rename? name = some newName)
    (plain : '\\' ∉ name) : '\\' ∉ newName := by
  intro inside
  rcases Convention.mem_of_rename? renamed inside with inName | equal | capital
  · exact plain inName
  · cases equal
  · simp [IsCapitalForm] at capital

theorem of_cons {c : Char} (ordinary : c = '_' ∨ c = '\\')
    (respelt : Respelt convention old (c :: new)) :
    ∃ rest, old = c :: rest ∧ Respelt convention rest new := by
  generalize whole : c :: new = text at respelt
  cases respelt with
  | done => cases whole
  | keep d behind =>
      obtain ⟨rfl, rfl⟩ := List.cons.inj whole
      exact ⟨_, rfl, behind⟩
  | @change name newName rest newRest renamed plain follows behind =>
      obtain ⟨first, head, origin⟩ := Convention.head_of_rename? renamed
      obtain ⟨tail, rfl⟩ := List.head?_eq_some_iff.mp head
      obtain ⟨rfl, -⟩ := List.cons.inj whole
      rcases origin with ⟨sameHead, different⟩ | equal | capital
      · rcases ordinary with rfl | rfl
        · exact absurd rfl different
        · exact absurd (List.mem_of_head? sameHead) plain
      · subst equal
        simp at ordinary
      · rcases ordinary with rfl | rfl <;> simp [IsCapitalForm] at capital

/-- A small letter in the new text, with what stands behind it, is there in the old text, unless it
is all of a new name or more of it follows. -/
theorem of_cons_n (respelt : Respelt convention old ('n' :: new)) :
    ∃ rest, old = 'n' :: rest ∧ (new.head? = some '\\' → Respelt convention rest new) := by
  generalize whole : 'n' :: new = text at respelt
  cases respelt with
  | done => cases whole
  | keep d behind =>
      obtain ⟨rfl, rfl⟩ := List.cons.inj whole
      exact ⟨_, rfl, fun _ => behind⟩
  | @change name newName rest newRest renamed plain follows behind =>
      obtain ⟨first, head, origin⟩ := Convention.head_of_rename? renamed
      obtain ⟨tail, rfl⟩ := List.head?_eq_some_iff.mp head
      obtain ⟨rfl, equal⟩ := List.cons.inj whole
      have sameHead : name.head? = some 'n' := by
        rcases origin with ⟨sameHead, -⟩ | equal | capital
        · exact sameHead
        · cases equal
        · simp [IsCapitalForm] at capital
      obtain ⟨nameRest, rfl⟩ := List.head?_eq_some_iff.mp sameHead
      refine ⟨nameRest ++ rest, rfl, fun backslash => ?_⟩
      cases tail with
      | nil =>
          have capital := Convention.uppercase_of_rename?_singleton renamed
          exact absurd capital (by decide)
      | cons second tail =>
          have same : second = '\\' := by simpa [equal] using backslash
          exact absurd (by simp [same]) (not_mem_newName renamed plain)

theorem lineFeeds_begin (respelt : Respelt convention old new) (begins : lineFeeds <+: new) :
    lineFeeds <+: old := by
  obtain ⟨tail, rfl⟩ := begins
  obtain ⟨first, rfl, respeltFirst⟩ := of_cons (.inr rfl) respelt
  obtain ⟨second, rfl, respeltSecond⟩ := of_cons_n respeltFirst
  obtain ⟨third, rfl, respeltThird⟩ := of_cons (.inr rfl) (respeltSecond rfl)
  obtain ⟨fourth, rfl, -⟩ := of_cons_n respeltThird
  exact ⟨fourth, rfl⟩

theorem separator_begins (count : Nat) (respelt : Respelt convention old new)
    (begins : List.replicate count '_' ++ lineFeeds <+: new) :
    List.replicate count '_' ++ lineFeeds <+: old := by
  induction count generalizing old new with
  | zero => exact respelt.lineFeeds_begin begins
  | succ count ih =>
      obtain ⟨tail, rfl⟩ := begins
      rw [List.replicate_succ, List.cons_append, List.cons_append] at respelt
      obtain ⟨rest, rfl, behind⟩ := of_cons (.inl rfl) respelt
      rw [List.replicate_succ, List.cons_append, List.cons_prefix_cons]
      exact ⟨rfl, ih behind ⟨tail, rfl⟩⟩

/-- The parts into which the end of a new name without backslashes cuts a separator. -/
theorem split_separator {count : Nat} {left right : Text}
    (split : List.replicate count '_' ++ lineFeeds = left ++ right) (plain : '\\' ∉ left) :
    ∃ kept, left = List.replicate kept '_' ∧ kept ≤ count ∧
      right = List.replicate (count - kept) '_' ++ lineFeeds := by
  rcases List.append_eq_append_iff.mp split with ⟨overlap, leftSplit, rightSplit⟩ |
    ⟨overlap, leftSplit, rightSplit⟩
  · cases overlap with
    | nil =>
        refine ⟨count, by simpa using leftSplit, Nat.le_refl _, ?_⟩
        simpa using rightSplit.symm
    | cons c overlap =>
        obtain ⟨rfl, -⟩ := List.cons.inj rightSplit
        exact absurd (by simp [leftSplit]) plain
  · obtain ⟨shorter, leftRun, overlapRun⟩ := List.append_eq_replicate_iff.mp leftSplit.symm
    refine ⟨left.length, leftRun, by omega, ?_⟩
    rw [rightSplit, overlapRun, ← shorter, Nat.add_sub_cancel_left]

/-- No new separator comes about. -/
theorem separator_occurs (count : Nat) (several : 1 < count) (respelt : Respelt convention old new)
    (inside : List.replicate count '_' ++ lineFeeds <:+: new) :
    List.replicate count '_' ++ lineFeeds <:+: old := by
  induction respelt with
  | done => exact inside
  | @keep c old new behind ih =>
      rcases List.infix_cons_iff.mp inside with begins | later
      · exact (separator_begins count (.keep c behind) begins).isInfix
      · exact (ih later).trans (List.suffix_cons c old).isInfix
  | @change name newName old new renamed plain follows behind ih =>
      have plainNew := not_mem_newName renamed plain
      have inOld : List.replicate count '_' ++ lineFeeds <:+: old →
          List.replicate count '_' ++ lineFeeds <:+: name ++ old :=
        fun later => later.trans (List.suffix_append name old).isInfix
      rcases List.infix_append_iff_ne_nil.mp inside with within | later | across
      · exact absurd (within.subset (by simp [lineFeeds])) plainNew
      · exact inOld (ih later)
      · obtain ⟨left, right, leftNonempty, rightNonempty, split, ends, begins⟩ := across
        obtain ⟨kept, rfl, bound, rfl⟩ :=
          split_separator split fun member => plainNew (ends.subset member)
        rcases Nat.lt_or_ge kept count with fewer | all
        · obtain ⟨more, amount⟩ := Nat.exists_eq_add_of_lt fewer
          have positive : count - kept = more + 1 := by omega
          obtain ⟨tail, rfl⟩ := begins
          rw [positive, List.replicate_succ, List.cons_append, List.cons_append] at behind
          obtain ⟨rest, rfl, -⟩ := of_cons (.inl rfl) behind
          exact absurd rfl follows
        · obtain rfl : kept = count := Nat.le_antisymm bound all
          have endsOld := Convention.replicate_suffix_of_rename? renamed several ends
          rw [Nat.sub_self, List.replicate_zero, List.nil_append] at begins
          obtain ⟨before, rfl⟩ := endsOld
          obtain ⟨after, rfl⟩ := behind.lineFeeds_begin begins
          exact ⟨before, after, by simp⟩

end Respelt

/-! ## The separator of a console output -/

namespace Config

/-- No shorter text both begins and ends the separator of a console output. -/
theorem isUnbordered_default : Text.IsUnbordered default.separator := by
  intro border nonempty starts ends
  have lengths : ∀ length ∈ List.range (default.separator.length + 1), length ≠ 0 →
      default.separator.take length =
        default.separator.drop (default.separator.length - length) →
      length = default.separator.length := by
    decide +kernel
  have bound := starts.length_le
  have beginning := List.prefix_iff_eq_take.mp starts
  have ending := List.suffix_iff_eq_drop.mp ends
  refine starts.eq_of_length (lengths border.length ?_ ?_ (beginning.symm.trans ending))
  · exact List.mem_range.mpr (Nat.lt_succ_of_le bound)
  · simpa using nonempty

/-- Under the guard of a console output a respelt text is concealed again just as it was. -/
theorem protect_restore_of_respelt {guard : Guard} (standard : guard = default.toGuard)
    {convention : Convention} {content old new : Text} (concealed : guard.protect content = .ok old)
    (respelt : Respelt convention old new) : guard.protect (guard.restore new) = .ok new := by
  subst standard
  have nonempty : default.separator ≠ [] := by decide
  have unmarked : default.placeholder ∉ default.separator := by decide
  refine Guard.protect_restore _ nonempty unmarked isUnbordered_default fun inside => ?_
  have absent := Guard.not_infix_conceal _ nonempty unmarked content
  obtain ⟨-, rfl⟩ := Guard.protect_eq_ok_iff.mp concealed
  exact absent (respelt.separator_occurs 50 (by decide) inside)

end Config

/-! ## Rewriting once more -/

section Again

variable {guard : Guard} {convention : Convention} {cut : Text → List Part} {content : Text}

theorem Guard.rewriteContentBy_of_protect {text : Text}
    (concealed : guard.protect content = .ok text) (convention : Convention)
    (cut : Text → List Part) :
    rewriteContentBy guard convention cut content = .ok
      { convention.rewriteBy cut text with
        content := guard.restore (convention.rewriteParts (cut text)) } := by
  rw [rewriteContentBy, concealed]
  rfl

theorem Config.rewrite_of_not_mem (config : Config) (absent : config.placeholder ∉ content) :
    ∃ rewrite, config.rewrite content = .ok rewrite :=
  ⟨_, Guard.rewriteContentBy_of_protect (Guard.protect_of_not_mem absent) config.toConvention
    config.mode.parts⟩

theorem Config.rewrite_of_mem (config : Config) (present : config.placeholder ∈ content) :
    config.rewrite content = .error (.of (.placeholderCollision config.placeholder none)) := by
  rw [Config.rewrite, rewriteContent, rewriteContentBy, Guard.protect_of_mem present]
  rfl

theorem rewriteContentBy_eq_ok {once : Rewrite}
    (rewritten : rewriteContentBy guard convention cut content = .ok once) :
    ∃ text, guard.protect content = .ok text ∧
      once = { convention.rewriteBy cut text with
        content := guard.restore (convention.rewriteParts (cut text)) } := by
  unfold rewriteContentBy at rewritten
  cases concealed : guard.protect content with
  | error error =>
      rw [concealed] at rewritten
      cases rewritten
  | ok text =>
      rw [concealed] at rewritten
      exact ⟨text, rfl, (Except.ok.inj rewritten).symm⟩

/-- The second of two rewritings that respell a text finds the text that the first one has made
before it restored the separators. -/
theorem rewriteContentBy_again (standard : guard = Config.default.toGuard)
    (respelt : ∀ text, Respelt convention text (convention.rewriteParts (cut text)))
    {once : Rewrite} (rewritten : rewriteContentBy guard convention cut content = .ok once) :
    ∃ text, guard.protect content = .ok text ∧
      once.content = guard.restore (convention.rewriteParts (cut text)) ∧
      rewriteContentBy guard convention cut once.content =
        .ok { convention.rewriteBy cut (convention.rewriteParts (cut text)) with
          content := guard.restore
            (convention.rewriteBy cut (convention.rewriteParts (cut text))).content } := by
  obtain ⟨text, concealed, rfl⟩ := rewriteContentBy_eq_ok rewritten
  refine ⟨text, concealed, rfl, ?_⟩
  rw [rewriteContentBy, Config.protect_restore_of_respelt standard concealed (respelt text)]
  rfl

theorem Convention.rewriteParts_of_changes {parts : List Part}
    (unchanged : convention.changes parts = []) :
    convention.rewriteParts parts = Part.join parts := by
  induction parts with
  | nil => rfl
  | cons part parts ih =>
      rw [changes, List.filterMap_cons] at unchanged
      cases change : convention.change? part with
      | some pair => simp [change] at unchanged
      | none =>
          rw [change] at unchanged
          have same : convention.rewritten part = part.text := by rw [rewritten, change]
          rw [rewriteParts, List.flatMap_cons, same, Part.join_cons, ← ih unchanged, rewriteParts]

theorem Convention.rewriteBy_of_changes {text : Text} (joined : Part.join (cut text) = text)
    (unchanged : convention.changes (cut text) = []) :
    convention.rewriteBy cut text = { content := text, replacements := 0, renames := .empty } := by
  rw [rewriteBy, unchanged, rewriteParts_of_changes unchanged, joined]
  rfl

end Again

end Recase
