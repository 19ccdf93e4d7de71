import Recase.Proofs.Reading
import Mathlib

/-!
# Printed documents

What is printed for a value is one of the texts that the grammar allows for it.  Only the line breaks
between items and between members take some care: each of them stands in front of an item, or in
front of the closing bracket.
-/

namespace Recase.Json

/-! ## Strings -/

theorem spells_map_toNat (content : Text) : Spells (content.map Char.toNat) content := by
  induction content with
  | nil => exact .nil
  | cons c content ih => exact .character c ih

/-- The digits that are printed for a control character are those of its code. -/
theorem isCode_hexDigits {code : Nat} (control : code < 0x20) : IsCode code (hexDigits code) := by
  have lower : ∀ code : Fin 0x20, (hexDigits code).map Char.toLower = hexDigits code := by decide
  exact ⟨by omega, lower ⟨code, control⟩⟩

theorem writesCodes_escape (c : Char) {codes : List Nat} {rest : Text}
    (behind : WritesCodes codes rest) : WritesCodes (c.toNat :: codes) (escape c ++ rest) := by
  rw [escape]
  split
  · next same => exact .short '"' c (by simp [shortEscapes, same]) behind
  split
  · next same => exact .short '\\' c (by simp [shortEscapes, same]) behind
  split
  · next same => exact .short 'n' c (by simp [shortEscapes, same]) behind
  split
  · next same => exact .short 'r' c (by simp [shortEscapes, same]) behind
  split
  · next same => exact .short 't' c (by simp [shortEscapes, same]) behind
  split
  · next same => exact .short 'b' c (by simp [shortEscapes, same]) behind
  split
  · next same => exact .short 'f' c (by simp [shortEscapes, same]) behind
  split
  · next control => exact .code (isCode_hexDigits control) behind
  · next noQuote noEscape _ _ _ _ _ visible =>
      exact .plain c (by omega) noQuote noEscape behind

/-- What is printed for a text writes a string that spells it. -/
theorem writesString_quote (content : Text) : WritesString (some content) (quote (some content)) := by
  have writes : WritesCodes (content.map Char.toNat) (content.flatMap escape) := by
    induction content with
    | nil => exact .nil
    | cons c content ih => exact writesCodes_escape c ih
  refine ⟨_, _, writes, rfl, fun other => ?_⟩
  have spells := spells_map_toNat content
  constructor
  · intro same
    cases same
    exact spells
  · intro alsoSpells
    rw [spells.unique alsoSpells]

/-! ## Values -/

/-- What is printed for a value writes it, at any depth. -/
def IsPrintable (value : Json) : Prop :=
  ∀ depth, Writes (.value value) (pretty depth value)

theorem isBlanks_nil : IsBlanks [] :=
  fun _ member => absurd member List.not_mem_nil

theorem isBlanks_newLine (depth : Nat) : IsBlanks (newLine depth) := by
  intro c member
  rcases List.mem_cons.mp member with rfl | member
  · rfl
  · rw [List.eq_of_mem_replicate member]
    rfl

theorem isPrintable_text (content : Text) : IsPrintable (text content) := by
  intro depth
  rw [text, pretty]
  exact .string (writesString_quote content)

theorem isPrintable_bool (value : Bool) : IsPrintable (.bool value) := by
  intro depth
  rw [pretty]
  exact .bool value

/-- The items of an array, with the line breaks in front of each of them and behind the last. -/
theorem writes_prettyItems {items : List Json} {item : Json} (depth : Nat) {before behind : Text}
    (front : IsBlanks before) (back : IsBlanks behind)
    (printable : ∀ other ∈ item :: items, IsPrintable other) :
    Writes (.elements (item :: items))
      (before ++ pretty depth item ++ prettyItems depth items ++ behind) := by
  have first := printable item List.mem_cons_self depth
  induction items generalizing item before with
  | nil =>
      rw [prettyItems, List.append_nil]
      exact .lastItem (.element front back first)
  | cons next items ih =>
      have others := fun other member => printable other (List.mem_cons_of_mem item member)
      have more := ih (isBlanks_newLine depth) others (others next List.mem_cons_self depth)
      have whole := Writes.moreItems (.element front isBlanks_nil first) more
      rw [prettyItems]
      simpa only [List.append_assoc, List.cons_append, List.nil_append] using whole

theorem isPrintable_array {items : List Json} (printable : ∀ item ∈ items, IsPrintable item) :
    IsPrintable (.array items) := by
  intro depth
  cases items with
  | nil =>
      rw [pretty]
      exact .noItems isBlanks_nil
  | cons item items =>
      have inside := writes_prettyItems (depth + 1) (isBlanks_newLine (depth + 1))
        (isBlanks_newLine depth) printable
      rw [pretty]
      exact .array inside

theorem writes_prettyMember (key : Text) {value : Json} (depth : Nat) {before behind : Text}
    (front : IsBlanks before) (back : IsBlanks behind) (printable : IsPrintable value) :
    Writes (.member (some key) value)
      (before ++ prettyMember depth (some key, value) ++ behind) := by
  have blank : IsBlanks [' '] := by simp [IsBlanks, isBlank]
  have inside := Writes.element blank back (printable depth)
  have whole := Writes.member front isBlanks_nil (writesString_quote key) inside
  rw [prettyMember]
  simpa only [List.append_assoc, List.cons_append, List.nil_append] using whole

/-- The members of an object, with the line breaks in front of each of them and behind the last. -/
theorem writes_prettyMembers {members : List (Text × Json)} {key : Text} {value : Json}
    (depth : Nat) {before behind : Text} (front : IsBlanks before) (back : IsBlanks behind)
    (printable : ∀ member ∈ (key, value) :: members, IsPrintable member.2) :
    Writes (.members ((some key, value) :: members.map fun (key, value) => (some key, value)))
      (before ++ prettyMember depth (some key, value) ++
        prettyMembers depth (members.map fun (key, value) => (some key, value)) ++ behind) := by
  have first := printable _ List.mem_cons_self
  induction members generalizing key value before with
  | nil =>
      rw [List.map_nil, prettyMembers, List.append_nil]
      exact .lastMember (writes_prettyMember key depth front back first)
  | cons next members ih =>
      have others := fun other member => printable other (List.mem_cons_of_mem _ member)
      have more := ih (isBlanks_newLine depth) others (others next List.mem_cons_self)
      have whole := Writes.moreMembers (writes_prettyMember key depth front isBlanks_nil first) more
      rw [List.map_cons, prettyMembers]
      simpa only [List.append_assoc, List.cons_append, List.nil_append] using whole

theorem isPrintable_fields {members : List (Text × Json)}
    (printable : ∀ member ∈ members, IsPrintable member.2) : IsPrintable (fields members) := by
  intro depth
  cases members with
  | nil =>
      rw [fields, List.map_nil, pretty]
      exact .noMembers isBlanks_nil
  | cons member members =>
      have inside := writes_prettyMembers (depth + 1) (isBlanks_newLine (depth + 1))
        (isBlanks_newLine depth) printable
      rw [fields, List.map_cons, pretty]
      exact .object inside

theorem isPrintable_texts (contents : List Text) : IsPrintable (texts contents) := by
  apply isPrintable_array
  intro item member
  obtain ⟨content, -, rfl⟩ := List.mem_map.mp member
  exact isPrintable_text content

/-- What is printed for a value is a document that holds it. -/
theorem IsPrintable.document {value : Json} (printable : IsPrintable value) :
    Document value value.print := by
  have whole := Writes.element isBlanks_nil isBlanks_nil (printable 0)
  rw [List.nil_append, List.append_nil] at whole
  exact whole

end Recase.Json
