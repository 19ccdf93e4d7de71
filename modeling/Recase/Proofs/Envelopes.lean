import Recase.Command
import Recase.Proofs.Printing
import Mathlib

/-!
# Printed envelopes

Whatever a command ends with, what it prints is one document, and the document holds the envelope of
the ending: all that goes into an envelope are texts, truth values and natural numbers, and arrays
and objects of them.
-/

namespace Recase

/-! ## Natural numbers -/

namespace Text

theorem isDigit_of_mem_ofNat {number : Nat} {c : Char} (member : c ∈ ofNat number) :
    c.isDigit = true :=
  Nat.isDigit_of_mem_toDigits (by decide) (by decide) member

theorem ofNat_of_lt {number : Nat} (small : number < 10) : ofNat number = [Nat.digitChar number] :=
  Nat.toDigits_of_lt_base small

theorem ofNat_of_le {number : Nat} (great : 10 ≤ number) :
    ofNat number = ofNat (number / 10) ++ [Nat.digitChar (number % 10)] :=
  Nat.toDigits_of_base_le (by decide) great

/-- The digits of a positive number do not begin with a zero. -/
theorem exists_head_ofNat {number : Nat} (positive : 0 < number) :
    ∃ c rest, ofNat number = c :: rest ∧ c ≠ '0' := by
  induction number using Nat.strongRecOn with
  | ind number ih =>
      by_cases small : number < 10
      · have nonzero : ∀ digit : Fin 10, 0 < digit.val → Nat.digitChar digit.val ≠ '0' := by decide
        exact ⟨_, [], ofNat_of_lt small, nonzero ⟨number, small⟩ positive⟩
      · obtain ⟨c, rest, front, nonzero⟩ := ih (number / 10) (by omega) (by omega)
        refine ⟨c, rest ++ [Nat.digitChar (number % 10)], ?_, nonzero⟩
        rw [ofNat_of_le (by omega), front, List.cons_append]

end Text

namespace Json

theorem isWhole_ofNat (number : Nat) : IsWhole (Text.ofNat number) := by
  cases number with
  | zero => exact .inl (Text.ofNat_of_lt (by decide))
  | succ number =>
      obtain ⟨c, rest, digits, nonzero⟩ := Text.exists_head_ofNat number.succ_pos
      refine .inr ⟨⟨?_, fun c member => Text.isDigit_of_mem_ofNat member⟩, ?_⟩
      · simp [digits]
      · simp [digits, nonzero]

theorem isPrintable_nat (number : Nat) : IsPrintable (nat number) := by
  intro depth
  have whole := IsNumber.intro [] (Text.ofNat number) [] [] (.inl rfl) (isWhole_ofNat number)
    (.inl rfl) (.inl rfl)
  rw [List.nil_append, List.append_nil, List.append_nil] at whole
  rw [nat, pretty]
  exact .number whole

/-! ## Members -/

/-- Whether the values of all members can be printed. -/
def ArePrintable (members : List (Text × Json)) : Prop :=
  ∀ member ∈ members, IsPrintable member.2

namespace ArePrintable

variable {members others : List (Text × Json)} {key : Text} {value : Json}

theorem nil : ArePrintable [] :=
  fun _ member => absurd member List.not_mem_nil

theorem cons (first : IsPrintable value) (rest : ArePrintable members) :
    ArePrintable ((key, value) :: members) :=
  List.forall_mem_cons.mpr ⟨first, rest⟩

theorem append (left : ArePrintable members) (right : ArePrintable others) :
    ArePrintable (members ++ others) :=
  List.forall_mem_append.mpr ⟨left, right⟩

theorem optional {value : Option Json} (printable : ∀ present ∈ value, IsPrintable present) :
    ArePrintable (Json.optional key value) := by
  cases value with
  | none => exact .nil
  | some present => exact .cons (printable present rfl) .nil

theorem record (printable : ArePrintable members) : IsPrintable (Json.record members) :=
  isPrintable_fields fun member listed => printable member (Index.mem_of_mem_ofList listed)

end ArePrintable

end Json

/-! ## What commands print -/

open Json (ArePrintable IsPrintable isPrintable_text isPrintable_texts isPrintable_bool
  isPrintable_nat isPrintable_array isPrintable_fields)

theorem Json.isPrintable_of_mem_map_text {text : Option Text} {value : Json}
    (member : value ∈ text.map Json.text) : IsPrintable value := by
  obtain ⟨content, -, rfl⟩ := Option.mem_map.mp member
  exact isPrintable_text content

theorem Json.isPrintable_map {α : Type} {toJson : α → Json}
    (printable : ∀ item, IsPrintable (toJson item)) (items : List α) :
    IsPrintable (.array (items.map toJson)) := by
  apply isPrintable_array
  intro value member
  obtain ⟨item, -, rfl⟩ := List.mem_map.mp member
  exact printable item

namespace Error

theorem arePrintable_particulars (cause : Cause) : ArePrintable cause.particulars := by
  have optional (key : Text) (text : Option Text) :
      ArePrintable (Json.optional key (text.map Json.text)) :=
    .optional fun _ => Json.isPrintable_of_mem_map_text
  cases cause with
  | malformedConfig path => exact .cons (isPrintable_text path) .nil
  | invalidSetting key value problem =>
      exact .append (.cons (isPrintable_text key) (optional _ value))
        (.cons (isPrintable_text problem) .nil)
  | missingArguments names => exact .cons (isPrintable_texts names) .nil
  | invalidArgument field problem =>
      exact .cons (isPrintable_text field) (.cons (isPrintable_text problem) .nil)
  | sourceNotFound path reason => exact .cons (isPrintable_text path) .nil
  | placeholderCollision placeholder file =>
      exact .cons (isPrintable_text [placeholder]) (optional _ file)
  | versionControl reason => exact .nil
  | system reason context => exact optional _ context
  | json reason context => exact optional _ context
  | unexpected reason => exact .nil
  | custom => exact .nil

theorem isPrintable_details {cause : Cause} (builtIn : cause.IsBuiltIn) :
    IsPrintable cause.details := by
  rw [Cause.details_of_isBuiltIn builtIn]
  exact (ArePrintable.append (arePrintable_particulars cause)
    (.optional fun _ => Json.isPrintable_of_mem_map_text)).record

theorem isPrintable_toJson {error : Error} (builtIn : error.cause.IsBuiltIn) :
    IsPrintable error.toJson := by
  have hint (text : Text) : IsPrintable (.fields [("message".toList, .text text)]) :=
    isPrintable_fields (ArePrintable.cons (isPrintable_text text) .nil)
  apply isPrintable_fields
  refine ArePrintable.append ?_ ?_
  · exact .cons (isPrintable_text _) (.cons (isPrintable_text _)
      (.cons (isPrintable_details builtIn) .nil))
  · apply ArePrintable.optional
    intro present member
    split at member
    · cases member
    · cases member
      exact Json.isPrintable_map hint error.hints

end Error

theorem FileRewrite.isPrintable_toJson (rewrite : FileRewrite) : IsPrintable rewrite.toJson := by
  have renames : IsPrintable (Renames.toJson rewrite.renames) := by
    apply isPrintable_fields
    intro member listed
    obtain ⟨⟨old, new⟩, -, rfl⟩ := List.mem_map.mp listed
    exact isPrintable_text new
  exact (ArePrintable.cons (isPrintable_text rewrite.file) (.cons (isPrintable_nat _)
    (.cons renames (.cons (isPrintable_bool rewrite.written) .nil)))).record

theorem FileFailure.isPrintable_toJson (failure : FileFailure) : IsPrintable failure.toJson :=
  (ArePrintable.cons (isPrintable_text failure.file) (.cons (isPrintable_text _)
    (.cons (isPrintable_text _) .nil))).record

theorem RestoreOutcome.isPrintable_toJson (outcome : RestoreOutcome) :
    IsPrintable outcome.toJson := by
  apply ArePrintable.record
  refine .cons (isPrintable_text outcome.root) ?_
  cases outcome.result with
  | restored => exact .cons (isPrintable_bool true) .nil
  | skipped => exact .cons (isPrintable_bool false) (.cons (isPrintable_bool true) .nil)
  | failed reason => exact .cons (isPrintable_bool false) (.cons (isPrintable_text reason) .nil)

theorem Report.isPrintable_toJson (report : Report) : IsPrintable report.toJson := by
  have files := Json.isPrintable_map FileRewrite.isPrintable_toJson report.files
  apply ArePrintable.record
  refine .append (.append ?_ ?_) ?_
  · exact .cons (isPrintable_text _) (.cons (isPrintable_bool _) (.cons files
      (.cons (isPrintable_nat _) (.cons (isPrintable_nat _) (.cons (isPrintable_nat _) .nil)))))
  · apply ArePrintable.optional
    intro present member
    obtain ⟨outcome, -, rfl⟩ := Option.mem_map.mp member
    exact outcome.isPrintable_toJson
  · apply ArePrintable.optional
    intro present member
    split at member
    · cases member
    · cases member
      exact Json.isPrintable_map FileFailure.isPrintable_toJson report.failures

theorem Explanation.isPrintable_toJson (explanation : Explanation) :
    IsPrintable explanation.toJson := by
  apply ArePrintable.record
  refine .append ?_ (.optional fun _ => Json.isPrintable_of_mem_map_text)
  exact .cons (isPrintable_text _) (.cons (isPrintable_bool _) (.cons (isPrintable_text _)
    (.cons (isPrintable_bool _) .nil)))

theorem Command.isPrintable_listing (config : Config) (files : List Text) :
    IsPrintable (listing config files) :=
  (ArePrintable.cons (isPrintable_texts config.paths) (.cons (isPrintable_texts config.suffixes)
    (.cons (isPrintable_texts files) (.cons (isPrintable_nat _) .nil)))).record

namespace Ending

theorem isPrintable_failure {error : Error} (builtIn : error.cause.IsBuiltIn) :
    IsPrintable (failure error).envelope :=
  isPrintable_fields (ArePrintable.cons (isPrintable_bool false)
    (.cons (Error.isPrintable_toJson builtIn) .nil))

theorem isPrintable_success {data : Json} (printable : IsPrintable data) (status : Int) :
    IsPrintable (success data status).envelope :=
  isPrintable_fields (ArePrintable.cons (isPrintable_bool true) (.cons printable .nil))

/-- The output is one document, which holds the envelope. -/
theorem document_output {ending : Ending} (printable : IsPrintable ending.envelope) :
    Json.Document ending.envelope ending.output := by
  have blank : Json.IsBlanks ['\n'] := by simp [Json.IsBlanks, Json.isBlank]
  have whole := Json.Writes.element Json.isBlanks_nil blank (printable 0)
  rw [List.nil_append] at whole
  exact whole

end Ending

end Recase
