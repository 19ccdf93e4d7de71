import Recase.Text

/-!
# Hexadecimal digits

Bytes that are no text are written with two hexadecimal digits each, in lower case.  What is written
in this way is read back as it was.  Digits are read in either case.
-/

namespace Recase.Text

/-- The value of a hexadecimal digit. -/
def digitValue? (c : Char) : Option Nat :=
  if '0' ≤ c ∧ c ≤ '9' then some (c.toNat - '0'.toNat)
  else if 'a' ≤ c ∧ c ≤ 'f' then some (c.toNat - 'a'.toNat + 10)
  else if 'A' ≤ c ∧ c ≤ 'F' then some (c.toNat - 'A'.toNat + 10)
  else none

/-- The two digits of a byte. -/
def byteDigits (byte : UInt8) : Text :=
  [Nat.digitChar (byte.toNat / 16), Nat.digitChar (byte.toNat % 16)]

/-- The bytes that digits spell, each two of them one byte. -/
def bytesOfDigits? : Text → Option (List UInt8)
  | [] => some []
  | [_] => none
  | high :: low :: rest => do
    let byte := UInt8.ofNat (16 * (← digitValue? high) + (← digitValue? low))
    return byte :: (← bytesOfDigits? rest)

theorem digitValue?_digitChar : ∀ value : Fin 16,
    digitValue? (Nat.digitChar value) = some value.val := by
  decide

/-- Digits spell the bytes that they were made from. -/
@[simp] theorem bytesOfDigits?_flatMap (bytes : List UInt8) :
    bytesOfDigits? (bytes.flatMap byteDigits) = some bytes := by
  induction bytes with
  | nil => rfl
  | cons byte bytes ih =>
      have small : byte.toNat / 16 < 16 := by
        have := byte.toNat_lt
        omega
      have high := digitValue?_digitChar ⟨byte.toNat / 16, small⟩
      have low := digitValue?_digitChar ⟨byte.toNat % 16, Nat.mod_lt _ (by decide)⟩
      have whole : UInt8.ofNat (16 * (byte.toNat / 16) + byte.toNat % 16) = byte := by
        rw [Nat.div_add_mod, UInt8.ofNat_toNat]
      simp only [List.flatMap_cons, byteDigits, List.cons_append, List.nil_append, bytesOfDigits?,
        high, low, ih]
      exact congrArg (fun first => some (first :: bytes)) whole

/-- Bytes in hexadecimal digits. -/
def toHexadecimal (bytes : ByteArray) : Text :=
  bytes.data.toList.flatMap byteDigits

/-- The bytes that hexadecimal digits spell. -/
def ofHexadecimal? (text : Text) : Option ByteArray :=
  (bytesOfDigits? text).map fun bytes => ⟨bytes.toArray⟩

@[simp] theorem ofHexadecimal?_toHexadecimal (bytes : ByteArray) :
    ofHexadecimal? (toHexadecimal bytes) = some bytes := by
  simp [ofHexadecimal?, toHexadecimal]

end Recase.Text
