import Recase.Text

/-!
# UTF-8

Files and the output of programs are bytes.  A file is read as a text only if all of its bytes are
UTF-8.  The output of a program is read whatever it is: where its bytes are malformed, the
replacement character stands for them.
-/

namespace Recase.Text

/-- The bytes of a text. -/
def encode (text : Text) : ByteArray :=
  (String.ofList text).toByteArray

/-- The text that consists of some bytes, if they are well-formed. -/
def decode? (bytes : ByteArray) : Option Text :=
  (String.fromUTF8? bytes).map String.toList

@[simp] theorem decode?_encode (text : Text) : decode? (encode text) = some text := by
  have valid : (encode text).IsValidUTF8 := (String.ofList text).isValidUTF8
  have equal : String.fromUTF8 (encode text) valid = String.ofList text := rfl
  simp [decode?, String.fromUTF8?, valid, equal]

/-- Bytes that are read as a text are the bytes of that text. -/
theorem encode_of_decode? {bytes : ByteArray} {text : Text} (read : decode? bytes = some text) :
    encode text = bytes := by
  obtain ⟨string, found, rfl⟩ := Option.map_eq_some_iff.mp read
  unfold String.fromUTF8? at found
  split at found
  · cases found
    rw [encode, String.ofList_toList]
    rfl
  · cases found

/-- The character that stands for malformed bytes. -/
def replacement : Char := '\uFFFD'

/-- What may follow the first byte of a character that takes several bytes: how many bytes, the
least and the greatest value of the next one, and the bits that the first byte contributes. -/
structure Lead where
  count : Nat
  low : Nat
  high : Nat
  bits : Nat

/-- Read the first byte of a character that takes several bytes. -/
def lead? (byte : Nat) : Option Lead :=
  if 0xC2 ≤ byte ∧ byte ≤ 0xDF then some ⟨1, 0x80, 0xBF, byte - 0xC0⟩
  else if byte = 0xE0 then some ⟨2, 0xA0, 0xBF, 0⟩
  else if byte = 0xED then some ⟨2, 0x80, 0x9F, 0x0D⟩
  else if 0xE1 ≤ byte ∧ byte ≤ 0xEF then some ⟨2, 0x80, 0xBF, byte - 0xE0⟩
  else if byte = 0xF0 then some ⟨3, 0x90, 0xBF, 0⟩
  else if 0xF1 ≤ byte ∧ byte ≤ 0xF3 then some ⟨3, 0x80, 0xBF, byte - 0xF0⟩
  else if byte = 0xF4 then some ⟨3, 0x80, 0x8F, 0x04⟩
  else none

/-- The leading bytes that continue a character, `count` of them at most. -/
def continuation : Nat → Nat → Nat → List Nat → List Nat
  | count + 1, low, high, byte :: rest =>
    if low ≤ byte ∧ byte ≤ high then byte :: continuation count 0x80 0xBF rest else []
  | _, _, _, _ => []

/-- The text that some bytes stand for.  Of a malformed sequence the longest part that begins a
character is replaced as a whole. -/
def decodeLossyBytes (bytes : List Nat) : Text :=
  match bytes with
  | [] => []
  | byte :: rest =>
    if byte < 0x80 then
      Char.ofNat byte :: decodeLossyBytes rest
    else
      match lead? byte with
      | none => replacement :: decodeLossyBytes rest
      | some lead =>
        let following := continuation lead.count lead.low lead.high rest
        let c :=
          if following.length = lead.count then
            Char.ofNat (following.foldl (fun code next => 0x40 * code + (next - 0x80)) lead.bits)
          else
            replacement
        c :: decodeLossyBytes (rest.drop following.length)
termination_by bytes.length
decreasing_by all_goals simp only [List.length_drop, List.length_cons]; omega

/-- The text that the output of a program stands for. -/
def decodeLossy (bytes : ByteArray) : Text :=
  decodeLossyBytes (bytes.toList.map UInt8.toNat)

end Recase.Text
