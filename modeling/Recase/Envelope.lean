import Recase.Error
import Recase.Json.Printer

/-!
# Envelopes

What a command prints is one JSON object, which holds either the data of a success or the error of a
failure.  The exit status goes with it.
-/

namespace Recase

/-- How a command ended: with its data and an exit status, or with an error. -/
inductive Ending where
  | success (data : Json) (status : Int)
  | failure (error : Error)

/-- The error as a part of an envelope.  Hints are left out if there are none. -/
def Error.toJson (error : Error) : Json :=
  let hints := error.hints.map fun hint => Json.fields [("message".toList, .text hint)]
  .fields (
    [("code".toList, .text error.cause.code),
      ("message".toList, .text error.cause.message),
      ("details".toList, error.cause.details)] ++
    Json.optional "hints".toList (if hints.isEmpty then none else some (.array hints)))

namespace Ending

/-- Whether the command succeeded. -/
def isSuccess : Ending → Bool
  | success .. => true
  | failure _ => false

/-- The envelope. -/
def envelope (ending : Ending) : Json :=
  .fields [
    ("success".toList, .bool ending.isSuccess),
    match ending with
    | success data _ => ("data".toList, data)
    | failure error => ("error".toList, error.toJson)]

/-- What the command prints: the envelope and a line feed. -/
def output (ending : Ending) : Text :=
  ending.envelope.print ++ ['\n']

/-- The exit status before it is fitted into a byte. -/
def status : Ending → Int
  | success _ status => status
  | failure error => error.cause.exitStatus

/-- The exit status of the process, which is a byte: greater values become the greatest byte and
lesser values become zero. -/
def exitByte (ending : Ending) : Nat :=
  min ending.status.toNat 255

end Ending

end Recase
