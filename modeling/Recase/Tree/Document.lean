import Recase.Json
import Recase.Text.Encoding
import Recase.Text.Hexadecimal
import Recase.Tree.Building

/-!
# File trees as documents

A JSON object describes a tree by its members.  Each key is a path, and the value says what is at
its end: a text for a file with that content, and an object with one member for anything else.  Its
key is `hex` for a file whose bytes are given in hexadecimal digits, `link` for a symbolic link to
the path given, and `dir` for a directory.

The changes between two trees are described in the same way, a file that is gone by the null value.
-/

namespace Recase.Tree

/-- The content of a file as a value. -/
def contentToJson (bytes : ByteArray) : Json :=
  match Text.decode? bytes with
  | some text => .text text
  | none => .record [("hex".toList, .text (Text.toHexadecimal bytes))]

/-- The thing that a value describes. -/
def Item.ofJson? : Json → Option Item
  | .string (some content) => some (.file (Text.encode content))
  | .object [(some ['h', 'e', 'x'], .string (some digits))] =>
    (Text.ofHexadecimal? digits).map .file
  | .object [(some ['l', 'i', 'n', 'k'], .string (some target))] => some (.link target)
  | .object [(some ['d', 'i', 'r'], _)] => some .directory
  | _ => none

/-- A content is read back as it was written. -/
theorem Item.ofJson?_contentToJson (bytes : ByteArray) :
    Item.ofJson? (contentToJson bytes) = some (.file bytes) := by
  unfold contentToJson
  split
  · next text read => simp [Item.ofJson?, Json.text, Text.encode_of_decode? read]
  · simp [Item.ofJson?, Json.text, Json.record, Json.fields, Index.ofList, Index.insertNew,
      Index.insertEntry, Index.empty]

/-- The tree with what a value describes put into it, by paths from a directory. -/
def placeAll? (tree : Tree) (directory : Location) : Json → Option Tree
  | .object members =>
    members.foldlM
      (fun tree (path, value) => do
        return tree.place directory (← path) (← Item.ofJson? value))
      tree
  | _ => none

/-- The object that describes what has changed below a directory from one tree to another. -/
def changesToJson (before after : Tree) (directory : Location) : Json :=
  .record ((before.changes after directory).map fun (path, bytes) =>
    (path, bytes.elim .null contentToJson))

end Recase.Tree
