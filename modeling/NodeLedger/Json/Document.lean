import NodeLedger.FileTree.Access
import NodeLedger.Json.Reader
import NodeLedger.Text.Utf8

/-!
# JSON documents in files

- `Json.readFile`: the value of a JSON file, read as UTF-8 with unified line ends.
- `DocumentFault`: why a file holds no JSON value. The file system is asked first, then the bytes
  are decoded, then the text is read.
-/

namespace NodeLedger.Json

open Text

/-- Why a file holds no JSON value. -/
inductive DocumentFault where
  | file (fault : FileFault)
  | encoding (fault : Utf8Fault)
  | text (fault : ReadFault)
  deriving Repr, DecidableEq

/-- The value that bytes stand for. -/
def readBytes [Nesting] (bytes : List UInt8) : Except DocumentFault Json :=
  match decode bytes with
  | .error fault => .error (.encoding fault)
  | .ok text => (read (unifyNewlines text)).mapError .text

/-- The value of a JSON file. -/
def readFile [Nesting] (tree : FileTree) (path : CodeText) : Except DocumentFault Json :=
  match tree.read path with
  | .error fault => .error (.file fault)
  | .ok bytes => readBytes bytes

end NodeLedger.Json
