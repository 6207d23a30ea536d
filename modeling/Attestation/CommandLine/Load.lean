import Attestation.Data.Accessor
import Attestation.Json.Reader

/-!
# Loading documents

Documents are files of UTF-8 text. A statement or schema has to have the right shape; the data of a
subject may be any document. A binding on the command line ties a name to a file.
-/

namespace Attestation

open Json Text

/-- Why nothing could be loaded. -/
inductive LoadFault where
  /-- There is no such file, or it is no text. -/
  | unreadable
  /-- The text is no document. -/
  | notJson
  /-- The document does not describe what it should. -/
  | malformed (what : String) (fault : Fault)
  /-- A binding does not name a file. -/
  | badBinding (binding : String)
  deriving DecidableEq, Repr

def LoadFault.message : LoadFault → String
  | .unreadable => "failed to read the file"
  | .notJson => "invalid JSON"
  | .malformed what fault =>
    match fault.message? with
    | some reason => s!"invalid {what}: {reason}"
    | none => s!"invalid {what}"
  | .badBinding binding => s!"expected NAME=FILE, got `{binding}`"

namespace Load

/-- The document in a file, given the bytes of the file if there is one. -/
def document : Option ByteArray → Except LoadFault Json
  | none => .error .unreadable
  | some content =>
    match String.fromUTF8? content with
    | none => .error .unreadable
    | some text =>
      match parse? text with
      | none => .error .notJson
      | some value => .ok value

/-- What the document in a file describes. -/
def value {α : Type} (what : String) (decode : Decoder α) (content : Option ByteArray) :
    Except LoadFault α := do
  let document ← document content
  (decode document).mapError (.malformed what)

def statement (content : Option ByteArray) : Except LoadFault Syntax.Statement :=
  value "statement" Syntax.Statement.ofJson content

def schema (content : Option ByteArray) : Except LoadFault Schema :=
  value "schema" Schema.ofJson content

def accessor (content : Option ByteArray) : Except LoadFault Accessor :=
  (document content).map .document

/-- The name and the file of a binding `NAME=FILE`, neither of them empty. -/
def binding (text : String) : Except LoadFault (String × String) :=
  match splitOnce? '=' text.toList with
  | some (c :: name, d :: file) => .ok (String.ofList (c :: name), String.ofList (d :: file))
  | _ => .error (.badBinding text)

end Load

end Attestation
