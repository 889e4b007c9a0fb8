import CodegenRegistry.Settings
import CodegenRegistry.Toml.Document
/-!
# Settings files

Settings are read from a TOML document. What the document leaves out keeps its default; a key or
a value that means nothing is an error, so that a misspelling cannot go unnoticed.
-/

namespace CodegenRegistry.Settings

inductive FileError
  | unreadable (path reason : String)
  | malformed
deriving DecidableEq, Repr

def FileError.message : FileError → String
  | unreadable path reason => "failed to read " ++ path ++ ": " ++ reason
  | malformed => "TOML parse error"

def apply (s : Settings) : String × Toml.Item → Option Settings
  | (key, item) =>
    if key = "suggestion-cutoff" then
      (item.choice?.bind Cutoff.ofChoice?).map fun c => { s with cutoff := c }
    else if key = "seal-on-first-batch" then
      match item with
      | .boolean b => some { s with sealOnFirstBatch := b }
      | _ => none
    else none

def ofEntries? (es : Toml.Entries) : Option Settings :=
  es.foldlM apply {}

def parse (s : String) : Except FileError Settings :=
  match (Toml.Document.read? s).bind ofEntries? with
  | some settings => .ok settings
  | none => .error .malformed

def fileName : String := "deriva.toml"

inductive FileState
  | missing
  | unreadable (reason : String)
  | contents (bytes : ByteArray)

/-- Settings from a file. A file that is not there sets nothing; one that cannot be read as text
is an error. -/
def load (path : String) : FileState → Except FileError Settings
  | .missing => .ok {}
  | .unreadable reason => .error (.unreadable path reason)
  | .contents bytes =>
    match String.fromUTF8? bytes with
    | some s => parse s
    | none => .error (.unreadable path "stream did not contain valid UTF-8")

end CodegenRegistry.Settings
