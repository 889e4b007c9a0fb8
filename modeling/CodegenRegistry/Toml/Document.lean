import CodegenRegistry.Toml.Statement
/-!
# TOML documents

A document is read as the entries of its root table.
-/

namespace CodegenRegistry.Toml

/-- A document under construction: the table that assignments go to, and the root. -/
structure Document where
  current : List String := []
  entries : Entries := []

namespace Document

def add (d : Document) : Statement → Option Document
  | .header path => (d.entries.define path).map fun es => ⟨path, es⟩
  | .assign path item =>
    (d.entries.within d.current (Entries.assign path item)).map fun es => { d with entries := es }

def ofStatements (ss : List Statement) : Option Document :=
  ss.foldlM add {}

def read? (s : String) : Option Entries :=
  ((Token.scan s).bind Statement.all?).bind fun ss => (ofStatements ss).map entries

end Document

end CodegenRegistry.Toml
