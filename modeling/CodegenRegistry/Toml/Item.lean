import CodegenRegistry.Choice
/-!
# TOML items

The values of a TOML document. A table remembers how it came about, since that decides what may
be added to it later. No operation here removes or changes a value that stands already.
-/

namespace CodegenRegistry.Toml

/-- How a table came about: named by a header, implied by a longer header, built by dotted keys,
or written between braces. -/
inductive Origin
  | header
  | implied
  | dotted
  | braces
deriving DecidableEq, Repr

inductive Item
  | string (s : String)
  | integer (n : Int)
  | boolean (b : Bool)
  | array (items : List Item)
  | table (origin : Origin) (entries : List (String × Item))

abbrev Entries := List (String × Item)

namespace Entries

def replace (key : String) (item : Item) (es : Entries) : Entries :=
  es.map fun e => if e.1 = key then (key, item) else e

/-- Adds an item under a dotted key. Every key but the last names a table, which is new or was
built by dotted keys or implied; the last key must be new. -/
def assign : List String → Item → Entries → Option Entries
  | [], _, _ => none
  | [key], item, es =>
    match es.lookup key with
    | none => some (es ++ [(key, item)])
    | some _ => none
  | key :: path, item, es =>
    match es.lookup key with
    | none => (assign path item []).map fun sub => es ++ [(key, .table .dotted sub)]
    | some (.table origin sub) =>
      if origin = .dotted ∨ origin = .implied then
        (assign path item sub).map fun sub => replace key (.table origin sub) es
      else none
    | some _ => none

/-- Makes the table that a header names, and those on the way to it that are missing. The table
itself must be new or implied so far. -/
def define : List String → Entries → Option Entries
  | [], _ => none
  | [key], es =>
    match es.lookup key with
    | none => some (es ++ [(key, .table .header [])])
    | some (.table .implied sub) => some (replace key (.table .header sub) es)
    | some _ => none
  | key :: path, es =>
    match es.lookup key with
    | none => (define path []).map fun sub => es ++ [(key, .table .implied sub)]
    | some (.table origin sub) =>
      if origin = .braces then none
      else (define path sub).map fun sub => replace key (.table origin sub) es
    | some _ => none

def within : List String → (Entries → Option Entries) → Entries → Option Entries
  | [], f, es => f es
  | key :: path, f, es =>
    match es.lookup key with
    | some (.table origin sub) =>
      (within path f sub).map fun sub => replace key (.table origin sub) es
    | _ => none

end Entries

namespace Item

/-- What an item is as the payload of a choice: an array or a table without elements is empty. -/
def payload : Item → Payload
  | integer n => .number n
  | array [] | table _ [] => .empty
  | _ => .other

def choice? : Item → Option Choice
  | string s => some { name := s }
  | table _ [(key, item)] => some ⟨key, item.payload⟩
  | _ => none

end Item

end CodegenRegistry.Toml
