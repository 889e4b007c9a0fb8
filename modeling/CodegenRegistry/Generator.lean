import CodegenRegistry.Binding
/-!
# Generators

A generator turns the values of its schema into items for one declaration.
-/

namespace CodegenRegistry

/-- The types of a host language. A batch shares one context and one declaration; `Raw` is an
argument value as written and `Value` a decoded one. -/
structure Host where
  Context : Type
  Declaration : Type
  Item : Type
  Raw : Type
  Value : Type
  [rawValue : RawValue Raw]

instance (H : Host) : RawValue H.Raw := H.rawValue

def Host.text : Host where
  Context := String
  Declaration := String
  Item := String
  Raw := String
  Value := String
  rawValue := { loc := fun _ => .nowhere, string? := some }

/-- A schema with the function that makes the items. The dependencies are names whose generators
have to come earlier in a batch; the tags are passed on to the caller. -/
structure Generator (H : Host) where
  schema : Schema H.Raw H.Value
  produce : H.Context → H.Declaration → List H.Value → List H.Item
  dependencies : List String := []
  tags : List String := []

namespace Generator

variable {H : Host}

def ofItems (items : H.Context → H.Declaration → List H.Item) : Generator H where
  schema := .empty
  produce context declaration _ := items context declaration

def accepted (g : Generator H) : List String :=
  g.schema.names.mergeSort (· ≤ ·)

def run (g : Generator H) (context : H.Context) (declaration : H.Declaration)
    (args : List (Argument H.Raw)) : Except Rejection (List H.Item) :=
  (g.schema.bind args).map (g.produce context declaration)

def inspect (g : Generator H) : String :=
  Text.Quoted.record "Generator"
    [("accepted", Text.Quoted.braced g.accepted),
      ("dependencies", Text.Quoted.bracketed g.dependencies),
      ("tags", Text.Quoted.bracketed g.tags)]

@[simp] theorem mem_accepted {g : Generator H} {label : String} :
    label ∈ g.accepted ↔ label ∈ g.schema.names := by
  simp [accepted]

end Generator

end CodegenRegistry
