import CodegenRegistry.Parameter
/-!
# Schemas

A schema is a list of parameters with distinct names. Binding turns arguments into one value for
each parameter, in the order of the schema, or rejects the first argument that does not decode.
-/

namespace CodegenRegistry

structure Schema (R V : Type) where
  params : List (Parameter R V)
  distinct : (params.map Parameter.name).Nodup

structure Rejection where
  label : String
  loc : Position
  expected : String
deriving DecidableEq, Repr

def Rejection.message (e : Rejection) : String :=
  e.loc.text ++ ": invalid value for argument '" ++ e.label ++ "', expected " ++ e.expected

namespace Schema

structure Duplicate where
  name : String
deriving DecidableEq, Repr

def Duplicate.message (e : Duplicate) : String :=
  "duplicate parameter '" ++ e.name ++ "' in schema"

/-- A construction that was given up for good: nothing but a text is left of it. -/
structure Abort where
  text : String
deriving DecidableEq, Repr

variable {R V : Type}

def empty : Schema R V := ⟨[], .nil⟩

instance : Inhabited (Schema R V) := ⟨empty⟩

def names (s : Schema R V) : List String :=
  s.params.map Parameter.name

def size (s : Schema R V) : Nat :=
  s.params.length

def isEmpty (s : Schema R V) : Bool :=
  s.params.isEmpty

def add (s : Schema R V) (p : Parameter R V) : Except Duplicate (Schema R V) :=
  if h : p.name ∈ s.names then .error ⟨p.name⟩
  else .ok
    { params := s.params ++ [p]
      distinct := by simpa [List.nodup_append, s.distinct, names] using h }

def addOrAbort (s : Schema R V) (p : Parameter R V) : Except Abort (Schema R V) :=
  match s.add p with
  | .ok s => .ok s
  | .error e => .error ⟨e.message⟩

def ofParameters (ps : List (Parameter R V)) : Except Duplicate (Schema R V) :=
  ps.foldlM add empty

def ofParametersOrAbort (ps : List (Parameter R V)) : Except Abort (Schema R V) :=
  ps.foldlM addOrAbort empty

@[simp] theorem names_empty : (empty : Schema R V).names = [] := rfl

/-! ## Binding -/

variable [RawValue R]

def bindOne (args : List (Argument R)) (p : Parameter R V) : Except Rejection V :=
  match Argument.find? args p.name with
  | none => .ok p.default
  | some a =>
    match p.decode a.value with
    | some v => .ok v
    | none => .error ⟨p.name, RawValue.loc a.value, p.expected⟩

/-- The values of all parameters, in the order of the schema. Arguments of other names play no
part. -/
def bind (s : Schema R V) (args : List (Argument R)) : Except Rejection (List V) :=
  s.params.mapM (bindOne args)

def inspect (s : Schema R V) : String :=
  Text.Quoted.record "Schema" [("names", Text.Quoted.bracketed s.names)]

end Schema

end CodegenRegistry
