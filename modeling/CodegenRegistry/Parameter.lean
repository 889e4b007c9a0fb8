import CodegenRegistry.Argument
import CodegenRegistry.Text.Quoted
/-!
# Parameters

A parameter says how an argument of its name is decoded, and what stands for it when there is
none. Below the operations stand the parameters in stock.
-/

namespace CodegenRegistry

/-- A declared parameter. `expected` tells the reader of an error what would have been accepted. -/
structure Parameter (R α : Type) where
  name : String
  expected : String
  decode : R → Option α
  default : α

namespace Parameter

variable {R α β : Type}

/-- Applies a function to whatever the parameter yields, its default included. -/
def map (f : α → β) (p : Parameter R α) : Parameter R β where
  name := p.name
  expected := p.expected
  decode raw := (p.decode raw).map f
  default := f p.default

def withDefault (d : α) (p : Parameter R α) : Parameter R α :=
  { p with default := d }

def inspect (value : α → String) (p : Parameter R α) : String :=
  Text.Quoted.record "Param"
    [("name", Text.Quoted.quote p.name), ("expected", Text.Quoted.quote p.expected),
      ("default", value p.default)]

/-! ## Parameters in stock -/

section Stock

variable [RawValue R]

def int (name : String) (default : Int) : Parameter R Int :=
  ⟨name, "an integer literal", RawValue.int?, default⟩

def bool (name : String) (default : Bool) : Parameter R Bool :=
  ⟨name, "a boolean literal", RawValue.bool?, default⟩

/-- Set by its own name or by a boolean. -/
def flag (name : String) : Parameter R Bool where
  name := name
  expected := "the flag's own name or a boolean literal"
  decode raw :=
    match RawValue.ident? raw with
    | some ident => if ident = name then some true else none
    | none => RawValue.bool? raw
  default := false

def string (name default : String) : Parameter R String :=
  ⟨name, "a string literal", RawValue.string?, default⟩

def ident (name default : String) : Parameter R String :=
  ⟨name, "an identifier", RawValue.ident?, default⟩

def raw (name : String) : Parameter R (Option R) :=
  ⟨name, "an expression", fun raw => some (some raw), none⟩

def optional (name expected : String) (decode : R → Option α) : Parameter R (Option α) :=
  ⟨name, expected, fun raw => (decode raw).map some, none⟩

def list (name expected : String) (item : R → Option α) : Parameter R (List α) :=
  ⟨name, expected, fun raw => (RawValue.list? raw).bind fun items => items.mapM item, []⟩

def oneOf (name : String) (choices : List (String × α)) (default : α) : Parameter R α where
  name := name
  expected := "one of the listed identifiers"
  decode raw := (RawValue.ident? raw).bind fun ident =>
    (choices.find? fun c => c.1 = ident).map Prod.snd
  default := default

end Stock

/-! ## Names and expectations are kept -/

@[simp] theorem name_map (f : α → β) (p : Parameter R α) : (p.map f).name = p.name := rfl

@[simp] theorem expected_map (f : α → β) (p : Parameter R α) :
    (p.map f).expected = p.expected := rfl

@[simp] theorem name_withDefault (d : α) (p : Parameter R α) :
    (p.withDefault d).name = p.name := rfl

@[simp] theorem expected_withDefault (d : α) (p : Parameter R α) :
    (p.withDefault d).expected = p.expected := rfl

@[simp] theorem decode_withDefault (d : α) (p : Parameter R α) :
    (p.withDefault d).decode = p.decode := rfl

end Parameter

end CodegenRegistry
