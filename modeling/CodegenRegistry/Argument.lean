import CodegenRegistry.Position
/-!
# Arguments

An argument is a value under a label. The values belong to the host language; `RawValue` is all
that this library asks of them.
-/

namespace CodegenRegistry

/-- What the argument values of a host language can be read as. A reading refuses every value
unless the host says otherwise. -/
class RawValue (R : Type) where
  loc : R → Position
  int? : R → Option Int := fun _ => none
  bool? : R → Option Bool := fun _ => none
  string? : R → Option String := fun _ => none
  ident? : R → Option String := fun _ => none
  list? : R → Option (List R) := fun _ => none

structure Argument (R : Type) where
  written : Option String
  value : R

namespace Argument

variable {R : Type}

def labelled (label : String) (value : R) : Argument R := ⟨some label, value⟩

def positional (value : R) : Argument R := ⟨none, value⟩

/-- The label of an argument; an empty label is none. -/
def label? (a : Argument R) : Option String :=
  a.written.filter (· ≠ "")

def label (a : Argument R) : String :=
  a.label?.getD ""

@[simp] theorem label?_positional (v : R) : (positional v).label? = none := rfl

theorem label?_labelled {s : String} (v : R) (h : s ≠ "") :
    (labelled s v).label? = some s := by
  simp [label?, labelled, Option.filter, h]

theorem ne_empty_of_label? {a : Argument R} {s : String} (h : a.label? = some s) : s ≠ "" := by
  rw [label?, Option.filter_eq_some_iff] at h
  simpa using h.2

def find? (args : List (Argument R)) (label : String) : Option (Argument R) :=
  args.find? fun a => a.label? = some label

end Argument

end CodegenRegistry
