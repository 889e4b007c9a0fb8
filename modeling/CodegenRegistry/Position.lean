/-!
# Source positions

A position names a place in a source file. A position without a file stands for code that was
made rather than written; it prints as `<none>`.
-/

namespace CodegenRegistry

/-- A place in a source file: lines and columns count from one. -/
structure Position where
  file : String
  line : Nat
  column : Nat
deriving DecidableEq, Repr

namespace Position

def nowhere : Position := ⟨"", 0, 0⟩

instance : Inhabited Position := ⟨nowhere⟩

/-- A position without a file is nowhere, whatever its line and column. -/
def isNowhere (l : Position) : Bool :=
  l.file == ""

def text (l : Position) : String :=
  if l.isNowhere then "<none>"
  else l.file ++ ":" ++ l.line.repr ++ ":" ++ l.column.repr

instance : Ord Position where
  compare a b :=
    (compare a.file b.file).then ((compare a.line b.line).then (compare a.column b.column))

end Position

structure Positioned (α : Type) where
  value : α
  loc : Position := .nowhere
deriving DecidableEq, Repr

namespace Positioned

def map {α β : Type} (f : α → β) (x : Positioned α) : Positioned β :=
  ⟨f x.value, x.loc⟩

@[simp] theorem value_map {α β : Type} (f : α → β) (x : Positioned α) :
    (x.map f).value = f x.value := rfl

@[simp] theorem loc_map {α β : Type} (f : α → β) (x : Positioned α) :
    (x.map f).loc = x.loc := rfl

end Positioned

end CodegenRegistry
