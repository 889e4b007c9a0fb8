import CodegenRegistry.Choice
/-!
# Sites

A site is the kind of declaration that generated code is attached to. Three kinds sit in an
implementation and three in an interface. What differs from site to site is a function on them.
-/

namespace CodegenRegistry

inductive Site
  | structureType
  | signatureType
  | structureExtension
  | signatureExtension
  | structureException
  | signatureException
deriving DecidableEq, Repr

namespace Site

/-- Every site, in the order in which descriptions list them. -/
def all : List Site :=
  [structureType, signatureType, structureExtension, signatureExtension, structureException,
    signatureException]

def text : Site → String
  | structureType => "str_type_decl"
  | signatureType => "sig_type_decl"
  | structureExtension => "str_type_ext"
  | signatureExtension => "sig_type_ext"
  | structureException => "str_exception"
  | signatureException => "sig_exception"

def isStructure : Site → Bool
  | structureType | structureExtension | structureException => true
  | signatureType | signatureExtension | signatureException => false

def index (s : Site) : Nat :=
  all.idxOf s

structure Unknown where
  name : String
deriving DecidableEq, Repr

def Unknown.message (e : Unknown) : String :=
  "unknown site kind '" ++ e.name ++ "'"

def ofText (s : String) : Except Unknown Site :=
  match all.find? (·.text == s) with
  | some site => .ok site
  | none => .error ⟨s⟩

def ofChoice? (c : Choice) : Option Site :=
  c.bare?.bind fun name => (ofText name).toOption

def assign {β : Type} (s : Site) (b : β) (f : Site → β) : Site → β :=
  fun t => if t = s then b else f t

theorem mem_all (s : Site) : s ∈ all := by
  cases s <;> decide

@[simp] theorem assign_self {β : Type} (s : Site) (b : β) (f : Site → β) :
    assign s b f s = b := by
  simp [assign]

theorem assign_of_ne {β : Type} {s t : Site} (b : β) (f : Site → β) (h : t ≠ s) :
    assign s b f t = f t := by
  simp [assign, h]

end Site

end CodegenRegistry
