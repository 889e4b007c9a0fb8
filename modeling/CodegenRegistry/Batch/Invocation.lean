import CodegenRegistry.Diagnostic
import CodegenRegistry.Spelling
/-!
# Invocations

An invocation uses a name with arguments. The checks here look at one invocation alone: every
argument needs a label, no label comes twice, and each has to be accepted by some generator.
-/

namespace CodegenRegistry

structure Invocation (R : Type) where
  name : Positioned String
  args : List (Argument R) := []

namespace Invocation

variable {R : Type}

/-- The first argument whose label was used before. -/
def repeated? (earlier : List String) : List (Argument R) → Option (Argument R)
  | [] => none
  | a :: rest =>
    if a.label ∈ earlier then some a else repeated? (a.label :: earlier) rest

variable [RawValue R]

def checkLabels (inv : Invocation R) : Except Diagnostic Unit :=
  match inv.args.find? fun a => a.label?.isNone with
  | some a => .error (.positionalArgument inv.name.value (RawValue.loc a.value))
  | none =>
    match repeated? [] inv.args with
    | some a => .error (.duplicateArgument a.label (RawValue.loc a.value))
    | none => .ok ()

def checkAccepted (cutoff : Cutoff) (accepted : List String) (inv : Invocation R) :
    Except Diagnostic Unit :=
  match inv.args.find? fun a => a.label ∉ accepted with
  | some a =>
    .error (.unknownArgument inv.name.value a.label (RawValue.loc a.value)
      (Spelling.suggest cutoff a.label accepted))
  | none => .ok ()

end Invocation

end CodegenRegistry
