import CodegenRegistry.Spelling
/-!
# Settings

What may be set for a registry: how far hints reach, and whether the first batch ends
registration.
-/

namespace CodegenRegistry

structure Settings where
  cutoff : Cutoff := .byLength
  sealOnFirstBatch : Bool := true
deriving DecidableEq, Repr, Inhabited

end CodegenRegistry
