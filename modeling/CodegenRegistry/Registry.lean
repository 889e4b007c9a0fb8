import CodegenRegistry.Logged
import CodegenRegistry.Settings
/-!
# Registries

A registry holds entries under names. Until it is sealed an entry may be registered, and the last
one of a name counts; afterwards the catalog does not change any more.
-/

namespace CodegenRegistry

structure Registry (H : Host) where
  settings : Settings := {}
  catalog : Catalog H := .empty
  isSealed : Bool := false

structure SealedError where
  name : String
deriving DecidableEq, Repr

def SealedError.message (e : SealedError) : String :=
  "cannot register '" ++ e.name ++ "': registry is sealed"

namespace Registry

variable {H : Host}

def fresh (settings : Settings) : Registry H := { settings }

/-- Registers an entry under a name in place of any earlier one, unless the registry is sealed. -/
def register (r : Registry H) (name : String) (entry : Entry H) :
    Registry H × Logged SealedError String :=
  if r.isSealed then
    (r, ⟨[.registrationRejected name entry.kind], .error ⟨name⟩⟩)
  else
    let event := match r.catalog.find? name with
      | some previous => .entryReplaced name entry.kind previous.kind
      | none => .entryAdded name entry.kind
    ({ r with catalog := r.catalog.insert name entry }, ⟨[event], .ok name⟩)

def endRegistration (r : Registry H) : Registry H × List Event :=
  if r.isSealed then (r, [])
  else ({ r with isSealed := true }, [.registrySealed r.catalog.size])

def startBatch (r : Registry H) : Registry H × List Event :=
  if r.settings.sealOnFirstBatch then r.endRegistration else (r, [])

def contains (r : Registry H) (name : String) : Bool :=
  r.catalog.contains name

def names (r : Registry H) : List String :=
  r.catalog.names

def size (r : Registry H) : Nat :=
  r.catalog.size

def isEmpty (r : Registry H) : Bool :=
  r.size == 0

def describe (r : Registry H) (name : String) : Option Entry.Description :=
  (r.catalog.find? name).map Entry.describe

def expression? (r : Registry H) (name : String) :
    Option (H.Context → H.Declaration → H.Item) :=
  (r.catalog.find? name).bind Entry.expression?

end Registry

end CodegenRegistry
