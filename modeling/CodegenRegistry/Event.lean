import CodegenRegistry.Catalog
/-!
# Events

What a registry reports about its work, for those who want to follow it.
-/

namespace CodegenRegistry

inductive Event
  | entryAdded (name : String) (kind : Entry.Kind)
  | entryReplaced (name : String) (kind previous : Entry.Kind)
  | registrationRejected (name : String) (kind : Entry.Kind)
  | registrySealed (entries : Nat)
  | nameResolved (name : String) (site : Site) (generators : List String)
  | batchStarted (site : Site) (invocations : Nat)
  | generatorApplied (generator : String) (items : Nat)
  | batchComposed (site : Site) (items : Nat)
deriving DecidableEq, Repr

namespace Event

inductive Level
  | warn
  | debug
  | trace
deriving DecidableEq, Repr

def Level.text : Level → String
  | warn => "WARN"
  | debug => "DEBUG"
  | trace => "TRACE"

def level : Event → Level
  | registrationRejected .. => .warn
  | entryAdded .. | entryReplaced .. | registrySealed .. | batchStarted .. | batchComposed .. =>
    .debug
  | nameResolved .. | generatorApplied .. => .trace

def message : Event → String
  | entryAdded .. => "registry entry added"
  | entryReplaced .. => "registry entry replaced"
  | registrationRejected .. => "registration after seal rejected"
  | registrySealed .. => "registry sealed"
  | nameResolved .. => "resolved generator name"
  | batchStarted .. => "composing batch"
  | generatorApplied .. => "applied generator"
  | batchComposed .. => "batch composed"

def fields : Event → List (String × String)
  | entryAdded name kind => [("name", name), ("kind", kind.text)]
  | entryReplaced name kind previous =>
    [("name", name), ("kind", kind.text), ("previous", previous.text)]
  | registrationRejected name kind => [("name", name), ("kind", kind.text)]
  | registrySealed entries => [("entries", entries.repr)]
  | nameResolved name site generators =>
    [("name", name), ("site", site.text), ("resolved", Text.Quoted.bracketed generators)]
  | batchStarted site invocations =>
    [("site", site.text), ("invocations", invocations.repr)]
  | generatorApplied generator items => [("generator", generator), ("items", items.repr)]
  | batchComposed site items => [("site", site.text), ("items", items.repr)]

end Event

end CodegenRegistry
