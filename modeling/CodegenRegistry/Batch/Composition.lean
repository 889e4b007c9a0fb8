import CodegenRegistry.Batch.Invocation
import CodegenRegistry.Resolution
/-!
# Composition of batches

A batch is the list of invocations at one declaration. They are checked and applied in order, and
the first fault ends the batch: nothing of it is kept but the events.
-/

namespace CodegenRegistry

structure Attachment (H : Host) where
  site : Site
  context : H.Context
  declaration : H.Declaration

/-- What a batch contributes: items in the order in which they were made, and each tag once, in
the order in which it first came up. -/
structure Composition (H : Host) where
  items : List H.Item := []
  tags : List String := []

def Composition.addTags (tags new : List String) : List String :=
  new.foldl (fun tags tag => if tag ∈ tags then tags else tags ++ [tag]) tags

def Composition.add {H : Host} (c : Composition H) (items : List H.Item) (tags : List String) :
    Composition H :=
  ⟨c.items ++ items, addTags c.tags tags⟩

namespace Registry

variable {H : Host}

/-- Everything that a dependency stands for has to be among the generators seen earlier. -/
def checkDependency (r : Registry H) (site : Site) (loc : Position) (seen : List String)
    (requiredBy dependency : String) : Logged Diagnostic Unit := do
  let required ← r.resolve site ⟨dependency, loc⟩
  if required.all fun g => g.name ∈ seen then pure ()
  else .fail (.missingDependency dependency requiredBy loc)

def checkDependencies (r : Registry H) (site : Site) (loc : Position) (seen : List String)
    (found : List (Resolved H)) : Logged Diagnostic Unit :=
  found.forM fun g =>
    g.generator.dependencies.forM fun d => r.checkDependency site loc seen g.name d

def check (r : Registry H) (site : Site) (seen : List String) (inv : Invocation H.Raw) :
    Logged Diagnostic (List (Resolved H)) := do
  .ofExcept inv.checkLabels
  let found ← r.resolve site inv.name
  let accepted := found.flatMap fun g => g.generator.accepted
  .ofExcept (inv.checkAccepted r.settings.cutoff accepted)
  r.checkDependencies site inv.name.loc seen found
  pure found

def applyGenerator (a : Attachment H) (args : List (Argument H.Raw)) (c : Composition H)
    (g : Resolved H) : Logged Diagnostic (Composition H) := do
  let items ← .ofExcept ((g.generator.run a.context a.declaration args).mapError .invalidArgument)
  .report (.generatorApplied g.name items.length)
  pure (c.add items g.generator.tags)

structure BatchProgress (H : Host) where
  seen : List String := []
  composition : Composition H := {}

def applyInvocation (r : Registry H) (a : Attachment H) (p : BatchProgress H)
    (inv : Invocation H.Raw) : Logged Diagnostic (BatchProgress H) := do
  let found ← r.check a.site p.seen inv
  let composition ← found.foldlM (applyGenerator a inv.args) p.composition
  pure ⟨p.seen ++ found.map Resolved.name, composition⟩

def composeAll (r : Registry H) (a : Attachment H) (invs : List (Invocation H.Raw)) :
    Logged Diagnostic (Composition H) := do
  .report (.batchStarted a.site invs.length)
  let p ← invs.foldlM (r.applyInvocation a) {}
  .report (.batchComposed a.site p.composition.items.length)
  pure p.composition

/-- Runs a batch. It may end registration, and does so even if it fails. -/
def compose (r : Registry H) (a : Attachment H) (invs : List (Invocation H.Raw)) :
    Registry H × Logged Diagnostic (Composition H) :=
  let started := r.startBatch
  let composed := started.1.composeAll a invs
  (started.1, ⟨started.2 ++ composed.log, composed.result⟩)

def runBatch (r : Registry H) (a : Attachment H) (invs : List (Invocation H.Raw)) :
    Registry H × Logged Diagnostic (List H.Item) :=
  let composed := r.compose a invs
  (composed.1, Composition.items <$> composed.2)

/-- Runs each generator of a name on its own, without the checks of a batch. -/
def applyName (r : Registry H) (a : Attachment H) (name : Positioned String)
    (args : List (Argument H.Raw)) :
    Logged Diagnostic (List (String × Except Rejection (List H.Item))) := do
  let found ← r.resolve a.site name
  pure (found.map fun g => (g.name, g.generator.run a.context a.declaration args))

end Registry

end CodegenRegistry
