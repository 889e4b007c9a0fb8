import CodegenRegistry.Batch.Composition
/-!
# Sessions

A session is a sequence of operations on one registry. Each gives a reply and reports events; only
registrations, the end of registration and batches leave a changed registry behind.
-/

namespace CodegenRegistry

inductive Operation (H : Host)
  | register (name : String) (entry : Entry H)
  | endRegistration
  | survey
  | contains (name : String)
  | describe (name : String)
  | expression (name : String)
  | resolve (site : Site) (name : Positioned String)
  | supported (site : Site)
  | apply (a : Attachment H) (name : Positioned String) (args : List (Argument H.Raw))
  | compose (a : Attachment H) (invs : List (Invocation H.Raw))
  | runBatch (a : Attachment H) (invs : List (Invocation H.Raw))

structure Survey where
  isSealed : Bool
  names : List String
  size : Nat
  isEmpty : Bool
  settings : Settings
deriving DecidableEq, Repr

def Registry.survey {H : Host} (r : Registry H) : Survey :=
  ⟨r.isSealed, r.names, r.size, r.isEmpty, r.settings⟩

inductive Reply (H : Host)
  | registered (result : Except SealedError String)
  | registrationEnded
  | survey (s : Survey)
  | contains (b : Bool)
  | description (d : Option Entry.Description)
  | expression (f : Option (H.Context → H.Declaration → H.Item))
  | resolved (result : Except Diagnostic (List (Resolved H)))
  | supported (names : List String)
  | applied (result : Except Diagnostic (List (String × Except Rejection (List H.Item))))
  | composed (result : Except Diagnostic (Composition H))
  | items (result : Except Diagnostic (List H.Item))

structure Outcome (H : Host) where
  registry : Registry H
  reply : Reply H
  events : List Event

namespace Registry

variable {H : Host}

def perform (r : Registry H) : Operation H → Outcome H
  | .register name entry =>
    let x := r.register name entry
    ⟨x.1, .registered x.2.result, x.2.log⟩
  | .endRegistration =>
    let x := r.endRegistration
    ⟨x.1, .registrationEnded, x.2⟩
  | .survey => ⟨r, .survey r.survey, []⟩
  | .contains name => ⟨r, .contains (r.contains name), []⟩
  | .describe name => ⟨r, .description (r.describe name), []⟩
  | .expression name => ⟨r, .expression (r.expression? name), []⟩
  | .resolve site name =>
    let x := r.resolve site name
    ⟨r, .resolved x.result, x.log⟩
  | .supported site => ⟨r, .supported (r.supported site), []⟩
  | .apply a name args =>
    let x := r.applyName a name args
    ⟨r, .applied x.result, x.log⟩
  | .compose a invs =>
    let x := r.compose a invs
    ⟨x.1, .composed x.2.result, x.2.log⟩
  | .runBatch a invs =>
    let x := r.runBatch a invs
    ⟨x.1, .items x.2.result, x.2.log⟩

def performAll (r : Registry H) : List (Operation H) → List (Outcome H)
  | [] => []
  | op :: ops =>
    let o := r.perform op
    o :: o.registry.performAll ops

def after (r : Registry H) (ops : List (Operation H)) : Registry H :=
  ops.foldl (fun r op => (r.perform op).registry) r

end Registry

end CodegenRegistry
