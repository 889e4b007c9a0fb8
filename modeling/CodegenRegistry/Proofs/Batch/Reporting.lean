import CodegenRegistry.Batch.Composition
import CodegenRegistry.Proofs.Loops
/-!
# What batches report

The checks of an invocation report resolved names only, and the generators report their
applications. Nothing that is reported between the start and the end of a batch is about entries or
registration.
-/

namespace CodegenRegistry

variable {H : Host}

namespace Event

def isResolution : Event → Bool
  | nameResolved .. => true
  | _ => false

def isApplication : Event → Bool
  | generatorApplied .. => true
  | _ => false

def concernsTable : Event → Bool
  | entryAdded .. | entryReplaced .. | registrationRejected .. | registrySealed .. => true
  | _ => false

theorem not_isApplication_of_isResolution {e : Event} (h : e.isResolution) :
    ¬ e.isApplication := by
  cases e <;> simp_all [isResolution, isApplication]

theorem not_concernsTable_of_isResolution {e : Event} (h : e.isResolution) :
    ¬ e.concernsTable := by
  cases e <;> simp_all [isResolution, concernsTable]

end Event

namespace Registry

variable (r : Registry H) (a : Attachment H)

theorem reports_resolve (site : Site) (name : Positioned String) :
    (r.resolve site name).Reports (·.isResolution) := by
  unfold resolve
  split
  · exact List.forall_mem_singleton.2 rfl
  · exact .of_log_eq_nil rfl

theorem reports_checkDependency (site : Site) (loc : Position) (seen : List String)
    (requiredBy dependency : String) :
    (r.checkDependency site loc seen requiredBy dependency).Reports (·.isResolution) := by
  refine (r.reports_resolve site _).bind fun required => ?_
  split
  · exact .of_log_eq_nil rfl
  · exact .of_log_eq_nil rfl

theorem reports_checkDependencies (site : Site) (loc : Position) (seen : List String)
    (found : List (Resolved H)) :
    (r.checkDependencies site loc seen found).Reports (·.isResolution) := by
  refine Logged.Reports.forM (fun g => ?_) found
  exact .forM (r.reports_checkDependency site loc seen g.name) g.generator.dependencies

theorem reports_check (site : Site) (seen : List String) (inv : Invocation H.Raw) :
    (r.check site seen inv).Reports (·.isResolution) := by
  refine Logged.Reports.bind (.of_log_eq_nil rfl) fun _ => ?_
  refine (r.reports_resolve site inv.name).bind fun found => ?_
  refine Logged.Reports.bind (.of_log_eq_nil rfl) fun _ => ?_
  exact (r.reports_checkDependencies site _ seen found).bind fun _ => .of_log_eq_nil rfl

theorem reports_applyGenerator (args : List (Argument H.Raw)) (c : Composition H)
    (g : Resolved H) : (applyGenerator a args c g).Reports (·.isApplication) := by
  refine Logged.Reports.bind (.of_log_eq_nil rfl) fun items => ?_
  exact Logged.Reports.bind (.report (by rfl)) fun _ => .of_log_eq_nil rfl

theorem reports_applyInvocation (p : BatchProgress H) (inv : Invocation H.Raw) :
    (r.applyInvocation a p inv).Reports fun e => e.isResolution ∨ e.isApplication := by
  refine ((r.reports_check a.site p.seen inv).mono fun _ => .inl).bind fun found => ?_
  refine Logged.Reports.bind (.foldlM (fun c g => ?_) found _) fun _ => .of_log_eq_nil rfl
  exact (reports_applyGenerator a inv.args c g).mono fun _ => .inr

theorem reports_composeAll (invs : List (Invocation H.Raw)) :
    (r.composeAll a invs).Reports fun e => ¬ e.concernsTable := by
  refine Logged.Reports.bind (.report nofun) fun _ => ?_
  refine Logged.Reports.bind (.foldlM (fun p inv => ?_) invs _) fun p => ?_
  · refine (r.reports_applyInvocation a p inv).mono fun e he => ?_
    cases e <;> simp_all [Event.isResolution, Event.isApplication, Event.concernsTable]
  · exact Logged.Reports.bind (.report nofun) fun _ => .of_log_eq_nil rfl

theorem reports_applyName (name : Positioned String) (args : List (Argument H.Raw)) :
    (r.applyName a name args).Reports (·.isResolution) :=
  (r.reports_resolve a.site name).bind fun _ => .of_log_eq_nil rfl

end Registry

end CodegenRegistry
