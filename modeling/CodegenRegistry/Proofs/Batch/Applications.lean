import CodegenRegistry.Proofs.Batch.Reporting
import CodegenRegistry.Proofs.Batch.Splitting
import Mathlib
/-!
# Which generators are applied

A batch checks an invocation and applies its generators before it looks at the next one, and every
application is reported. So a batch that fails has applied some generators, although it returns
nothing of what they made. Main statement: those of the invocations before the one at fault, and of
that one only what comes before the first generator that rejects the arguments.
-/

namespace CodegenRegistry

variable {H : Host}

/-! ## Reported applications -/

namespace Logged

variable {ε α β : Type}

def applied (x : Logged ε α) : List Event :=
  x.log.filter Event.isApplication

@[simp] theorem applied_pure (a : α) : (pure a : Logged ε α).applied = [] := rfl

theorem applied_bind_of_ok {x : Logged ε α} {a : α} (f : α → Logged ε β)
    (h : x.result = .ok a) : (x >>= f).applied = x.applied ++ (f a).applied := by
  rw [applied, log_bind_of_ok f h, List.filter_append]
  rfl

theorem applied_bind_of_error {x : Logged ε α} {e : ε} (f : α → Logged ε β)
    (h : x.result = .error e) : (x >>= f).applied = x.applied := by
  rw [applied, log_bind_of_error f h]
  rfl

end Logged

/-! ## Applications -/

/-- A generator at work on the values of its parameters. -/
structure Application (H : Host) where
  resolved : Resolved H
  values : List H.Value

namespace Application

def items (a : Attachment H) (x : Application H) : List H.Item :=
  x.resolved.generator.produce a.context a.declaration x.values

def event (a : Attachment H) (x : Application H) : Event :=
  .generatorApplied x.resolved.name (x.items a).length

end Application

namespace Resolved

def Binds (args : List (Argument H.Raw)) (g : Resolved H) : Prop :=
  ∃ values, g.generator.schema.bind args = .ok values

def applications (args : List (Argument H.Raw)) : List (Resolved H) → List (Application H)
  | [] => []
  | g :: found =>
    match g.generator.schema.bind args with
    | .ok values => ⟨g, values⟩ :: applications args found
    | .error _ => []

variable {args : List (Argument H.Raw)} {g : Resolved H} {found before after : List (Resolved H)}

theorem applications_of_bind {values : List H.Value}
    (h : g.generator.schema.bind args = .ok values) :
    applications args (g :: found) = ⟨g, values⟩ :: applications args found := by
  rw [applications, h]

theorem applications_of_reject {rejection : Rejection}
    (h : g.generator.schema.bind args = .error rejection) :
    applications args (g :: found) = [] := by
  rw [applications, h]

theorem applications_append (h : ∀ g ∈ before, g.Binds args) :
    applications args (before ++ after) = applications args before ++ applications args after := by
  induction before with
  | nil => rfl
  | cons g before ih =>
      obtain ⟨hhead, hrest⟩ := List.forall_mem_cons.1 h
      obtain ⟨values, hvalues⟩ := hhead
      rw [List.cons_append, applications_of_bind hvalues, applications_of_bind hvalues, ih hrest,
        List.cons_append]

def application (a : Attachment H) (args : List (Argument H.Raw)) (g : Resolved H) : Event :=
  .generatorApplied g.name (g.made a args).length

theorem events_applications (a : Attachment H) (h : ∀ g ∈ found, g.Binds args) :
    (applications args found).map (Application.event a) = found.map (application a args) := by
  induction found with
  | nil => rfl
  | cons g found ih =>
      obtain ⟨hhead, hrest⟩ := List.forall_mem_cons.1 h
      obtain ⟨values, hvalues⟩ := hhead
      rw [applications_of_bind hvalues, List.map_cons, List.map_cons, ih hrest, application,
        made_of_bind a hvalues]
      rfl

theorem items_applications (a : Attachment H) (h : ∀ g ∈ found, g.Binds args) :
    (applications args found).flatMap (Application.items a) = found.flatMap (made a args) := by
  induction found with
  | nil => rfl
  | cons g found ih =>
      obtain ⟨hhead, hrest⟩ := List.forall_mem_cons.1 h
      obtain ⟨values, hvalues⟩ := hhead
      rw [applications_of_bind hvalues, List.flatMap_cons, List.flatMap_cons, ih hrest,
        made_of_bind a hvalues]
      rfl

end Resolved

namespace Registry

variable {r : Registry H} {a : Attachment H} {site : Site} {seen : List String}
  {inv : Invocation H.Raw} {invs : List (Invocation H.Raw)}

/-- The generators that a batch applies, each with the values of its parameters, once the generators
of some names have been seen. After an invocation that does not get through there are no more. -/
def applications (r : Registry H) (site : Site) :
    List String → List (Invocation H.Raw) → List (Application H)
  | _, [] => []
  | seen, inv :: invs =>
    match (r.check site seen inv).result with
    | .error _ => []
    | .ok found =>
      Resolved.applications inv.args found ++
        if found.all fun g => (g.generator.schema.bind inv.args).isOk then
          r.applications site (seen ++ found.map Resolved.name) invs
        else []

theorem all_isOk_iff {args : List (Argument H.Raw)} {found : List (Resolved H)} :
    (found.all fun g => (g.generator.schema.bind args).isOk) ↔ ∀ g ∈ found, g.Binds args := by
  rw [List.all_eq_true]
  apply forall₂_congr
  intro g _
  unfold Resolved.Binds
  cases g.generator.schema.bind args <;> simp [Except.isOk, Except.toBool]

theorem applications_of_check_error {e : Diagnostic}
    (h : (r.check site seen inv).result = .error e) (invs : List (Invocation H.Raw)) :
    r.applications site seen (inv :: invs) = [] := by
  rw [applications, h]

theorem applications_of_rejected {found : List (Resolved H)}
    (h : (r.check site seen inv).result = .ok found) (hrejects : ¬ ∀ g ∈ found, g.Binds inv.args)
    (invs : List (Invocation H.Raw)) :
    r.applications site seen (inv :: invs) = Resolved.applications inv.args found := by
  rw [applications, h]
  simp only [if_neg (mt all_isOk_iff.1 hrejects), List.append_nil]

theorem applications_of_applied {found : List (Resolved H)}
    (h : (r.check site seen inv).result = .ok found) (hbinds : ∀ g ∈ found, g.Binds inv.args)
    (invs : List (Invocation H.Raw)) :
    r.applications site seen (inv :: invs) = Resolved.applications inv.args found ++
      r.applications site (seen ++ found.map Resolved.name) invs := by
  rw [applications, h]
  simp only [if_pos (all_isOk_iff.2 hbinds)]

/-! ## What a batch reports -/

theorem applied_check (r : Registry H) (site : Site) (seen : List String)
    (inv : Invocation H.Raw) : (r.check site seen inv).applied = [] := by
  apply List.filter_eq_nil_iff.2
  intro e he
  exact Event.not_isApplication_of_isResolution (r.reports_check site seen inv e he)

theorem applyGenerator_of_reject {args : List (Argument H.Raw)} (c : Composition H)
    {g : Resolved H} {rejection : Rejection}
    (h : g.generator.schema.bind args = .error rejection) :
    applyGenerator a args c g = .fail (.invalidArgument rejection) := by
  rw [applyGenerator, Generator.run, h]
  rfl

theorem applyGenerator_of_bind {args : List (Argument H.Raw)} (c : Composition H)
    {g : Resolved H} {values : List H.Value}
    (h : g.generator.schema.bind args = .ok values) :
    applyGenerator a args c g = ⟨[Application.event a ⟨g, values⟩],
      .ok (c.add (Application.items a ⟨g, values⟩) g.generator.tags)⟩ := by
  rw [applyGenerator, Generator.run, h]
  rfl

theorem applied_applyGenerators (a : Attachment H) (args : List (Argument H.Raw))
    (c : Composition H) (found : List (Resolved H)) :
    (found.foldlM (applyGenerator a args) c).applied =
      (Resolved.applications args found).map (Application.event a) := by
  induction found generalizing c with
  | nil => rfl
  | cons g found ih =>
      rw [List.foldlM_cons]
      cases hbind : g.generator.schema.bind args with
      | error rejection =>
          rw [applyGenerator_of_reject c hbind,
            Logged.applied_bind_of_error _ (Logged.result_fail _),
            Resolved.applications_of_reject hbind]
          rfl
      | ok values =>
          rw [applyGenerator_of_bind c hbind, Logged.applied_bind_of_ok _ rfl, ih,
            Resolved.applications_of_bind hbind]
          rfl

theorem applied_applyInvocation_of_ok {p : BatchProgress H} {found : List (Resolved H)}
    (h : (r.check a.site p.seen inv).result = .ok found) :
    (r.applyInvocation a p inv).applied =
      (Resolved.applications inv.args found).map (Application.event a) := by
  unfold applyInvocation
  rw [Logged.applied_bind_of_ok _ h, applied_check, List.nil_append]
  cases hloop : (found.foldlM (applyGenerator a inv.args) p.composition).result with
  | error e => rw [Logged.applied_bind_of_error _ hloop, applied_applyGenerators]
  | ok c =>
      rw [Logged.applied_bind_of_ok _ hloop, applied_applyGenerators, Logged.applied_pure,
        List.append_nil]

theorem applyInvocation_of_check_error {p : BatchProgress H} {e : Diagnostic}
    (h : (r.check a.site p.seen inv).result = .error e) :
    (r.applyInvocation a p inv).result = .error e ∧ (r.applyInvocation a p inv).applied = [] := by
  unfold applyInvocation
  rw [Logged.result_bind, h, Logged.applied_bind_of_error _ h, applied_check]
  exact ⟨rfl, rfl⟩

theorem result_applyInvocation_of_ok {p : BatchProgress H} {found : List (Resolved H)}
    (h : (r.check a.site p.seen inv).result = .ok found) :
    (r.applyInvocation a p inv).result =
      (found.foldlM (applyGenerator a inv.args) p.composition).result.map fun c =>
        ⟨p.seen ++ found.map Resolved.name, c⟩ := by
  unfold applyInvocation
  rw [Logged.result_bind, h]
  exact Logged.result_bind _ _

/-- The applications that a batch reports are those of its invocations, by induction on these. -/
theorem applied_applyInvocations (r : Registry H) (a : Attachment H) (p : BatchProgress H)
    (invs : List (Invocation H.Raw)) :
    (invs.foldlM (r.applyInvocation a) p).applied =
      (r.applications a.site p.seen invs).map (Application.event a) := by
  induction invs generalizing p with
  | nil => rfl
  | cons inv invs ih =>
      rw [List.foldlM_cons]
      cases hcheck : (r.check a.site p.seen inv).result with
      | error e =>
          obtain ⟨hresult, happlied⟩ := applyInvocation_of_check_error hcheck
          rw [Logged.applied_bind_of_error _ hresult, happlied, applications_of_check_error hcheck]
          rfl
      | ok found =>
          have happlied := applied_applyInvocation_of_ok hcheck
          have hresult := result_applyInvocation_of_ok hcheck
          cases hloop : (found.foldlM (applyGenerator a inv.args) p.composition).result with
          | error e =>
              have hrejects : ¬ ∀ g ∈ found, g.Binds inv.args := by
                intro hbinds
                rw [result_applyGenerators_eq_ok_iff.2 ⟨hbinds, rfl⟩] at hloop
                cases hloop
              rw [hloop] at hresult
              rw [Logged.applied_bind_of_error _ hresult, happlied,
                applications_of_rejected hcheck hrejects]
          | ok c =>
              have hbinds : ∀ g ∈ found, g.Binds inv.args :=
                (result_applyGenerators_eq_ok_iff.1 hloop).1
              rw [hloop] at hresult
              rw [Logged.applied_bind_of_ok _ hresult, happlied, ih,
                applications_of_applied hcheck hbinds, List.map_append]

theorem applied_composeAll (r : Registry H) (a : Attachment H) (invs : List (Invocation H.Raw)) :
    (r.composeAll a invs).applied =
      (r.applications a.site [] invs).map (Application.event a) := by
  have hloop : (invs.foldlM (r.applyInvocation a) {}).applied =
      (r.applications a.site [] invs).map (Application.event a) :=
    r.applied_applyInvocations a {} invs
  unfold composeAll
  rw [Logged.applied_bind_of_ok _ (Logged.result_report _)]
  cases hresult : (invs.foldlM (r.applyInvocation a) {}).result with
  | error e =>
      rw [Logged.applied_bind_of_error _ hresult, hloop]
      rfl
  | ok p =>
      rw [Logged.applied_bind_of_ok _ hresult, hloop]
      exact List.append_nil _

theorem applied_compose (r : Registry H) (a : Attachment H) (invs : List (Invocation H.Raw)) :
    (r.compose a invs).2.applied = (r.applications a.site [] invs).map (Application.event a) := by
  have hstart : r.startBatch.2.filter Event.isApplication = [] := by
    unfold startBatch endRegistration
    split
    · split <;> rfl
    · rfl
  have hcomposed : (r.composeAll a invs).log.filter Event.isApplication =
      (r.applications a.site [] invs).map (Application.event a) := r.applied_composeAll a invs
  rw [← composeAll_startBatch] at hcomposed
  rw [Logged.applied, compose, List.filter_append, hstart, hcomposed, List.nil_append]

/-! ## Where a batch stops -/

theorem nodup_generators (r : Registry H) (site : Site) (name : String) :
    ((r.generators site name).map Resolved.name).Nodup := by
  unfold generators
  cases hexpand : Expansion.expand r.catalog site name with
  | error failure => exact .nil
  | ok found => exact (Expansion.expand_valid hexpand).1

def reports (r : Registry H) (a : Attachment H) (invs : List (Invocation H.Raw)) : List Event :=
  invs.flatMap fun inv =>
    (r.generators a.site inv.name.value).map (Resolved.application a inv.args)

/-- The generators of an invocation that have been applied when it ends with a diagnostic: those
before the first one that rejects the arguments, and none if something else is wrong. -/
inductive AppliedBefore (r : Registry H) (site : Site) (inv : Invocation H.Raw) :
    Diagnostic → List (Resolved H) → Prop
  | rejected {before after : List (Resolved H)} {g : Resolved H} {rejection : Rejection}
      (hresolves : (r.resolve site inv.name).result = .ok (before ++ g :: after))
      (hbinds : ∀ g ∈ before, g.Binds inv.args)
      (hrejects : g.generator.schema.bind inv.args = .error rejection) :
      AppliedBefore r site inv (.invalidArgument rejection) before
  | unapplied {e : Diagnostic} (hother : ∀ rejection, e ≠ .invalidArgument rejection) :
      AppliedBefore r site inv e []

theorem AppliedBefore.binds {e : Diagnostic} {before : List (Resolved H)}
    (h : r.AppliedBefore site inv e before) :
    ∀ g ∈ before, g.Binds inv.args := by
  cases h with
  | rejected _ hbinds _ => exact hbinds
  | unapplied _ => simp

theorem applications_append {xs : List (Invocation H.Raw)} (h : r.AdmitsAll site seen xs)
    (ys : List (Invocation H.Raw)) :
    r.applications site seen (xs ++ ys) =
      (xs.flatMap fun inv => Resolved.applications inv.args (r.generators site inv.name.value)) ++
        r.applications site (seen ++ r.appliedNames site xs) ys := by
  induction xs generalizing seen with
  | nil => simp [appliedNames]
  | cons x xs ih =>
      obtain ⟨hx, hxs⟩ := admitsAll_cons_iff.1 h
      obtain ⟨hcheck, hbinds⟩ := admits_iff_check.1 hx
      have hnames : r.appliedNames site [x] ++ r.appliedNames site xs =
          r.appliedNames site (x :: xs) := (r.appliedNames_append site [x] xs).symm
      have hhead : r.appliedNames site [x] =
          (r.generators site x.name.value).map Resolved.name := List.flatMap_singleton _ _
      rw [List.cons_append, applications_of_applied hcheck hbinds, ← hhead, ih hxs,
        List.append_assoc, hnames, List.flatMap_cons, List.append_assoc]

theorem applications_of_admitted {xs : List (Invocation H.Raw)} (h : r.AdmitsAll site seen xs) :
    r.applications site seen xs =
      xs.flatMap fun inv => Resolved.applications inv.args (r.generators site inv.name.value) := by
  have hwhole := applications_append h []
  rwa [List.append_nil, applications, List.append_nil] at hwhole

theorem events_applications_of_admitted (h : r.AdmitsAll a.site [] invs) :
    (invs.flatMap fun inv =>
      Resolved.applications inv.args (r.generators a.site inv.name.value)).map
        (Application.event a) = r.reports a invs := by
  rw [reports, List.map_flatMap]
  apply List.flatMap_congr
  intro inv hinv
  obtain ⟨seen, hadmits⟩ := h.admits hinv
  exact Resolved.events_applications a hadmits.binds

theorem not_invalidArgument_of_check {e e' : Diagnostic}
    (hfault : r.Fault site seen inv e) (hcheck : (r.check site seen inv).result = .error e')
    (rejection : Rejection) : e ≠ .invalidArgument rejection := by
  intro heq
  subst heq
  cases hfault with
  | unresolved _ hunresolved => cases hunresolved
  | unmet _ _ _ _ hunmet =>
      cases hunmet with
      | unresolved hunresolved => cases hunresolved
  | rejected hlabels hfound haccepts hmet _ _ _ =>
      rw [result_check_eq_ok_iff.2 ⟨hlabels, hfound, haccepts, hmet⟩] at hcheck
      cases hcheck

theorem applications_of_fault {e : Diagnostic}
    (hfault : r.Fault a.site seen inv e) :
    ∃ before, r.AppliedBefore a.site inv e before ∧
      ∀ invs, r.applications a.site seen (inv :: invs) = Resolved.applications inv.args before := by
  cases hcheck : (r.check a.site seen inv).result with
  | error e' =>
      refine ⟨[], .unapplied (not_invalidArgument_of_check hfault hcheck), ?_⟩
      intro invs
      rw [applications_of_check_error hcheck]
      rfl
  | ok found =>
      have hfails : (r.applyInvocation a ⟨seen, {}⟩ inv).result = .error e :=
        result_applyInvocation_eq_error_iff.2 hfault
      have hloop : (found.foldlM (applyGenerator a inv.args) {}).result = .error e := by
        rw [result_applyInvocation_of_ok (p := ⟨seen, {}⟩) hcheck] at hfails
        cases hloop : (found.foldlM (applyGenerator a inv.args) {}).result with
        | error e' =>
            rw [hloop] at hfails
            cases hfails
            rfl
        | ok c =>
            rw [hloop] at hfails
            cases hfails
      obtain ⟨g, hfirst, rejection, hreject, rfl⟩ := result_applyGenerators_eq_error_iff.1 hloop
      obtain ⟨before, after, rfl, hg, hbefore⟩ := hfirst
      have hbinds : ∀ g ∈ before, g.Binds inv.args := by
        intro g' hg'
        by_contra hnot
        exact hbefore g' hg' (Schema.not_binds_iff.1 hnot)
      have hrejects : ¬ ∀ g' ∈ before ++ g :: after, g'.Binds inv.args := by
        intro hall
        exact Schema.not_binds_iff.2 hg (hall g (by simp))
      have hresolves : (r.resolve a.site inv.name).result = .ok (before ++ g :: after) :=
        result_resolve_eq_ok_iff.2 (result_check_eq_ok_iff.1 hcheck).2.1
      refine ⟨before, .rejected hresolves hbinds hreject, ?_⟩
      intro invs
      rw [applications_of_rejected hcheck hrejects, Resolved.applications_append hbinds,
        Resolved.applications_of_reject hreject, List.append_nil]

theorem RaisedAt.fault {i : Nat} {e : Diagnostic} (h : r.RaisedAt a invs i e) :
    ∃ hi : i < invs.length, r.AdmitsAll a.site [] (invs.take i) ∧
      r.Fault a.site (r.appliedNames a.site (invs.take i)) invs[i] e := by
  have hi := h.lt_length
  obtain ⟨c, hc⟩ := h.succeeds
  have hall : r.AdmitsAll a.site [] (invs.take i) := (result_compose_eq_ok_iff.1 hc).1
  have hfails := h.fails
  rw [List.take_succ_eq_append_getElem hi, Registry.result_compose,
    result_composeAll_eq_error_iff] at hfails
  obtain ⟨before, inv, after, hsplit, -, hfault⟩ := hfails
  refine ⟨hi, hall, ?_⟩
  rcases List.eq_nil_or_concat after with rfl | ⟨after, last, rfl⟩
  · obtain ⟨hbefore, hlast⟩ := List.append_inj' hsplit rfl
    obtain rfl : invs[i] = inv := List.singleton_inj.1 hlast
    rwa [hbefore]
  -- an invocation with a fault is not among those that are admitted
  · have hbefore : invs.take i = before ++ inv :: after := by
      rw [List.concat_eq_append, ← List.cons_append, ← List.append_assoc] at hsplit
      exact (List.append_inj' hsplit rfl).1
    rw [hbefore] at hall
    have hadmits := (admitsAll_cons_iff.1 (admitsAll_append_iff.1 hall).2).1
    exact absurd hadmits ((exists_fault_iff a).1 ⟨e, hfault⟩)

theorem exists_raisedAt_iff {e : Diagnostic} :
    (∃ i, r.RaisedAt a invs i e) ↔ (r.compose a invs).2.result = .error e := by
  constructor
  · intro h
    obtain ⟨i, h⟩ := h
    exact h.result_compose
  · intro h
    rw [result_compose, result_composeAll_eq_error_iff] at h
    obtain ⟨before, inv, after, rfl, hall, hfault⟩ := h
    exact ⟨before.length, raisedAt_of_fault hall hfault⟩

theorem applied_compose_of_ok {c : Composition H} (h : (r.compose a invs).2.result = .ok c) :
    (r.compose a invs).2.applied = r.reports a invs := by
  have hall : r.AdmitsAll a.site [] invs := (result_compose_eq_ok_iff.1 h).1
  rw [applied_compose, applications_of_admitted hall, events_applications_of_admitted hall]

theorem items_compose_of_ok {c : Composition H} (h : (r.compose a invs).2.result = .ok c) :
    c.items = (r.applications a.site [] invs).flatMap (Application.items a) := by
  obtain ⟨hall, rfl⟩ := result_compose_eq_ok_iff.1 h
  rw [applications_of_admitted hall, List.flatMap_assoc]
  apply List.flatMap_congr
  intro inv hinv
  obtain ⟨seen, hadmits⟩ := hall.admits hinv
  exact (Resolved.items_applications a hadmits.binds).symm

theorem RaisedAt.applied_compose {i : Nat} {e : Diagnostic} (h : r.RaisedAt a invs i e) :
    ∃ hi : i < invs.length, ∃ before, r.AppliedBefore a.site invs[i] e before ∧
      (r.compose a invs).2.applied =
        r.reports a (invs.take i) ++ before.map (Resolved.application a invs[i].args) := by
  obtain ⟨hi, hall, hfault⟩ := h.fault
  obtain ⟨before, hbefore, happlications⟩ := applications_of_fault hfault
  have hsplit : invs.take i ++ invs[i] :: invs.drop (i + 1) = invs := by
    rw [← List.drop_eq_getElem_cons hi, List.take_append_drop]
  have hwhole := applications_append hall (invs[i] :: invs.drop (i + 1))
  rw [hsplit, List.nil_append, happlications] at hwhole
  refine ⟨hi, before, hbefore, ?_⟩
  rw [Registry.applied_compose, hwhole, List.map_append, events_applications_of_admitted hall,
    Resolved.events_applications a hbefore.binds]

/-- While a batch goes on, all generators of an invocation are applied in turn, each of them once.
A batch that fails at an invocation has applied those of the invocations before it. Of that one it
has applied the generators before the first one that rejects the arguments, and none if something
else is wrong. The ones after it are never reached, and nothing is returned but the diagnostic. -/
theorem compose_applies (r : Registry H) (a : Attachment H) (invs : List (Invocation H.Raw)) :
    (∀ name, ((r.generators a.site name).map Resolved.name).Nodup) ∧
      (∀ c, (r.compose a invs).2.result = .ok c →
        (r.compose a invs).2.applied = r.reports a invs) ∧
      (∀ e, (∃ i, r.RaisedAt a invs i e) ↔ (r.compose a invs).2.result = .error e) ∧
      ∀ i e, r.RaisedAt a invs i e →
        (r.runBatch a invs).2.result = .error e ∧
          ∃ hi : i < invs.length, ∃ before, r.AppliedBefore a.site invs[i] e before ∧
            (r.compose a invs).2.applied =
              r.reports a (invs.take i) ++ before.map (Resolved.application a invs[i].args) := by
  refine ⟨r.nodup_generators a.site, fun _ => applied_compose_of_ok,
    fun _ => exists_raisedAt_iff, ?_⟩
  intro i e h
  refine ⟨?_, h.applied_compose⟩
  rw [runBatch, Logged.result_map, h.result_compose]
  rfl

end Registry

def Generator.counting (label : String) : Generator Host.text where
  schema := ⟨[(Parameter.int (R := Host.text.Raw) label 0).map Int.repr],
    List.pairwise_singleton _ _⟩
  produce _ _ values := values

/-- Two generators, of which the second one does not take texts, with an alias for both of them. -/
def Registry.mixed : Registry Host.text where
  catalog :=
    ((NameTable.empty.insert "show" (.ofBundle ⟨fun _ => some (.echoing "x"), none⟩)).insert
      "count" (.ofBundle ⟨fun _ => some (.counting "n"), none⟩)).insert
      "both" (.ofAlias ⟨["show", "count"], fun _ => none⟩)

/-- The second invocation gets as far as its second generator. -/
theorem Registry.mixed_applies :
    let a : Attachment Host.text := ⟨.structureType, "", ""⟩
    let whole : Invocation Host.text.Raw := ⟨⟨"both", .nowhere⟩, []⟩
    let wrong : Invocation Host.text.Raw := ⟨⟨"both", .nowhere⟩, [.labelled "n" "many"]⟩
    let e : Diagnostic := .invalidArgument ⟨"n", .nowhere, "an integer literal"⟩
    (mixed.compose a [whole]).2.result = .ok ⟨["-", "0"], ["echo"]⟩ ∧
      (mixed.compose a [whole]).2.applied = mixed.reports a [whole] ∧
      mixed.RaisedAt a [whole, wrong, whole] 1 e ∧
      (mixed.runBatch a [whole, wrong, whole]).2.result = .error e ∧
      ∃ hi : 1 < [whole, wrong, whole].length, ∃ before,
        mixed.AppliedBefore a.site [whole, wrong, whole][1] e before ∧
          (mixed.compose a [whole, wrong, whole]).2.applied =
            mixed.reports a [whole] ++ before.map (Resolved.application a wrong.args) := by
  intro a whole wrong e
  have hwhole : (mixed.compose a [whole]).2.result = .ok ⟨["-", "0"], ["echo"]⟩ := by cbv
  have hraised : mixed.RaisedAt a [whole, wrong, whole] 1 e := by
    refine ⟨by decide, ⟨_, hwhole⟩, ?_⟩
    cbv
  obtain ⟨hbatch, happlied⟩ := (compose_applies mixed a [whole, wrong, whole]).2.2.2 1 e hraised
  exact ⟨hwhole, (compose_applies mixed a [whole]).2.1 _ hwhole, hraised, hbatch, happlied⟩

end CodegenRegistry
