import CodegenRegistry.Proofs.Batch.Admission
import CodegenRegistry.Proofs.Binding.Matching
import CodegenRegistry.Proofs.Spelling.Search
/-!
# Faults of invocations

The checks of an invocation have an order, and each reports the first thing that it finds wrong.
A batch that fails therefore reports the fault of its first invocation that is not admitted, and
of that invocation the fault of the earliest check.
-/

namespace CodegenRegistry

/-! ## What can be wrong -/

namespace Invocation

variable {R : Type}

def IsFirstRepeat (arg : Argument R) (args : List (Argument R)) : Prop :=
  ∃ before after, args = before ++ arg :: after ∧
    (before.map Argument.label).Nodup ∧ arg.label ∈ before.map Argument.label

end Invocation

def Parameter.RejectsAt {R V : Type} (p : Parameter R V) (args : List (Argument R))
    (arg : Argument R) : Prop :=
  IsFirst (fun arg => arg.label? = some p.name) arg args ∧ p.decode arg.value = none

def Parameter.Rejects {R V : Type} (p : Parameter R V) (args : List (Argument R)) : Prop :=
  ∃ arg, p.RejectsAt args arg

namespace Registry

variable {H : Host}

/-- A name does not resolve at a site. The diagnostic may be about another name, which the
aliases lead to; its place is that of the name as written. -/
inductive Unresolved (r : Registry H) (site : Site) (loc : Position) (name : String) :
    Diagnostic → Prop
  | unknown {culprit : String}
      (hexpand : Expansion.expand r.catalog site name = .error (.unknown culprit)) :
      Unresolved r site loc name (.unknownGenerator culprit site loc
        (Spelling.suggest r.settings.cutoff culprit (r.supported site)))
  | unsupported {culprit : String}
      (hexpand : Expansion.expand r.catalog site name = .error (.unsupported culprit)) :
      Unresolved r site loc name (.unsupportedSite culprit site loc)

inductive Unmet (r : Registry H) (site : Site) (seen : List String) (loc : Position)
    (requiredBy dependency : String) : Diagnostic → Prop
  | unresolved {e : Diagnostic} (hunresolved : r.Unresolved site loc dependency e) :
      Unmet r site seen loc requiredBy dependency e
  | missing {required : List (Resolved H)} {g : Resolved H}
      (hrequired : Expansion.expand r.catalog site dependency = .ok required)
      (hmem : g ∈ required) (hunseen : g.name ∉ seen) :
      Unmet r site seen loc requiredBy dependency
        (.missingDependency dependency requiredBy loc)

def needs (found : List (Resolved H)) : List (Resolved H × String) :=
  found.flatMap fun g => g.generator.dependencies.map fun dependency => (g, dependency)

/-- What is reported of an invocation once the generators of some names have been seen. Each kind
of fault presupposes that there is none of the kinds before it. -/
inductive Fault (r : Registry H) (site : Site) (seen : List String) (inv : Invocation H.Raw) :
    Diagnostic → Prop
  | positional {arg : Argument H.Raw}
      (hfirst : IsFirst (fun arg => ¬ arg.IsLabelled) arg inv.args) :
      Fault r site seen inv (.positionalArgument inv.name.value (RawValue.loc arg.value))
  | duplicate {arg : Argument H.Raw}
      (hlabelled : ∀ arg ∈ inv.args, arg.IsLabelled)
      (hfirst : Invocation.IsFirstRepeat arg inv.args) :
      Fault r site seen inv (.duplicateArgument arg.label (RawValue.loc arg.value))
  | unresolved {e : Diagnostic}
      (hlabels : inv.WellLabelled)
      (hunresolved : r.Unresolved site inv.name.loc inv.name.value e) :
      Fault r site seen inv e
  | unaccepted {arg : Argument H.Raw} {found : List (Resolved H)} {accepted : List String}
      (hlabels : inv.WellLabelled)
      (hfound : Expansion.expand r.catalog site inv.name.value = .ok found)
      (hfirst : IsFirst (fun arg => ¬ r.Accepts site inv.name.value arg.label) arg inv.args)
      (haccepted : ∀ label, label ∈ accepted ↔ r.Accepts site inv.name.value label) :
      Fault r site seen inv (.unknownArgument inv.name.value arg.label (RawValue.loc arg.value)
        (Spelling.suggest r.settings.cutoff arg.label accepted))
  | unmet {g : Resolved H} {dependency : String} {found : List (Resolved H)} {e : Diagnostic}
      (hlabels : inv.WellLabelled)
      (hfound : Expansion.expand r.catalog site inv.name.value = .ok found)
      (haccepts : ∀ arg ∈ inv.args, r.Accepts site inv.name.value arg.label)
      (hfirst : IsFirst (fun need => ¬ r.Meets site seen need.2) (g, dependency) (needs found))
      (hunmet : r.Unmet site seen inv.name.loc g.name dependency e) :
      Fault r site seen inv e
  | rejected {g : Resolved H} {p : Parameter H.Raw H.Value} {arg : Argument H.Raw}
      {found : List (Resolved H)}
      (hlabels : inv.WellLabelled)
      (hfound : Expansion.expand r.catalog site inv.name.value = .ok found)
      (haccepts : ∀ arg ∈ inv.args, r.Accepts site inv.name.value arg.label)
      (hmet : ∀ g ∈ found, ∀ dependency ∈ g.generator.dependencies,
        r.Meets site seen dependency)
      (hgenerator : IsFirst (fun g => ∃ p ∈ g.generator.schema.params, p.Rejects inv.args)
        g found)
      (hparameter : IsFirst (fun p => p.Rejects inv.args) p g.generator.schema.params)
      (harg : p.RejectsAt inv.args arg) :
      Fault r site seen inv (.invalidArgument ⟨p.name, RawValue.loc arg.value, p.expected⟩)

end Registry

/-! ## The checks -/

namespace Invocation

variable {R : Type}

theorem repeated?_eq_some_iff {earlier : List String} {args : List (Argument R)}
    {arg : Argument R} :
    repeated? earlier args = some arg ↔ ∃ before after, args = before ++ arg :: after ∧
      repeated? earlier before = none ∧
        (arg.label ∈ earlier ∨ arg.label ∈ before.map Argument.label) := by
  induction args generalizing earlier with
  | nil => simp [repeated?]
  | cons a rest ih =>
      rw [repeated?]
      by_cases ha : a.label ∈ earlier
      · rw [if_pos ha, Option.some.injEq]
        constructor
        · intro h
          exact ⟨[], rest, by rw [h]; rfl, rfl, by simpa [← h] using ha⟩
        · intro h
          rcases h with ⟨before, after, hsplit, hnone, -⟩
          cases before with
          | nil => exact (List.cons.inj hsplit).1
          | cons b before =>
              obtain ⟨rfl, -⟩ := List.cons.inj hsplit
              simp [repeated?, ha] at hnone
      · rw [if_neg ha, ih]
        constructor
        · intro h
          rcases h with ⟨before, after, rfl, hnone, hmem⟩
          refine ⟨a :: before, after, rfl, ?_, by simpa [or_assoc, or_left_comm] using hmem⟩
          rw [repeated?, if_neg ha, hnone]
        · intro h
          rcases h with ⟨before, after, hsplit, hnone, hmem⟩
          cases before with
          | nil =>
              obtain ⟨rfl, -⟩ := List.cons.inj hsplit
              exact absurd (by simpa using hmem) ha
          | cons b before =>
              obtain ⟨rfl, rfl⟩ := List.cons.inj hsplit
              rw [repeated?, if_neg ha] at hnone
              exact ⟨before, after, rfl, hnone, by simpa [or_assoc, or_left_comm] using hmem⟩

theorem repeated?_nil_eq_some_iff {args : List (Argument R)} {arg : Argument R} :
    repeated? [] args = some arg ↔ IsFirstRepeat arg args := by
  simp [repeated?_eq_some_iff, repeated?_eq_none_iff, IsFirstRepeat]

theorem exists_firstRepeat_iff {args : List (Argument R)} :
    (∃ arg, IsFirstRepeat arg args) ↔ ¬ (args.map Argument.label).Nodup := by
  simp only [← repeated?_nil_eq_some_iff, ← repeated?_nil_eq_none_iff]
  rw [← Option.isSome_iff_exists, Option.isSome_iff_ne_none]

theorem find?_unlabelled_eq_some_iff {args : List (Argument R)} {arg : Argument R} :
    (args.find? fun a => a.label?.isNone) = some arg ↔
      IsFirst (fun a => ¬ a.IsLabelled) arg args := by
  rw [IsFirst.find?_eq_some_iff]
  exact IsFirst.congr fun a _ => Argument.isNone_label?_iff

variable [RawValue R]

theorem checkLabels_eq_error_iff {inv : Invocation R} {e : Diagnostic} :
    inv.checkLabels = .error e ↔
      (∃ arg, IsFirst (fun a => ¬ a.IsLabelled) arg inv.args ∧
        .positionalArgument inv.name.value (RawValue.loc arg.value) = e) ∨
      (∀ a ∈ inv.args, a.IsLabelled) ∧ ∃ arg, IsFirstRepeat arg inv.args ∧
        .duplicateArgument arg.label (RawValue.loc arg.value) = e := by
  simp only [← find?_unlabelled_eq_some_iff, ← find?_unlabelled_eq_none_iff,
    ← repeated?_nil_eq_some_iff]
  unfold checkLabels
  cases inv.args.find? fun a => a.label?.isNone with
  | some a => simp
  | none => cases repeated? [] inv.args <;> simp

theorem checkAccepted_eq_error_iff {cutoff : Cutoff} {accepted : List String}
    {inv : Invocation R} {e : Diagnostic} :
    inv.checkAccepted cutoff accepted = .error e ↔
      ∃ arg, IsFirst (fun a => a.label ∉ accepted) arg inv.args ∧
        .unknownArgument inv.name.value arg.label (RawValue.loc arg.value)
          (Spelling.suggest cutoff arg.label accepted) = e := by
  have hsome : ∀ arg, IsFirst (fun a => a.label ∉ accepted) arg inv.args ↔
      (inv.args.find? fun a => a.label ∉ accepted) = some arg := by
    intro arg
    simp [IsFirst.find?_eq_some_iff]
  simp only [hsome]
  unfold checkAccepted
  cases inv.args.find? fun a => a.label ∉ accepted <;> simp

end Invocation

namespace Schema

variable {R V : Type} [RawValue R]

theorem bindOne_eq_error_iff {args : List (Argument R)} {p : Parameter R V} {e : Rejection} :
    bindOne args p = .error e ↔
      ∃ arg, p.RejectsAt args arg ∧ ⟨p.name, RawValue.loc arg.value, p.expected⟩ = e := by
  rw [bindOne_eq_iff]
  constructor
  · intro h
    cases h with
    | @rejected arg hfirst hdecode => exact ⟨arg, ⟨hfirst, hdecode⟩, rfl⟩
  · intro h
    obtain ⟨arg, ⟨hfirst, hdecode⟩, rfl⟩ := h
    exact .rejected hfirst hdecode

theorem bind_eq_error_iff {s : Schema R V} {args : List (Argument R)} {e : Rejection} :
    s.bind args = .error e ↔
      ∃ p, IsFirst (fun p => p.Rejects args) p s.params ∧
        ∃ arg, p.RejectsAt args arg ∧ ⟨p.name, RawValue.loc arg.value, p.expected⟩ = e := by
  have hrejects : ∀ p ∈ s.params, (∃ e', bindOne args p = .error e') ↔ p.Rejects args := by
    intro p _
    simp only [bindOne_eq_error_iff]
    constructor
    · intro h
      rcases h with ⟨-, arg, harg, -⟩
      exact ⟨arg, harg⟩
    · intro h
      rcases h with ⟨arg, harg⟩
      exact ⟨_, arg, harg, rfl⟩
  unfold bind
  rw [mapM_eq_error_iff]
  simp only [IsFirst.congr hrejects]
  simp only [bindOne_eq_error_iff]

theorem not_binds_iff {s : Schema R V} {args : List (Argument R)} :
    (¬ ∃ values, s.bind args = .ok values) ↔ ∃ p ∈ s.params, p.Rejects args := by
  constructor
  · intro h
    cases hbind : s.bind args with
    | ok values => exact absurd ⟨values, hbind⟩ h
    | error e =>
        rcases bind_eq_error_iff.1 hbind with ⟨p, hp, -⟩
        exact ⟨p, hp.mem, hp.holds⟩
  · intro h hbinds
    rcases h with ⟨p, hp, hrejects⟩
    have hfirst : ∃ q, IsFirst (fun p => p.Rejects args) q s.params :=
      IsFirst.exists_of_mem hp hrejects
    rcases hfirst with ⟨q, hq⟩
    rcases hq.holds with ⟨arg, harg⟩
    rcases hbinds with ⟨values, hvalues⟩
    have herror := bind_eq_error_iff.2 ⟨q, hq, arg, harg, rfl⟩
    rw [hvalues] at herror
    cases herror

end Schema

namespace Registry

variable {H : Host}

theorem result_resolve_eq_error_iff_unresolved {r : Registry H} {site : Site}
    {name : Positioned String} {e : Diagnostic} :
    (r.resolve site name).result = .error e ↔ r.Unresolved site name.loc name.value e := by
  rw [result_resolve_eq_error_iff]
  constructor
  · intro h
    rcases h with ⟨failure, hexpand, rfl⟩
    cases failure with
    | unknown culprit => exact .unknown hexpand
    | unsupported culprit => exact .unsupported hexpand
  · intro h
    cases h with
    | unknown hexpand => exact ⟨_, hexpand, rfl⟩
    | unsupported hexpand => exact ⟨_, hexpand, rfl⟩

theorem result_checkDependency_eq_error_iff {r : Registry H} {site : Site} {loc : Position}
    {seen : List String} {requiredBy dependency : String} {e : Diagnostic} :
    (r.checkDependency site loc seen requiredBy dependency).result = .error e ↔
      r.Unmet site seen loc requiredBy dependency e := by
  unfold checkDependency
  rw [Logged.result_bind_eq_error_iff, result_resolve_eq_error_iff_unresolved]
  simp only [result_resolve_eq_ok_iff]
  constructor
  · intro h
    rcases h with hunresolved | ⟨required, hrequired, hall⟩
    · exact .unresolved hunresolved
    · split at hall
      · cases hall
      · next hnot =>
        obtain rfl := Except.error.inj hall
        have hunseen : ∃ g ∈ required, g.name ∉ seen := by simpa using hnot
        rcases hunseen with ⟨g, hmem, hunseen⟩
        exact .missing hrequired hmem hunseen
  · intro h
    cases h with
    | unresolved hunresolved => exact .inl hunresolved
    | missing hrequired hmem hunseen =>
        refine .inr ⟨_, hrequired, ?_⟩
        rw [if_neg fun hall => hunseen (by simpa using List.all_eq_true.1 hall _ hmem)]
        rfl

theorem checkDependencies_eq_forM_needs {r : Registry H} {site : Site} {loc : Position}
    {seen : List String} {found : List (Resolved H)} :
    r.checkDependencies site loc seen found =
      forM (needs found) fun need => r.checkDependency site loc seen need.1.name need.2 := by
  unfold checkDependencies needs
  rw [List.forM_eq_forM]
  induction found with
  | nil => simp
  | cons g found ih =>
      rw [List.forM_cons, ih, List.flatMap_cons, List.forM_append, List.forM_map]
      rfl

theorem result_checkDependencies_eq_error_iff {r : Registry H} {site : Site} {loc : Position}
    {seen : List String} {found : List (Resolved H)} {e : Diagnostic} :
    (r.checkDependencies site loc seen found).result = .error e ↔
      ∃ g dependency,
        IsFirst (fun need => ¬ r.Meets site seen need.2) (g, dependency) (needs found) ∧
          r.Unmet site seen loc g.name dependency e := by
  rw [checkDependencies_eq_forM_needs, Logged.result_forM_eq_error_iff]
  simp only [ne_eq, result_checkDependency_eq_ok_iff, result_checkDependency_eq_error_iff,
    Prod.exists]

theorem result_check_eq_error_iff {r : Registry H} {site : Site} {seen : List String}
    {inv : Invocation H.Raw} {e : Diagnostic} :
    (r.check site seen inv).result = .error e ↔
      inv.checkLabels = .error e ∨
      inv.WellLabelled ∧
        (r.Unresolved site inv.name.loc inv.name.value e ∨
        ∃ found, Expansion.expand r.catalog site inv.name.value = .ok found ∧
          (inv.checkAccepted r.settings.cutoff (found.flatMap fun g => g.generator.accepted) =
            .error e ∨
          (∀ arg ∈ inv.args, r.Accepts site inv.name.value arg.label) ∧
            (r.checkDependencies site inv.name.loc seen found).result = .error e)) := by
  unfold check
  simp only [Logged.result_bind_eq_error_iff, Logged.result_ofExcept, Logged.result_pure,
    result_resolve_eq_error_iff_unresolved, result_resolve_eq_ok_iff]
  constructor
  · intro h
    rcases h with hlabels | ⟨⟨⟩, hlabels, hrest⟩
    · exact .inl hlabels
    refine .inr ⟨Invocation.checkLabels_eq_ok_iff.1 hlabels, ?_⟩
    rcases hrest with hresolve | ⟨found, hfound, hrest⟩
    · exact .inl hresolve
    refine .inr ⟨found, hfound, ?_⟩
    rcases hrest with haccepted | ⟨⟨⟩, haccepted, hdependencies | ⟨-, -, hpure⟩⟩
    · exact .inl haccepted
    · refine .inr ⟨?_, hdependencies⟩
      intro arg harg
      exact (mem_accepted_iff_accepts hfound).1
        (Invocation.checkAccepted_eq_ok_iff.1 haccepted arg harg)
    · cases hpure
  · intro h
    rcases h with hlabels | ⟨hlabels, hrest⟩
    · exact .inl hlabels
    refine .inr ⟨(), Invocation.checkLabels_eq_ok_iff.2 hlabels, ?_⟩
    rcases hrest with hresolve | ⟨found, hfound, hrest⟩
    · exact .inl hresolve
    refine .inr ⟨found, hfound, ?_⟩
    rcases hrest with haccepted | ⟨haccepts, hdependencies⟩
    · exact .inl haccepted
    · refine .inr ⟨(), Invocation.checkAccepted_eq_ok_iff.2 ?_, .inl hdependencies⟩
      intro arg harg
      exact (mem_accepted_iff_accepts hfound).2 (haccepts arg harg)

theorem result_applyGenerator_eq_error_iff {a : Attachment H} {args : List (Argument H.Raw)}
    {c : Composition H} {g : Resolved H} {e : Diagnostic} :
    (applyGenerator a args c g).result = .error e ↔
      ∃ rejection, g.generator.schema.bind args = .error rejection ∧
        .invalidArgument rejection = e := by
  unfold applyGenerator Generator.run
  rw [Logged.result_bind_eq_error_iff, Logged.result_ofExcept, mapError_eq_error_iff]
  cases g.generator.schema.bind args <;> simp [Except.map]

theorem result_applyGenerators_eq_error_iff {a : Attachment H} {args : List (Argument H.Raw)}
    {c : Composition H} {found : List (Resolved H)} {e : Diagnostic} :
    (found.foldlM (applyGenerator a args) c).result = .error e ↔
      ∃ g, IsFirst (fun g => ∃ p ∈ g.generator.schema.params, p.Rejects args) g found ∧
        ∃ rejection, g.generator.schema.bind args = .error rejection ∧
          .invalidArgument rejection = e := by
  have hnot : ∀ g : Resolved H, (∃ p ∈ g.generator.schema.params, p.Rejects args) ↔
      ¬ ∃ values, g.generator.schema.bind args = .ok values := by
    intro g
    exact Schema.not_binds_iff.symm
  rw [Logged.result_foldlM_eq_error_iff]
  simp only [result_applyGenerators_eq_ok_iff, result_applyGenerator_eq_error_iff, hnot, IsFirst,
    Classical.not_not]
  constructor
  · intro h
    rcases h with ⟨before, g, after, -, hsplit, ⟨hbinds, -⟩, rejection, hreject, he⟩
    exact ⟨g, ⟨before, after, hsplit, by simp [hreject], hbinds⟩, rejection, hreject, he⟩
  · intro h
    rcases h with ⟨g, ⟨before, after, hsplit, -, hbinds⟩, hreject⟩
    exact ⟨before, g, after, _, hsplit, ⟨hbinds, rfl⟩, hreject⟩

theorem isFirst_unaccepted_iff {r : Registry H} {site : Site} {name : String}
    {found : List (Resolved H)} {arg : Argument H.Raw} {args : List (Argument H.Raw)}
    (h : Expansion.expand r.catalog site name = .ok found) :
    IsFirst (fun arg => arg.label ∉ found.flatMap fun g => g.generator.accepted) arg args ↔
      IsFirst (fun arg => ¬ r.Accepts site name arg.label) arg args := by
  apply IsFirst.congr
  intro arg _
  rw [mem_accepted_iff_accepts h]

theorem fault_of_check {r : Registry H} {site : Site} {seen : List String}
    {inv : Invocation H.Raw} {e : Diagnostic} (h : (r.check site seen inv).result = .error e) :
    r.Fault site seen inv e := by
  rcases result_check_eq_error_iff.1 h with hlabels | ⟨hlabels, hrest⟩
  · rcases Invocation.checkLabels_eq_error_iff.1 hlabels with
      ⟨arg, hfirst, rfl⟩ | ⟨hlabelled, arg, hfirst, rfl⟩
    · exact .positional hfirst
    · exact .duplicate hlabelled hfirst
  rcases hrest with hunresolved | ⟨found, hfound, hrest⟩
  · exact .unresolved hlabels hunresolved
  rcases hrest with haccepted | ⟨haccepts, hdependencies⟩
  · rcases Invocation.checkAccepted_eq_error_iff.1 haccepted with ⟨arg, hfirst, rfl⟩
    have hfirst := (isFirst_unaccepted_iff hfound).1 hfirst
    exact .unaccepted hlabels hfound hfirst fun label => mem_accepted_iff_accepts hfound
  · rcases result_checkDependencies_eq_error_iff.1 hdependencies with
      ⟨g, dependency, hfirst, hunmet⟩
    exact .unmet hlabels hfound haccepts hfirst hunmet

theorem result_applyInvocation_eq_error_iff {r : Registry H} {a : Attachment H}
    {p : BatchProgress H} {inv : Invocation H.Raw} {e : Diagnostic} :
    (r.applyInvocation a p inv).result = .error e ↔ r.Fault a.site p.seen inv e := by
  unfold applyInvocation
  simp only [Logged.result_bind_eq_error_iff, Logged.result_pure]
  constructor
  · intro h
    rcases h with hcheck | ⟨found, hcheck, happly | ⟨_, _, hpure⟩⟩
    · exact fault_of_check hcheck
    · rcases result_check_eq_ok_iff.1 hcheck with ⟨hlabels, hfound, haccepts, hmet⟩
      rcases result_applyGenerators_eq_error_iff.1 happly with
        ⟨g, hgenerator, rejection, hreject, rfl⟩
      rcases Schema.bind_eq_error_iff.1 hreject with ⟨q, hparameter, arg, harg, rfl⟩
      exact .rejected hlabels hfound haccepts hmet hgenerator hparameter harg
    · cases hpure
  · intro h
    cases h with
    | positional hfirst =>
        have hfails := Invocation.checkLabels_eq_error_iff.2 (.inl ⟨_, hfirst, rfl⟩)
        left
        apply result_check_eq_error_iff.2
        exact .inl hfails
    | duplicate hlabelled hfirst =>
        have hfails :=
          Invocation.checkLabels_eq_error_iff.2 (.inr ⟨hlabelled, _, hfirst, rfl⟩)
        left
        apply result_check_eq_error_iff.2
        exact .inl hfails
    | unresolved hlabels hunresolved =>
        left
        apply result_check_eq_error_iff.2
        exact .inr ⟨hlabels, .inl hunresolved⟩
    | @unaccepted arg found accepted hlabels hfound hfirst haccepted =>
        -- the list behind the hint may be another one, but it has the same members
        have hhint : Spelling.suggest r.settings.cutoff arg.label accepted =
            Spelling.suggest r.settings.cutoff arg.label
              (found.flatMap fun g => g.generator.accepted) := by
          apply Spelling.suggest_congr
          intro label
          rw [mem_accepted_iff_accepts hfound, haccepted]
        have hfirst := (isFirst_unaccepted_iff hfound).2 hfirst
        rw [hhint]
        left
        apply result_check_eq_error_iff.2
        refine .inr ⟨hlabels, .inr ⟨found, hfound, .inl ?_⟩⟩
        exact Invocation.checkAccepted_eq_error_iff.2 ⟨arg, hfirst, rfl⟩
    | unmet hlabels hfound haccepts hfirst hunmet =>
        have hfails := result_checkDependencies_eq_error_iff.2 ⟨_, _, hfirst, hunmet⟩
        left
        apply result_check_eq_error_iff.2
        exact .inr ⟨hlabels, .inr ⟨_, hfound, .inr ⟨haccepts, hfails⟩⟩⟩
    | rejected hlabels hfound haccepts hmet hgenerator hparameter harg =>
        -- the one fault that is found after the checks
        have hcheck := result_check_eq_ok_iff.2 ⟨hlabels, hfound, haccepts, hmet⟩
        have hreject := Schema.bind_eq_error_iff.2 ⟨_, hparameter, _, harg, rfl⟩
        right
        refine ⟨_, hcheck, .inl ?_⟩
        exact result_applyGenerators_eq_error_iff.2 ⟨_, hgenerator, _, hreject, rfl⟩

theorem exists_fault_iff {r : Registry H} (a : Attachment H) {seen : List String}
    {inv : Invocation H.Raw} :
    (∃ e, r.Fault a.site seen inv e) ↔ ¬ r.Admits a.site seen inv := by
  have hok := @result_applyInvocation_eq_ok_iff H r a ⟨seen, {}⟩
  have herror := @result_applyInvocation_eq_error_iff H r a ⟨seen, {}⟩ inv
  constructor
  · intro h hadmits
    rcases h with ⟨e, hfault⟩
    have hfails := herror.2 hfault
    rw [hok.2 ⟨hadmits, rfl⟩] at hfails
    cases hfails
  · intro hnot
    cases hresult : (r.applyInvocation a ⟨seen, {}⟩ inv).result with
    | ok p => exact absurd (hok.1 hresult).1 hnot
    | error e => exact ⟨e, herror.1 hresult⟩

theorem result_composeAll_eq_error_iff {r : Registry H} {a : Attachment H}
    {invs : List (Invocation H.Raw)} {e : Diagnostic} :
    (r.composeAll a invs).result = .error e ↔
      ∃ before inv after, invs = before ++ inv :: after ∧ r.AdmitsAll a.site [] before ∧
        r.Fault a.site (r.appliedNames a.site before) inv e := by
  have hloop : (r.composeAll a invs).result = .error e ↔
      (invs.foldlM (r.applyInvocation a) {}).result = .error e := by
    unfold composeAll
    simp only [Logged.result_bind, Logged.result_report, Logged.result_pure]
    cases (invs.foldlM (r.applyInvocation a) {}).result <;> simp [Except.bind]
  rw [hloop, Logged.result_foldlM_eq_error_iff]
  simp only [result_applyInvocations_eq_ok_iff, result_applyInvocation_eq_error_iff]
  constructor
  · intro h
    rcases h with ⟨before, inv, after, p, hsplit, ⟨hall, rfl⟩, hfault⟩
    exact ⟨before, inv, after, hsplit, hall, hfault⟩
  · intro h
    rcases h with ⟨before, inv, after, hsplit, hall, hfault⟩
    exact ⟨before, inv, after, _, hsplit, ⟨hall, rfl⟩, hfault⟩

/-- A batch fails with the fault of its first invocation that is not admitted. -/
theorem compose_fails_iff (r : Registry H) (a : Attachment H) (invs : List (Invocation H.Raw))
    (e : Diagnostic) :
    (r.compose a invs).2.result = .error e ↔
      ∃ i, ∃ hi : i < invs.length,
        (∀ j (hj : j < i), r.Admits a.site (r.appliedNames a.site (invs.take j)) invs[j]) ∧
        ¬ r.Admits a.site (r.appliedNames a.site (invs.take i)) invs[i] ∧
        r.Fault a.site (r.appliedNames a.site (invs.take i)) invs[i] e := by
  rw [result_compose, result_composeAll_eq_error_iff]
  constructor
  · intro h
    rcases h with ⟨before, inv, after, rfl, hall, hfault⟩
    refine ⟨before.length, by simp, ?_, ?_, ?_⟩
    · intro j hj
      have hadmits := hall j hj
      rw [List.take_append_of_le_length (by omega), List.getElem_append_left hj]
      exact hadmits
    · rw [← exists_fault_iff]
      exact ⟨e, by simpa using hfault⟩
    · simpa using hfault
  · intro h
    rcases h with ⟨i, hi, hall, -, hfault⟩
    refine ⟨invs.take i, invs[i], invs.drop (i + 1), ?_, ?_, hfault⟩
    · rw [List.getElem_cons_drop, List.take_append_drop]
    · intro j hj
      have hji : j < i := by
        rw [List.length_take] at hj
        omega
      rw [List.take_take, Nat.min_eq_left (by omega), List.getElem_take]
      exact hall j hji

end Registry

end CodegenRegistry
