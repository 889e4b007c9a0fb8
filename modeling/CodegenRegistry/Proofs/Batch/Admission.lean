import CodegenRegistry.Batch.Composition
import CodegenRegistry.Proofs.Loops
import Mathlib
/-!
# Admission of invocations

Of the batch before it an invocation sees only the names of the generators applied so far. A batch
succeeds exactly when each invocation is admitted after the ones before it; its items and tags can
then be read off the generators that the invocations stand for.
-/

namespace CodegenRegistry

/-! ## Labels -/

namespace Argument

variable {R : Type}

def IsLabelled (a : Argument R) : Prop :=
  ∃ s, a.written = some s ∧ s ≠ ""

theorem isNone_label?_iff {a : Argument R} : a.label?.isNone ↔ ¬ a.IsLabelled := by
  rw [Option.isNone_iff_eq_none, label?, Option.filter_eq_none_iff]
  simp [IsLabelled]

theorem IsLabelled.label?_eq {a : Argument R} (h : a.IsLabelled) : a.label? = some a.label := by
  obtain ⟨s, hwritten, hne⟩ := h
  have hlabel : a.label? = some s := by
    rw [label?, hwritten]
    simp [Option.filter, hne]
  rw [label, hlabel]
  rfl

end Argument

namespace Invocation

variable {R : Type}

structure WellLabelled (inv : Invocation R) : Prop where
  labelled : ∀ arg ∈ inv.args, arg.IsLabelled
  distinct : (inv.args.map Argument.label).Nodup

theorem repeated?_eq_none_iff {earlier : List String} {args : List (Argument R)} :
    repeated? earlier args = none ↔
      (args.map Argument.label).Nodup ∧ ∀ a ∈ args, a.label ∉ earlier := by
  induction args generalizing earlier with
  | nil => simp [repeated?]
  | cons a rest ih =>
      rw [repeated?]
      by_cases ha : a.label ∈ earlier
      · simp [ha]
      · rw [if_neg ha, ih, List.map_cons, List.nodup_cons, List.forall_mem_cons]
        simp only [List.mem_map, List.mem_cons, not_exists, not_and, not_or]
        constructor
        · intro h
          obtain ⟨hrest, hfresh⟩ := h
          exact ⟨⟨fun b hb => (hfresh b hb).1, hrest⟩, ha, fun b hb => (hfresh b hb).2⟩
        · intro h
          obtain ⟨⟨hne, hrest⟩, -, hfresh⟩ := h
          exact ⟨hrest, fun b hb => ⟨hne b hb, hfresh b hb⟩⟩

theorem repeated?_nil_eq_none_iff {args : List (Argument R)} :
    repeated? [] args = none ↔ (args.map Argument.label).Nodup := by
  simp [repeated?_eq_none_iff]

theorem find?_unlabelled_eq_none_iff {args : List (Argument R)} :
    (args.find? fun a => a.label?.isNone) = none ↔ ∀ a ∈ args, a.IsLabelled := by
  simp only [List.find?_eq_none, Argument.isNone_label?_iff, Classical.not_not]

variable [RawValue R]

theorem checkLabels_eq_ok_iff {inv : Invocation R} :
    inv.checkLabels = .ok () ↔ inv.WellLabelled := by
  have hwell : inv.WellLabelled ↔
      (inv.args.find? fun a => a.label?.isNone) = none ∧ repeated? [] inv.args = none := by
    rw [find?_unlabelled_eq_none_iff, repeated?_nil_eq_none_iff]
    exact ⟨fun h => ⟨h.labelled, h.distinct⟩, fun h => ⟨h.1, h.2⟩⟩
  rw [hwell, checkLabels]
  cases inv.args.find? fun a => a.label?.isNone with
  | some a => simp
  | none => cases repeated? [] inv.args <;> simp

theorem checkAccepted_eq_ok_iff {cutoff : Cutoff} {accepted : List String}
    {inv : Invocation R} :
    inv.checkAccepted cutoff accepted = .ok () ↔ ∀ a ∈ inv.args, a.label ∈ accepted := by
  have hnone : (inv.args.find? fun a => a.label ∉ accepted) = none ↔
      ∀ a ∈ inv.args, a.label ∈ accepted := by
    simp [List.find?_eq_none]
  rw [← hnone, checkAccepted]
  cases inv.args.find? fun a => a.label ∉ accepted <;> simp

end Invocation

/-! ## One invocation -/

namespace Registry

variable {H : Host}

/-- The generators that a name stands for at a site; none if it does not resolve. -/
def generators (r : Registry H) (site : Site) (name : String) : List (Resolved H) :=
  (Expansion.expand r.catalog site name).toOption.getD []

def Accepts (r : Registry H) (site : Site) (name label : String) : Prop :=
  ∃ g ∈ r.generators site name, label ∈ g.generator.accepted

def Meets (r : Registry H) (site : Site) (seen : List String) (dependency : String) : Prop :=
  ∃ required, Expansion.expand r.catalog site dependency = .ok required ∧
    ∀ g ∈ required, g.name ∈ seen

/-- What an invocation has to satisfy once the generators of some names have been seen. -/
structure Admits (r : Registry H) (site : Site) (seen : List String) (inv : Invocation H.Raw) :
    Prop where
  labels : inv.WellLabelled
  resolves : ∃ found, Expansion.expand r.catalog site inv.name.value = .ok found
  accepted : ∀ arg ∈ inv.args, r.Accepts site inv.name.value arg.label
  met : ∀ g ∈ r.generators site inv.name.value, ∀ dependency ∈ g.generator.dependencies,
    r.Meets site seen dependency
  binds : ∀ g ∈ r.generators site inv.name.value, ∃ values,
    g.generator.schema.bind inv.args = .ok values

theorem generators_of_expand {r : Registry H} {site : Site} {name : String}
    {found : List (Resolved H)} (h : Expansion.expand r.catalog site name = .ok found) :
    r.generators site name = found := by
  unfold generators
  rw [h]
  rfl

theorem expand_generators {r : Registry H} {site : Site} {name : String}
    (h : ∃ found, Expansion.expand r.catalog site name = .ok found) :
    Expansion.expand r.catalog site name = .ok (r.generators site name) := by
  obtain ⟨found, hfound⟩ := h
  rw [generators_of_expand hfound, hfound]

theorem Meets.mono {r : Registry H} {site : Site} {seen seen' : List String}
    {dependency : String} (hseen : seen ⊆ seen') (h : r.Meets site seen dependency) :
    r.Meets site seen' dependency := by
  obtain ⟨required, hrequired, hall⟩ := h
  exact ⟨required, hrequired, fun g hg => hseen (hall g hg)⟩

theorem Admits.mono {r : Registry H} {site : Site} {seen seen' : List String}
    {inv : Invocation H.Raw} (hseen : seen ⊆ seen') (h : r.Admits site seen inv) :
    r.Admits site seen' inv where
  labels := h.labels
  resolves := h.resolves
  accepted := h.accepted
  met g hg dependency hdependency := (h.met g hg dependency hdependency).mono hseen
  binds := h.binds

theorem meets_iff_of_expand {r : Registry H} {site : Site} {seen : List String}
    {dependency : String} {required : List (Resolved H)}
    (h : Expansion.expand r.catalog site dependency = .ok required) :
    r.Meets site seen dependency ↔ required.all fun g => g.name ∈ seen := by
  simp [Meets, h]

theorem result_checkDependency_eq_ok_iff {r : Registry H} {site : Site} {loc : Position}
    {seen : List String} {requiredBy dependency : String} :
    (r.checkDependency site loc seen requiredBy dependency).result = .ok () ↔
      r.Meets site seen dependency := by
  unfold checkDependency
  rw [Logged.result_bind_eq_ok_iff]
  simp only [result_resolve_eq_ok_iff]
  constructor
  · intro h
    obtain ⟨required, hrequired, hall⟩ := h
    apply (meets_iff_of_expand hrequired).2
    apply Classical.byContradiction
    intro hnot
    rw [if_neg hnot] at hall
    cases hall
  · intro h
    obtain ⟨required, hrequired, -⟩ := id h
    exact ⟨required, hrequired, by rw [if_pos ((meets_iff_of_expand hrequired).1 h)]; rfl⟩

theorem result_checkDependencies_eq_ok_iff {r : Registry H} {site : Site} {loc : Position}
    {seen : List String} {found : List (Resolved H)} :
    (r.checkDependencies site loc seen found).result = .ok () ↔
      ∀ g ∈ found, ∀ dependency ∈ g.generator.dependencies, r.Meets site seen dependency := by
  unfold checkDependencies
  simp only [List.forM_eq_forM, Logged.result_forM_eq_ok_iff, result_checkDependency_eq_ok_iff]

theorem mem_accepted_iff_accepts {r : Registry H} {site : Site} {name label : String}
    {found : List (Resolved H)} (h : Expansion.expand r.catalog site name = .ok found) :
    (label ∈ found.flatMap fun g => g.generator.accepted) ↔ r.Accepts site name label := by
  unfold Accepts
  rw [generators_of_expand h, List.mem_flatMap]

theorem result_check_eq_ok_iff {r : Registry H} {site : Site} {seen : List String}
    {inv : Invocation H.Raw} {found : List (Resolved H)} :
    (r.check site seen inv).result = .ok found ↔
      inv.WellLabelled ∧ Expansion.expand r.catalog site inv.name.value = .ok found ∧
        (∀ arg ∈ inv.args, r.Accepts site inv.name.value arg.label) ∧
        ∀ g ∈ found, ∀ dependency ∈ g.generator.dependencies, r.Meets site seen dependency := by
  unfold check
  simp only [Logged.result_bind_eq_ok_iff, Logged.result_ofExcept, Logged.result_pure,
    result_resolve_eq_ok_iff]
  constructor
  · intro h
    obtain ⟨⟨⟩, hlabels, found', hfound, ⟨⟩, haccepted, ⟨⟩, hmet, hpure⟩ := h
    obtain rfl := Except.ok.inj hpure
    have haccepted := Invocation.checkAccepted_eq_ok_iff.1 haccepted
    simp only [mem_accepted_iff_accepts hfound] at haccepted
    exact ⟨Invocation.checkLabels_eq_ok_iff.1 hlabels, hfound, haccepted,
      result_checkDependencies_eq_ok_iff.1 hmet⟩
  · intro h
    obtain ⟨hlabels, hfound, haccepted, hmet⟩ := h
    simp only [← mem_accepted_iff_accepts hfound] at haccepted
    exact ⟨(), Invocation.checkLabels_eq_ok_iff.2 hlabels, found, hfound,
      (), Invocation.checkAccepted_eq_ok_iff.2 haccepted,
      (), result_checkDependencies_eq_ok_iff.2 hmet, rfl⟩

/-- The generators get past the checks exactly when the invocation is admitted but for the
binding of its arguments. -/
theorem admits_iff_check {r : Registry H} {site : Site} {seen : List String}
    {inv : Invocation H.Raw} :
    r.Admits site seen inv ↔
      (r.check site seen inv).result = .ok (r.generators site inv.name.value) ∧
        ∀ g ∈ r.generators site inv.name.value, ∃ values,
          g.generator.schema.bind inv.args = .ok values := by
  rw [result_check_eq_ok_iff]
  constructor
  · intro h
    rcases h.resolves with ⟨found, hfound⟩
    have hgenerators := generators_of_expand hfound
    exact ⟨⟨h.labels, hgenerators ▸ hfound, h.accepted, h.met⟩, h.binds⟩
  · intro h
    obtain ⟨⟨hlabels, hfound, haccepted, hmet⟩, hbinds⟩ := h
    exact ⟨hlabels, ⟨_, hfound⟩, haccepted, hmet, hbinds⟩

end Registry

/-! ## What is made -/

namespace Composition

variable {H : Host}

theorem addTags_nil (new : List String) : addTags [] new = new.eraseDups := by
  have h := foldl_appendNew_nil id new
  simp only [List.map_id, id_eq] at h
  exact h

@[simp] theorem add_nil_nil (c : Composition H) : c.add [] [] = c := by
  simp [add, addTags]

theorem add_add (c : Composition H) (items items' : List H.Item) (tags tags' : List String) :
    (c.add items tags).add items' tags' = c.add (items ++ items') (tags ++ tags') := by
  simp [add, addTags, List.foldl_append]

end Composition

def Resolved.received {H : Host} (args : List (Argument H.Raw)) (g : Resolved H) :
    List H.Value :=
  (g.generator.schema.bind args).toOption.getD []

theorem Resolved.bind_received {H : Host} {args : List (Argument H.Raw)} {g : Resolved H}
    (h : ∃ values, g.generator.schema.bind args = .ok values) :
    g.generator.schema.bind args = .ok (g.received args) := by
  obtain ⟨values, hvalues⟩ := h
  rw [received, hvalues]
  rfl

/-- What a generator makes of some arguments; nothing if it rejects them. -/
def Resolved.made {H : Host} (a : Attachment H) (args : List (Argument H.Raw))
    (g : Resolved H) : List H.Item :=
  (g.generator.run a.context a.declaration args).toOption.getD []

theorem Resolved.made_of_bind {H : Host} (a : Attachment H) {args : List (Argument H.Raw)}
    {g : Resolved H} {values : List H.Value} (h : g.generator.schema.bind args = .ok values) :
    g.made a args = g.generator.produce a.context a.declaration values := by
  rw [made, Generator.run, h]
  rfl

namespace Registry

variable {H : Host}

theorem result_applyGenerator_eq_ok_iff {a : Attachment H} {args : List (Argument H.Raw)}
    {c c' : Composition H} {g : Resolved H} :
    (applyGenerator a args c g).result = .ok c' ↔
      (∃ values, g.generator.schema.bind args = .ok values) ∧
        c' = c.add (g.made a args) g.generator.tags := by
  unfold applyGenerator Resolved.made Generator.run
  simp only [Logged.result_bind_eq_ok_iff, Logged.result_ofExcept, mapError_eq_ok_iff]
  cases g.generator.schema.bind args with
  | error e => simp [Except.map]
  | ok values => simp [Except.map, Except.toOption, eq_comm]

theorem result_applyGenerators_eq_ok_iff {a : Attachment H} {args : List (Argument H.Raw)}
    {c c' : Composition H} {found : List (Resolved H)} :
    (found.foldlM (applyGenerator a args) c).result = .ok c' ↔
      (∀ g ∈ found, ∃ values, g.generator.schema.bind args = .ok values) ∧
        c' = c.add (found.flatMap (Resolved.made a args))
          (found.flatMap fun g => g.generator.tags) := by
  induction found generalizing c with
  | nil => simp [eq_comm]
  | cons g found ih =>
      rw [List.foldlM_cons, Logged.result_bind_eq_ok_iff, List.forall_mem_cons,
        List.flatMap_cons, List.flatMap_cons, ← Composition.add_add]
      constructor
      · intro h
        obtain ⟨c₁, hg, hrest⟩ := h
        obtain ⟨hbind, rfl⟩ := result_applyGenerator_eq_ok_iff.1 hg
        obtain ⟨hbinds, rfl⟩ := ih.1 hrest
        exact ⟨⟨hbind, hbinds⟩, rfl⟩
      · intro h
        obtain ⟨⟨hbind, hbinds⟩, rfl⟩ := h
        exact ⟨_, result_applyGenerator_eq_ok_iff.2 ⟨hbind, rfl⟩, ih.2 ⟨hbinds, rfl⟩⟩

end Registry

/-! ## Whole batches -/

namespace Registry

variable {H : Host}

def appliedNames (r : Registry H) (site : Site) (invs : List (Invocation H.Raw)) :
    List String :=
  invs.flatMap fun inv => (r.generators site inv.name.value).map Resolved.name

def madeItems (r : Registry H) (a : Attachment H) (invs : List (Invocation H.Raw)) :
    List H.Item :=
  invs.flatMap fun inv => (r.generators a.site inv.name.value).flatMap (Resolved.made a inv.args)

def appliedTags (r : Registry H) (site : Site) (invs : List (Invocation H.Raw)) : List String :=
  invs.flatMap fun inv =>
    (r.generators site inv.name.value).flatMap fun g => g.generator.tags

theorem appliedNames_append (r : Registry H) (site : Site) (xs ys : List (Invocation H.Raw)) :
    r.appliedNames site (xs ++ ys) = r.appliedNames site xs ++ r.appliedNames site ys :=
  List.flatMap_append

theorem madeItems_append (r : Registry H) (a : Attachment H) (xs ys : List (Invocation H.Raw)) :
    r.madeItems a (xs ++ ys) = r.madeItems a xs ++ r.madeItems a ys :=
  List.flatMap_append

theorem appliedTags_append (r : Registry H) (site : Site) (xs ys : List (Invocation H.Raw)) :
    r.appliedTags site (xs ++ ys) = r.appliedTags site xs ++ r.appliedTags site ys :=
  List.flatMap_append

theorem result_applyInvocation_eq_ok_iff {r : Registry H} {a : Attachment H}
    {p p' : BatchProgress H} {inv : Invocation H.Raw} :
    (r.applyInvocation a p inv).result = .ok p' ↔
      r.Admits a.site p.seen inv ∧
        p' = ⟨p.seen ++ r.appliedNames a.site [inv],
          p.composition.add (r.madeItems a [inv]) (r.appliedTags a.site [inv])⟩ := by
  rw [admits_iff_check]
  unfold applyInvocation
  simp only [Logged.result_bind_eq_ok_iff, Logged.result_pure, result_applyGenerators_eq_ok_iff,
    appliedNames, madeItems, appliedTags, List.flatMap_singleton]
  constructor
  · intro h
    obtain ⟨found, hcheck, c, ⟨hbinds, rfl⟩, hpure⟩ := h
    obtain rfl := generators_of_expand (result_check_eq_ok_iff.1 hcheck).2.1
    exact ⟨⟨hcheck, hbinds⟩, (Except.ok.inj hpure).symm⟩
  · intro h
    obtain ⟨⟨hcheck, hbinds⟩, rfl⟩ := h
    exact ⟨_, hcheck, _, ⟨hbinds, rfl⟩, rfl⟩

def AdmitsAll (r : Registry H) (site : Site) (seen : List String)
    (invs : List (Invocation H.Raw)) : Prop :=
  ∀ i (hi : i < invs.length), r.Admits site (seen ++ r.appliedNames site (invs.take i)) invs[i]

theorem admitsAll_nil (r : Registry H) (site : Site) (seen : List String) :
    r.AdmitsAll site seen [] := by
  intro i hi
  simp at hi

theorem admitsAll_cons_iff {r : Registry H} {site : Site} {seen : List String}
    {inv : Invocation H.Raw} {invs : List (Invocation H.Raw)} :
    r.AdmitsAll site seen (inv :: invs) ↔
      r.Admits site seen inv ∧ r.AdmitsAll site (seen ++ r.appliedNames site [inv]) invs := by
  have hhead : seen ++ r.appliedNames site [] = seen := List.append_nil seen
  have htail : ∀ i, seen ++ r.appliedNames site ((inv :: invs).take (i + 1)) =
      seen ++ r.appliedNames site [inv] ++ r.appliedNames site (invs.take i) := by
    intro i
    simp [appliedNames]
  constructor
  · intro h
    refine ⟨hhead ▸ h 0 (by simp), ?_⟩
    intro i hi
    exact htail i ▸ h (i + 1) (by simpa using hi)
  · intro h i hi
    cases i with
    | zero => exact hhead.symm ▸ h.1
    | succ i => exact (htail i).symm ▸ h.2 i (by simpa using hi)

theorem admitsAll_append_iff {r : Registry H} {site : Site} {seen : List String}
    {xs ys : List (Invocation H.Raw)} :
    r.AdmitsAll site seen (xs ++ ys) ↔
      r.AdmitsAll site seen xs ∧ r.AdmitsAll site (seen ++ r.appliedNames site xs) ys := by
  induction xs generalizing seen with
  | nil => simp [admitsAll_nil, appliedNames]
  | cons x xs ih =>
      have hnames : seen ++ r.appliedNames site [x] ++ r.appliedNames site xs =
          seen ++ r.appliedNames site (x :: xs) := by simp [appliedNames]
      rw [List.cons_append, admitsAll_cons_iff, admitsAll_cons_iff, ih, hnames, and_assoc]

theorem AdmitsAll.admits {r : Registry H} {site : Site} {seen : List String}
    {invs : List (Invocation H.Raw)} {inv : Invocation H.Raw} (h : r.AdmitsAll site seen invs)
    (hmem : inv ∈ invs) : ∃ seen, r.Admits site seen inv := by
  obtain ⟨i, hi, rfl⟩ := List.mem_iff_getElem.1 hmem
  exact ⟨_, h i hi⟩

theorem AdmitsAll.mono {r : Registry H} {site : Site} {seen seen' : List String}
    {invs : List (Invocation H.Raw)} (hseen : seen ⊆ seen') (h : r.AdmitsAll site seen invs) :
    r.AdmitsAll site seen' invs := by
  intro i hi
  apply (h i hi).mono
  exact List.append_subset.2
    ⟨List.subset_append_of_subset_left _ hseen, List.subset_append_right _ _⟩

theorem result_applyInvocations_eq_ok_iff {r : Registry H} {a : Attachment H}
    {p p' : BatchProgress H} {invs : List (Invocation H.Raw)} :
    (invs.foldlM (r.applyInvocation a) p).result = .ok p' ↔
      r.AdmitsAll a.site p.seen invs ∧
        p' = ⟨p.seen ++ r.appliedNames a.site invs,
          p.composition.add (r.madeItems a invs) (r.appliedTags a.site invs)⟩ := by
  induction invs generalizing p with
  | nil => simp [admitsAll_nil, appliedNames, madeItems, appliedTags, eq_comm]
  | cons inv invs ih =>
      rw [List.foldlM_cons, Logged.result_bind_eq_ok_iff, admitsAll_cons_iff]
      simp only [result_applyInvocation_eq_ok_iff, ih]
      constructor
      · intro h
        obtain ⟨p₁, ⟨hinv, rfl⟩, hrest, rfl⟩ := h
        refine ⟨⟨hinv, hrest⟩, ?_⟩
        rw [Composition.add_add]
        simp [appliedNames, madeItems, appliedTags]
      · intro h
        obtain ⟨⟨hinv, hrest⟩, rfl⟩ := h
        refine ⟨_, ⟨hinv, rfl⟩, hrest, ?_⟩
        rw [Composition.add_add]
        simp [appliedNames, madeItems, appliedTags]

/-- The end of registration does not matter to a batch. -/
theorem composeAll_startBatch (r : Registry H) (a : Attachment H)
    (invs : List (Invocation H.Raw)) :
    r.startBatch.1.composeAll a invs = r.composeAll a invs := by
  unfold startBatch endRegistration
  split
  · split <;> rfl
  · rfl

theorem result_compose (r : Registry H) (a : Attachment H) (invs : List (Invocation H.Raw)) :
    (r.compose a invs).2.result = (r.composeAll a invs).result := by
  rw [← composeAll_startBatch]
  rfl

theorem result_composeAll_eq_ok_iff {r : Registry H} {a : Attachment H}
    {invs : List (Invocation H.Raw)} {c : Composition H} :
    (r.composeAll a invs).result = .ok c ↔
      r.AdmitsAll a.site [] invs ∧
        c = ⟨r.madeItems a invs, (r.appliedTags a.site invs).eraseDups⟩ := by
  unfold composeAll
  simp only [Logged.result_bind_eq_ok_iff, Logged.result_report, Logged.result_pure,
    result_applyInvocations_eq_ok_iff]
  rw [← Composition.addTags_nil]
  constructor
  · intro h
    obtain ⟨-, -, p, ⟨hall, rfl⟩, -, -, hpure⟩ := h
    exact ⟨hall, (Except.ok.inj hpure).symm⟩
  · intro h
    obtain ⟨hall, rfl⟩ := h
    exact ⟨(), trivial, _, ⟨hall, rfl⟩, (), trivial, rfl⟩

theorem result_compose_eq_ok_iff {r : Registry H} {a : Attachment H}
    {invs : List (Invocation H.Raw)} {c : Composition H} :
    (r.compose a invs).2.result = .ok c ↔
      r.AdmitsAll a.site [] invs ∧
        c = ⟨r.madeItems a invs, (r.appliedTags a.site invs).eraseDups⟩ := by
  rw [result_compose, result_composeAll_eq_ok_iff]

theorem AdmitsAll.madeItems_eq {r : Registry H} {a : Attachment H} {seen : List String}
    {invs : List (Invocation H.Raw)} (h : r.AdmitsAll a.site seen invs) :
    ∃ values : Invocation H.Raw → Resolved H → List H.Value,
      (∀ inv ∈ invs, ∀ g ∈ r.generators a.site inv.name.value,
        g.generator.schema.bind inv.args = .ok (values inv g)) ∧
      r.madeItems a invs = invs.flatMap fun inv =>
        (r.generators a.site inv.name.value).flatMap fun g =>
          g.generator.produce a.context a.declaration (values inv g) := by
  have hbinds : ∀ inv ∈ invs, ∀ g ∈ r.generators a.site inv.name.value,
      g.generator.schema.bind inv.args = .ok (g.received inv.args) := by
    intro inv hinv g hg
    obtain ⟨seen, hadmits⟩ := h.admits hinv
    exact Resolved.bind_received (hadmits.binds g hg)
  refine ⟨fun inv g => g.received inv.args, hbinds, ?_⟩
  exact List.flatMap_congr fun inv hinv => List.flatMap_congr fun g hg =>
    Resolved.made_of_bind a (hbinds inv hinv g hg)

/-- A batch succeeds exactly when each invocation is admitted after the ones before it. Its items
and tags are then those of the generators in the order of application. -/
theorem compose_succeeds_iff (r : Registry H) (a : Attachment H)
    (invs : List (Invocation H.Raw)) :
    ((∃ c, (r.compose a invs).2.result = .ok c) ↔
        ∀ i (hi : i < invs.length),
          r.Admits a.site (r.appliedNames a.site (invs.take i)) invs[i]) ∧
      (∀ c, (r.compose a invs).2.result = .ok c →
        (∃ values : Invocation H.Raw → Resolved H → List H.Value,
          (∀ inv ∈ invs, ∀ g ∈ r.generators a.site inv.name.value,
            g.generator.schema.bind inv.args = .ok (values inv g)) ∧
          c.items = invs.flatMap fun inv =>
            (r.generators a.site inv.name.value).flatMap fun g =>
              g.generator.produce a.context a.declaration (values inv g)) ∧
        c.tags = (r.appliedTags a.site invs).eraseDups) ∧
      (r.runBatch a invs).2.result = (r.compose a invs).2.result.map Composition.items := by
  unfold runBatch
  rw [Logged.result_map, result_compose]
  simp only [result_composeAll_eq_ok_iff]
  refine ⟨?_, ?_, trivial⟩
  · constructor
    · intro h i hi
      obtain ⟨c, hall, -⟩ := h
      exact hall i hi
    · intro h
      exact ⟨_, fun i hi => h i hi, rfl⟩
  · intro c h
    obtain ⟨hall, rfl⟩ := h
    exact ⟨hall.madeItems_eq, rfl⟩

end Registry

def Generator.stamping : Generator Host.text where
  schema := ⟨[Parameter.string (R := Host.text.Raw) "as" "-"], List.pairwise_singleton _ _⟩
  produce context declaration values := context :: declaration :: values
  tags := ["stamp"]

def Registry.stamped : Registry Host.text where
  catalog := NameTable.empty.insert "stamp" (.ofBundle ⟨fun _ => some .stamping, none⟩)

theorem Registry.stamped_succeeds :
    let a : Attachment Host.text := ⟨.structureType, "c", "d"⟩
    let invs : List (Invocation Host.text.Raw) :=
      [⟨⟨"stamp", .nowhere⟩, [.labelled "as" "1"]⟩, ⟨⟨"stamp", .nowhere⟩, []⟩]
    (∀ i (hi : i < invs.length),
        stamped.Admits a.site (stamped.appliedNames a.site (invs.take i)) invs[i]) ∧
      (stamped.compose a invs).2.result = .ok ⟨["c", "d", "1", "c", "d", "-"], ["stamp"]⟩ ∧
      (∃ values : Invocation Host.text.Raw → Resolved Host.text → List Host.text.Value,
        (∀ inv ∈ invs, ∀ g ∈ stamped.generators a.site inv.name.value,
          g.generator.schema.bind inv.args = .ok (values inv g)) ∧
        ["c", "d", "1", "c", "d", "-"] = invs.flatMap fun inv =>
          (stamped.generators a.site inv.name.value).flatMap fun g =>
            g.generator.produce a.context a.declaration (values inv g)) ∧
      (stamped.runBatch a invs).2.result = .ok ["c", "d", "1", "c", "d", "-"] := by
  intro a invs
  have hresult : (stamped.compose a invs).2.result =
      .ok ⟨["c", "d", "1", "c", "d", "-"], ["stamp"]⟩ := by cbv
  obtain ⟨hsucceeds, hitems, hrun⟩ := compose_succeeds_iff stamped a invs
  obtain ⟨hvalues, -⟩ := hitems _ hresult
  refine ⟨hsucceeds.1 ⟨_, hresult⟩, hresult, hvalues, ?_⟩
  rw [hrun, hresult]
  rfl

end CodegenRegistry
