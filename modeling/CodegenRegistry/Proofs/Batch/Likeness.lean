import CodegenRegistry.Proofs.Batch.Admission
import CodegenRegistry.Proofs.Expansion.Likeness
/-!
# Batches in registries that are alike

The checks of a batch look at schemas, dependencies and tags of generators, and never at what a
generator makes. In a registry that agrees on these a batch goes through the same checks, generator
by generator. How much the results have in common depends on what the generators have in common.
-/

namespace CodegenRegistry

variable {H : Host}

structure Generator.SameInterface (g g' : Generator H) : Prop where
  schema : g.schema = g'.schema
  dependencies : g.dependencies = g'.dependencies
  tags : g.tags = g'.tags

theorem Generator.SameInterface.refl (g : Generator H) : g.SameInterface g :=
  ⟨rfl, rfl, rfl⟩

def Diagnostic.Wants (new : String → Prop) : Diagnostic → Prop
  | unknownGenerator name _ _ _ => new name
  | _ => False

theorem Diagnostic.not_wants (e : Diagnostic) : ¬ e.Wants fun _ => False := by
  cases e <;> exact not_false

/-- Whatever a batch finds at a site of the first registry it finds at the second one, with the same
diagnostics as far as `E` tells them apart. -/
structure Registry.Covers (G : Generator H → Generator H → Prop) (new : String → Prop)
    (E : Diagnostic → Diagnostic → Prop) (site : Site) (r r' : Registry H) : Prop where
  cutoff : r.settings.cutoff = r'.settings.cutoff
  catalog : Expansion.Covers G new site r.catalog r'.catalog
  interface : ∀ g g', G g g' → g.SameInterface g'
  same : ∀ e, E e e
  diagnose : ∀ loc failure, E (r.diagnose site loc failure) (r'.diagnose site loc failure)

/-- Compositions that are related stay so when generators that are alike are applied to the same
values, each at its own declaration. -/
def Composition.StaysRelated (G : Generator H → Generator H → Prop)
    (C : Composition H → Composition H → Prop) (a a' : Attachment H) : Prop :=
  ∀ g g' c c' values, G g g' → C c c' →
    C (c.add (g.produce a.context a.declaration values) g.tags)
      (c'.add (g'.produce a'.context a'.declaration values) g'.tags)

namespace Registry.Covers

variable {G : Generator H → Generator H → Prop} {new : String → Prop}
  {E : Diagnostic → Diagnostic → Prop} {site : Site} {r r' : Registry H}

theorem resolve (h : Covers G new E site r r') (name : Positioned String) :
    Follows (Diagnostic.Wants new) E (List.Forall₂ (Resolved.Alike G)) (r.resolve site name).result
      (r'.resolve site name).result := by
  rw [result_resolve, result_resolve]
  apply (Expansion.expand_follows h.catalog name.value).mapError
  · intro failure hwants
    cases failure with
    | unknown culprit => exact hwants
    | unsupported culprit => exact hwants.elim
  · intro failure failure' heq
    subst heq
    exact h.diagnose name.loc failure

theorem checkDependency (h : Covers G new E site r r') (loc : Position) (seen : List String)
    (requiredBy dependency : String) :
    Follows (Diagnostic.Wants new) E Eq (r.checkDependency site loc seen requiredBy dependency).result
      (r'.checkDependency site loc seen requiredBy dependency).result := by
  unfold Registry.checkDependency
  apply Logged.follows_bind (h.resolve _)
  intro required required' hrequired
  have hnames : required.map Resolved.name = required'.map Resolved.name :=
    Resolved.names_eq_of_alike hrequired
  have hseen : (required.all fun g => g.name ∈ seen) = required'.all fun g => g.name ∈ seen :=
    calc (required.all fun g => g.name ∈ seen)
        = (required.map Resolved.name).all fun name => name ∈ seen := by rw [List.all_map]; rfl
      _ = (required'.map Resolved.name).all fun name => name ∈ seen := by rw [hnames]
      _ = required'.all fun g => g.name ∈ seen := by rw [List.all_map]; rfl
  rw [hseen]
  exact .refl h.same _

theorem checkDependencies (h : Covers G new E site r r') (loc : Position) (seen : List String)
    {found found' : List (Resolved H)} (hfound : List.Forall₂ (Resolved.Alike G) found found') :
    Follows (Diagnostic.Wants new) E Eq (r.checkDependencies site loc seen found).result
      (r'.checkDependencies site loc seen found').result := by
  apply Logged.follows_forM hfound
  intro g g' hg
  have hdependencies : g.generator.dependencies = g'.generator.dependencies :=
    (h.interface _ _ hg.generator).dependencies
  rw [hg.name, hdependencies]
  have hsame : List.Forall₂ Eq g'.generator.dependencies g'.generator.dependencies :=
    List.forall₂_eq_eq_eq ▸ rfl
  apply Logged.follows_forM hsame
  intro dependency dependency' heq
  subst heq
  exact h.checkDependency loc seen g'.name dependency

theorem accepted_eq (h : Covers G new E site r r') {found found' : List (Resolved H)}
    (hfound : List.Forall₂ (Resolved.Alike G) found found') :
    (found.flatMap fun g => g.generator.accepted) =
      found'.flatMap fun g => g.generator.accepted := by
  induction hfound with
  | nil => rfl
  | cons hg _ ih =>
      rw [List.flatMap_cons, List.flatMap_cons, ih, Generator.accepted, Generator.accepted,
        (h.interface _ _ hg.generator).schema]

theorem check (h : Covers G new E site r r') (seen : List String) (inv : Invocation H.Raw) :
    Follows (Diagnostic.Wants new) E (List.Forall₂ (Resolved.Alike G)) (r.check site seen inv).result
      (r'.check site seen inv).result := by
  unfold Registry.check
  apply Logged.follows_bind (.refl h.same inv.checkLabels)
  intro _ _ _
  apply Logged.follows_bind (h.resolve inv.name)
  intro found found' hfound
  rw [h.accepted_eq hfound, h.cutoff]
  apply Logged.follows_bind (.refl h.same (inv.checkAccepted r'.settings.cutoff _))
  intro _ _ _
  apply Logged.follows_bind (h.checkDependencies inv.name.loc seen hfound)
  intro _ _ _
  exact .value hfound

/-! ## Application -/

variable {C : Composition H → Composition H → Prop} {a a' : Attachment H}

theorem applyGenerator (h : Covers G new E site r r') (hkeeps : Composition.StaysRelated G C a a')
    (args : List (Argument H.Raw)) {c c' : Composition H} {g g' : Resolved H} (hc : C c c')
    (hg : g.Alike G g') :
    Follows (Diagnostic.Wants new) E C (Registry.applyGenerator a args c g).result
      (Registry.applyGenerator a' args c' g').result := by
  have hschema : g.generator.schema = g'.generator.schema :=
    (h.interface _ _ hg.generator).schema
  unfold Registry.applyGenerator Generator.run
  rw [hschema]
  cases g'.generator.schema.bind args with
  | error rejection => exact .fault (h.same _)
  | ok values => exact .value (hkeeps _ _ _ _ values hg.generator hc)

theorem applyInvocation (h : Covers G new E a.site r r')
    (hkeeps : Composition.StaysRelated G C a a') (hsite : a.site = a'.site)
    (inv : Invocation H.Raw) {p p' : BatchProgress H}
    (hp : p.seen = p'.seen ∧ C p.composition p'.composition) :
    Follows (Diagnostic.Wants new) E
      (fun p p' => p.seen = p'.seen ∧ C p.composition p'.composition)
      (r.applyInvocation a p inv).result (r'.applyInvocation a' p' inv).result := by
  unfold Registry.applyInvocation
  rw [← hsite, hp.1]
  apply Logged.follows_bind (h.check p'.seen inv)
  intro found found' hfound
  have hloop : Follows (Diagnostic.Wants new) E C
      (found.foldlM (Registry.applyGenerator a inv.args) p.composition).result
      (found'.foldlM (Registry.applyGenerator a' inv.args) p'.composition).result := by
    apply Logged.follows_foldlM hfound
    · intro c c' g g' hc hg
      exact h.applyGenerator hkeeps inv.args hc hg
    · exact hp.2
  apply Logged.follows_bind hloop
  intro c c' hc
  rw [Resolved.names_eq_of_alike hfound]
  exact .value ⟨rfl, hc⟩

/-- A batch goes the same way in both registries, by induction on its invocations. -/
theorem compose (h : Covers G new E a.site r r')
    (hkeeps : Composition.StaysRelated G C a a') (hsite : a.site = a'.site) (hstart : C {} {})
    (invs : List (Invocation H.Raw)) :
    Follows (Diagnostic.Wants new) E C (r.compose a invs).2.result
      (r'.compose a' invs).2.result := by
  have hsame : List.Forall₂ Eq invs invs := List.forall₂_eq_eq_eq ▸ rfl
  have hloop : Follows (Diagnostic.Wants new) E
      (fun p p' => p.seen = p'.seen ∧ C p.composition p'.composition)
      (invs.foldlM (r.applyInvocation a) {}).result
      (invs.foldlM (r'.applyInvocation a') {}).result := by
    apply Logged.follows_foldlM hsame
    · intro p p' inv inv' hp heq
      subst heq
      exact h.applyInvocation hkeeps hsite inv hp
    · exact ⟨rfl, hstart⟩
  rw [result_compose, result_compose]
  unfold composeAll
  apply Logged.follows_bind (.refl h.same (.ok ()))
  intro _ _ _
  apply Logged.follows_bind hloop
  intro p p' hp
  exact .value hp.2

end Registry.Covers

end CodegenRegistry
