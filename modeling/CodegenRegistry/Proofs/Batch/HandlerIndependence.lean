import CodegenRegistry.Proofs.Batch.Applications
import CodegenRegistry.Proofs.Batch.Likeness
import Mathlib
/-!
# Independence of handlers

The functions of a registry, the context and the declaration have no say in whether a batch goes
through. Main statement: two registries that differ in their functions alone report the same faults
and collect the same tags, and the same generators get to work on the same values. What they make of
them is all that may differ.
-/

namespace CodegenRegistry

variable {H : Host}

/-! ## Registries that differ in their functions -/

/-- The same alias, or bundles that have generators of the same interface at the same sites. -/
inductive Entry.SameButForHandlers : Entry H → Entry H → Prop
  | bundle {b b' : Bundle H}
      (hgenerators : ∀ site,
        Option.Rel Generator.SameInterface (b.generators site) (b'.generators site)) :
      SameButForHandlers (.ofBundle b) (.ofBundle b')
  | aliased (a : Alias) : SameButForHandlers (.ofAlias a) (.ofAlias a)

theorem Entry.SameButForHandlers.alike {e e' : Entry H} (h : e.SameButForHandlers e')
    (site : Site) : Entry.Alike Generator.SameInterface site e e' := by
  cases h with
  | bundle hgenerators => exact .bundle (hgenerators site)
  | aliased a => exact .aliased rfl

namespace Registry

structure SameButForHandlers (r r' : Registry H) : Prop where
  settings : r.settings = r'.settings
  entries : ∀ name,
    Option.Rel Entry.SameButForHandlers (r.catalog.find? name) (r'.catalog.find? name)

namespace SameButForHandlers

variable {r r' : Registry H}

theorem catalog (h : r.SameButForHandlers r') (site : Site) :
    Expansion.Covers Generator.SameInterface (fun _ => False) site r.catalog r'.catalog where
  held := by
    intro name e he
    have hentries := h.entries name
    rw [he] at hentries
    obtain ⟨e', he', hsame⟩ := exists_of_rel hentries
    exact ⟨e', he', hsame.alike site⟩
  absent := by
    intro name hnone _
    have hentries := h.entries name
    rw [hnone] at hentries
    exact eq_none_of_rel hentries

theorem covers (h : r.SameButForHandlers r') (site : Site) :
    Covers Generator.SameInterface (fun _ => False) Eq site r r' := by
  have hcutoff : r.settings.cutoff = r'.settings.cutoff := congrArg Settings.cutoff h.settings
  have hdiagnose : r.diagnose site = r'.diagnose site :=
    diagnose_eq_of_covers hcutoff (h.catalog site)
  refine ⟨hcutoff, h.catalog site, fun _ _ hsame => hsame, fun _ => rfl, ?_⟩
  intro loc failure
  rw [hdiagnose]

end SameButForHandlers

end Registry

/-! ## The same applications -/

structure Application.SameButForHandler (x y : Application H) : Prop where
  resolved : x.resolved.Alike Generator.SameInterface y.resolved
  values : x.values = y.values

namespace Resolved

variable {found found' : List (Resolved H)} (args : List (Argument H.Raw))

theorem applications_alike (h : List.Forall₂ (Resolved.Alike Generator.SameInterface) found found') :
    List.Forall₂ Application.SameButForHandler (applications args found)
      (applications args found') := by
  induction h with
  | nil => exact .nil
  | @cons g g' found found' hg _ ih =>
      have hschema : g.generator.schema = g'.generator.schema := hg.generator.schema
      cases hbind : g.generator.schema.bind args with
      | error rejection =>
          rw [applications_of_reject hbind, applications_of_reject (hschema ▸ hbind)]
          exact .nil
      | ok values =>
          rw [applications_of_bind hbind, applications_of_bind (hschema ▸ hbind)]
          exact .cons ⟨hg, rfl⟩ ih

theorem forall_binds_iff
    (h : List.Forall₂ (Resolved.Alike Generator.SameInterface) found found') :
    (∀ g ∈ found, g.Binds args) ↔ ∀ g ∈ found', g.Binds args := by
  induction h with
  | nil => simp
  | @cons g g' found found' hg _ ih =>
      have hbinds : g.Binds args ↔ g'.Binds args := by
        unfold Binds
        rw [hg.generator.schema]
      rw [List.forall_mem_cons, List.forall_mem_cons, hbinds, ih]

end Resolved

namespace Registry

variable {r r' : Registry H} {a a' : Attachment H}

/-- The applications correspond to each other, by induction on the invocations: as long as the
checks go alike, the same names have been seen. -/
theorem applications_alike (h : r.SameButForHandlers r') (site : Site) (seen : List String)
    (invs : List (Invocation H.Raw)) :
    List.Forall₂ Application.SameButForHandler (r.applications site seen invs)
      (r'.applications site seen invs) := by
  induction invs generalizing seen with
  | nil => exact .nil
  | cons inv invs ih =>
      have hcheck := (h.covers site).check seen inv
      cases hresult : (r.check site seen inv).result with
      | error e =>
          obtain ⟨e', hresult', -⟩ := hcheck.of_error hresult e.not_wants
          rw [applications_of_check_error hresult, applications_of_check_error hresult']
          exact .nil
      | ok found =>
          obtain ⟨found', hresult', hfound⟩ := hcheck.of_ok hresult
          have happlied := Resolved.applications_alike inv.args hfound
          by_cases hbinds : ∀ g ∈ found, g.Binds inv.args
          · have hbinds' := (Resolved.forall_binds_iff inv.args hfound).1 hbinds
            rw [applications_of_applied hresult hbinds, applications_of_applied hresult' hbinds',
              Resolved.names_eq_of_alike hfound]
            exact List.rel_append happlied (ih _)
          · have hbinds' := mt (Resolved.forall_binds_iff inv.args hfound).2 hbinds
            rw [applications_of_rejected hresult hbinds, applications_of_rejected hresult' hbinds']
            exact happlied

/-- A batch applies exactly these generators: it reports them in order, and returns what they make
if it returns anything. -/
structure Applies (r : Registry H) (a : Attachment H) (invs : List (Invocation H.Raw))
    (xs : List (Application H)) : Prop where
  reported : (r.compose a invs).2.applied = xs.map (Application.event a)
  kept : ∀ c, (r.compose a invs).2.result = .ok c → c.items = xs.flatMap (Application.items a)

theorem applies_applications (r : Registry H) (a : Attachment H)
    (invs : List (Invocation H.Raw)) : r.Applies a invs (r.applications a.site [] invs) where
  reported := r.applied_compose a invs
  kept _ := items_compose_of_ok

/-- A batch fails with the same diagnostic or succeeds with the same tags in registries that differ
in their functions alone, whatever the context and the declaration. Either way the same generators
are applied to the same values. -/
theorem compose_sameButForHandlers (h : r.SameButForHandlers r') (hsite : a.site = a'.site)
    (invs : List (Invocation H.Raw)) :
    ((∃ e, (r.compose a invs).2.result = .error e ∧ (r'.compose a' invs).2.result = .error e) ∨
        ∃ c c', (r.compose a invs).2.result = .ok c ∧ (r'.compose a' invs).2.result = .ok c' ∧
          c.tags = c'.tags) ∧
      List.Forall₂ Application.SameButForHandler (r.applications a.site [] invs)
        (r'.applications a'.site [] invs) ∧
      r.Applies a invs (r.applications a.site [] invs) ∧
      r'.Applies a' invs (r'.applications a'.site [] invs) := by
  refine ⟨?_, ?_, r.applies_applications a invs, r'.applies_applications a' invs⟩
  · have hrelated : Composition.StaysRelated Generator.SameInterface
        (fun c c' => c.tags = c'.tags) a a' := by
      intro g g' c c' values hg hc
      rw [Composition.add, Composition.add, hc, hg.tags]
    have hfollows := (h.covers a.site).compose hrelated hsite rfl invs
    exact hfollows.error_or_ok Diagnostic.not_wants
  · rw [← hsite]
    exact applications_alike h a.site [] invs

end Registry

def Generator.silent (g : Generator H) : Generator H :=
  { g with produce := fun _ _ _ => [] }

def Registry.muted : Registry Host.text where
  catalog :=
    ((NameTable.empty.insert "show" (.ofBundle ⟨fun _ => some (.silent (.echoing "x")), none⟩)).insert
      "count" (.ofBundle ⟨fun _ => some (.silent (.counting "n")), none⟩)).insert
      "both" (.ofAlias ⟨["show", "count"], fun _ => none⟩)

theorem Registry.mixed_sameButForHandlers_muted : mixed.SameButForHandlers muted := by
  refine ⟨rfl, ?_⟩
  intro name
  have hbundle : ∀ g : Generator Host.text, Entry.SameButForHandlers
      (.ofBundle ⟨fun _ => some g, none⟩) (.ofBundle ⟨fun _ => some g.silent, none⟩) :=
    fun g => .bundle fun _ => .some ⟨rfl, rfl, rfl⟩
  unfold mixed muted
  simp only [NameTable.find?_insert, NameTable.find?_empty]
  split
  · exact .some (.aliased _)
  · split
    · exact .some (hbundle _)
    · split
      · exact .some (hbundle _)
      · exact .none

theorem Registry.mixed_muted :
    let a : Attachment Host.text := ⟨.structureType, "", ""⟩
    let a' : Attachment Host.text := ⟨.structureType, "context", "declaration"⟩
    let whole : List (Invocation Host.text.Raw) := [⟨⟨"both", .nowhere⟩, []⟩]
    let wrong : List (Invocation Host.text.Raw) := [⟨⟨"both", .nowhere⟩, [.labelled "n" "many"]⟩]
    let e : Diagnostic := .invalidArgument ⟨"n", .nowhere, "an integer literal"⟩
    mixed.SameButForHandlers muted ∧ a.site = a'.site ∧
      (mixed.compose a whole).2.result = .ok ⟨["-", "0"], ["echo"]⟩ ∧
      (muted.compose a' whole).2.result = .ok ⟨[], ["echo"]⟩ ∧
      (mixed.compose a wrong).2.result = .error e ∧
      (muted.compose a' wrong).2.result = .error e ∧
      List.Forall₂ Application.SameButForHandler (mixed.applications a.site [] wrong)
        (muted.applications a'.site [] wrong) := by
  intro a a' whole wrong e
  have hsame := mixed_sameButForHandlers_muted
  have hsite : a.site = a'.site := rfl
  have hwhole : (mixed.compose a whole).2.result = .ok ⟨["-", "0"], ["echo"]⟩ := by cbv
  have hmuted : (muted.compose a' whole).2.result = .ok ⟨[], ["echo"]⟩ := by cbv
  have hwrong : (mixed.compose a wrong).2.result = .error e := by cbv
  obtain ⟨hresults, happlications, -, -⟩ :=
    compose_sameButForHandlers hsame hsite wrong
  have hwrong' : (muted.compose a' wrong).2.result = .error e := by
    rcases hresults with ⟨e', he, he'⟩ | ⟨c, c', hc, -⟩
    · obtain rfl := Except.error.inj (hwrong.symm.trans he)
      exact he'
    · rw [hwrong] at hc
      cases hc
  exact ⟨hsame, hsite, hwhole, hmuted, hwrong, hwrong', happlications⟩

end CodegenRegistry
