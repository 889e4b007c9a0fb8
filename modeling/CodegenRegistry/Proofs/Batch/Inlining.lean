import CodegenRegistry.Proofs.Batch.Admission
import CodegenRegistry.Proofs.Binding.Matching
import CodegenRegistry.Proofs.Expansion.Reachability
import Mathlib
/-!
# Inlining of aliases

In a batch that succeeds a name may be replaced by the generators that it stands for, each with the
arguments that it accepts. Main statement: the batch still succeeds and makes the same.
-/

namespace CodegenRegistry

variable {H : Host}

/-- The invocation of one generator with those of some arguments that it accepts. It may be written
anywhere. -/
def Resolved.invocation (place : String → Position) (args : List (Argument H.Raw))
    (g : Resolved H) : Invocation H.Raw where
  name := ⟨g.name, place g.name⟩
  args := args.filter fun arg => arg.label ∈ g.generator.accepted

namespace Resolved

variable {place : String → Position} {args : List (Argument H.Raw)} {g : Resolved H}

theorem bind_invocation : g.generator.schema.bind (g.invocation place args).args =
    g.generator.schema.bind args := by
  apply Schema.bind_filter
  intro arg harg
  simpa using harg

theorem made_invocation (a : Attachment H) : g.made a (g.invocation place args).args =
    g.made a args := by
  rw [made, Generator.run, bind_invocation, made, Generator.run]

end Resolved

namespace Registry

variable {r : Registry H} {site : Site} {place : String → Position}

/-! ## The invocations of the members -/

/-- The checks that a name passes are passed by each of its generators on its own, also when more
has been seen. -/
theorem Admits.invocation {seen seen' : List String} {inv : Invocation H.Raw} {g : Resolved H}
    (h : r.Admits site seen inv) (hg : g ∈ r.generators site inv.name.value)
    (hseen : seen ⊆ seen') : r.Admits site seen' (g.invocation place inv.args) := by
  have hexpand : Expansion.expand r.catalog site g.name = .ok [g] :=
    Expansion.expand_of_mem (expand_generators h.resolves) hg
  have hgenerators : r.generators site g.name = [g] := generators_of_expand hexpand
  refine ⟨⟨?_, ?_⟩, ⟨[g], hexpand⟩, ?_, ?_, ?_⟩
  · intro arg harg
    exact h.labels.labelled arg (List.mem_filter.1 harg).1
  · exact h.labels.distinct.sublist (List.filter_sublist.map Argument.label)
  · intro arg harg
    have hlabel : arg.label ∈ g.generator.accepted := by
      simpa using (List.mem_filter.1 harg).2
    exact ⟨g, by rw [Resolved.invocation, hgenerators]; simp, hlabel⟩
  · intro g' hg' dependency hdependency
    obtain rfl : g' = g := by simpa [Resolved.invocation, hgenerators] using hg'
    exact (h.met g' hg dependency hdependency).mono hseen
  · intro g' hg'
    obtain rfl : g' = g := by simpa [Resolved.invocation, hgenerators] using hg'
    rw [Resolved.bind_invocation]
    exact h.binds g' hg

/-- One after the other: what the earlier ones add to the names seen does no harm. -/
theorem Admits.invocations {seen seen' : List String} {inv : Invocation H.Raw}
    {gs : List (Resolved H)} (h : r.Admits site seen inv)
    (hgs : gs ⊆ r.generators site inv.name.value) (hseen : seen ⊆ seen') :
    r.AdmitsAll site seen' (gs.map (Resolved.invocation place inv.args)) := by
  induction gs generalizing seen' with
  | nil => exact admitsAll_nil r site seen'
  | cons g gs ih =>
      obtain ⟨hg, hgs⟩ := List.cons_subset.1 hgs
      rw [List.map_cons, admitsAll_cons_iff]
      refine ⟨h.invocation hg hseen, ih hgs ?_⟩
      exact List.Subset.trans hseen (List.subset_append_left _ _)

/-! ## The same contribution -/

structure SameContribution (r : Registry H) (a : Attachment H) (inv : Invocation H.Raw)
    (invs : List (Invocation H.Raw)) : Prop where
  names : r.appliedNames a.site invs = r.appliedNames a.site [inv]
  items : r.madeItems a invs = r.madeItems a [inv]
  tags : r.appliedTags a.site invs = r.appliedTags a.site [inv]

private theorem flatMap_map_congr {α β γ : Type} {l : List α} {f : α → β} {k : β → List γ}
    {k' : α → List γ} (h : ∀ x ∈ l, k (f x) = k' x) : (l.map f).flatMap k = l.flatMap k' := by
  rw [List.flatMap_map]
  exact List.flatMap_congr h

theorem sameContribution_invocations {a : Attachment H} {inv : Invocation H.Raw}
    (hresolves : ∃ found, Expansion.expand r.catalog a.site inv.name.value = .ok found) :
    r.SameContribution a inv
      ((r.generators a.site inv.name.value).map (Resolved.invocation place inv.args)) := by
  have hgenerators : ∀ g ∈ r.generators a.site inv.name.value,
      r.generators a.site (g.invocation place inv.args).name.value = [g] := by
    intro g hg
    exact generators_of_expand (Expansion.expand_of_mem (expand_generators hresolves) hg)
  refine ⟨?_, ?_, ?_⟩
  · rw [appliedNames, appliedNames, List.flatMap_singleton,
      List.map_eq_flatMap (f := Resolved.name) (l := r.generators _ _)]
    apply flatMap_map_congr
    intro g hg
    rw [hgenerators g hg]
    rfl
  · rw [madeItems, madeItems, List.flatMap_singleton]
    apply flatMap_map_congr
    intro g hg
    rw [hgenerators g hg, List.flatMap_singleton, Resolved.made_invocation]
  · rw [appliedTags, appliedTags, List.flatMap_singleton]
    apply flatMap_map_congr
    intro g hg
    rw [hgenerators g hg, List.flatMap_singleton]

theorem result_compose_replace {a : Attachment H} {xs ys invs : List (Invocation H.Raw)}
    {inv : Invocation H.Raw} {c : Composition H} (hsame : r.SameContribution a inv invs)
    (hadmits : ∀ seen, r.Admits a.site seen inv → r.AdmitsAll a.site seen invs)
    (h : (r.compose a (xs ++ inv :: ys)).2.result = .ok c) :
    (r.compose a (xs ++ invs ++ ys)).2.result = .ok c := by
  rw [List.append_cons, result_compose_eq_ok_iff] at h
  rw [result_compose_eq_ok_iff]
  obtain ⟨hall, rfl⟩ := h
  rw [admitsAll_append_iff, admitsAll_append_iff] at hall ⊢
  obtain ⟨⟨hxs, hinv⟩, hys⟩ := hall
  have hnames : r.appliedNames a.site (xs ++ invs) = r.appliedNames a.site (xs ++ [inv]) := by
    rw [appliedNames_append, appliedNames_append, hsame.names]
  refine ⟨⟨⟨hxs, hadmits _ (admitsAll_cons_iff.1 hinv).1⟩, by rwa [hnames]⟩, ?_⟩
  simp only [madeItems_append, appliedTags_append, hsame.items, hsame.tags]

/-- An alias in a batch that succeeds may be replaced by the generators that it stands for, in order
and each with the arguments that it accepts: items and tags stay the same. -/
theorem compose_inline {a : Attachment H} {xs ys : List (Invocation H.Raw)}
    {inv : Invocation H.Raw} {c : Composition H} (place : String → Position)
    (h : (r.compose a (xs ++ inv :: ys)).2.result = .ok c) :
    ∃ found, (r.resolve a.site inv.name).result = .ok found ∧
      (r.compose a (xs ++ found.map (Resolved.invocation place inv.args) ++ ys)).2.result =
        .ok c := by
  have hall : r.AdmitsAll a.site [] (xs ++ inv :: ys) := (result_compose_eq_ok_iff.1 h).1
  have hinv : r.Admits a.site ([] ++ r.appliedNames a.site xs) inv :=
    (admitsAll_cons_iff.1 (admitsAll_append_iff.1 hall).2).1
  refine ⟨r.generators a.site inv.name.value, ?_, ?_⟩
  · exact result_resolve_eq_ok_iff.2 (expand_generators hinv.resolves)
  · apply result_compose_replace (sameContribution_invocations hinv.resolves) _ h
    intro seen hadmits
    exact hadmits.invocations (List.Subset.refl _) (List.Subset.refl _)

end Registry

def Generator.echoing (label : String) : Generator Host.text where
  schema := ⟨[Parameter.string (R := Host.text.Raw) label "-"], List.pairwise_singleton _ _⟩
  produce _ _ values := values
  tags := ["echo"]

def Registry.paired : Registry Host.text where
  catalog :=
    ((NameTable.empty.insert "show" (.ofBundle ⟨fun _ => some (.echoing "x"), none⟩)).insert
      "eq" (.ofBundle ⟨fun _ => some (.echoing "y"), none⟩)).insert
      "both" (.ofAlias ⟨["show", "eq"], fun _ => none⟩)

theorem Registry.paired_inline :
    let a : Attachment Host.text := ⟨.structureType, "", ""⟩
    let before : List (Invocation Host.text.Raw) := [⟨⟨"show", .nowhere⟩, []⟩]
    let inv : Invocation Host.text.Raw :=
      ⟨⟨"both", .nowhere⟩, [.labelled "y" "2", .labelled "x" "1"]⟩
    let after : List (Invocation Host.text.Raw) := [⟨⟨"both", .nowhere⟩, []⟩]
    (paired.compose a (before ++ inv :: after)).2.result =
        .ok ⟨["-", "1", "2", "-", "-"], ["echo"]⟩ ∧
      ∃ found, (paired.resolve a.site inv.name).result = .ok found ∧
        (paired.compose a (before ++
          found.map (Resolved.invocation (fun _ => .nowhere) inv.args) ++ after)).2.result =
            .ok ⟨["-", "1", "2", "-", "-"], ["echo"]⟩ := by
  intro a before inv after
  have hresult : (paired.compose a (before ++ inv :: after)).2.result =
      .ok ⟨["-", "1", "2", "-", "-"], ["echo"]⟩ := by cbv
  exact ⟨hresult, compose_inline (fun _ => .nowhere) hresult⟩

end CodegenRegistry
