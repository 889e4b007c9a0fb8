import CodegenRegistry.Proofs.Expansion.Likeness
import CodegenRegistry.Proofs.Expansion.Reachability
import CodegenRegistry.Proofs.Session.RegistrationOrder
import Mathlib
/-!
# What descriptions tell

A description leaves out the functions of an entry, and with them schemas, dependencies and tags.
Main statement: it leaves out nothing that resolution goes by. Registries in which every name has
the same description resolve every name alike, down to the hints. The description of a name is that
of the last entry, with the last value given for each site.
-/

namespace CodegenRegistry

variable {H H' : Host}

/-! ## Entries of one description -/

def Entry.Description.sites : Description → List Site
  | generator sites _ => sites
  | aliased _ overrides => overrides.map Prod.fst

namespace Site

variable {β : Type} {f g : Site → Option β}

theorem mem_listing_iff {site : Site} {b : β} :
    (site, b) ∈ all.filterMap (fun s => (f s).map fun b => (s, b)) ↔ f site = some b := by
  simp [mem_all]

theorem eq_of_listing_eq (h : all.filterMap (fun s => (f s).map fun b => (s, b)) =
    all.filterMap fun s => (g s).map fun b => (s, b)) : f = g := by
  funext site
  apply Option.ext
  intro b
  rw [← mem_listing_iff, ← mem_listing_iff, h]

theorem map_fst_listing (f : Site → Option β) (sites : List Site) :
    (sites.filterMap fun s => (f s).map fun b => (s, b)).map Prod.fst =
      sites.filter fun s => (f s).isSome := by
  induction sites with
  | nil => rfl
  | cons s sites ih =>
      cases hs : f s with
      | none => simpa [hs] using ih
      | some b => simpa [hs] using ih

end Site

theorem Bundle.mem_sites_iff {b : Bundle H} {site : Site} :
    site ∈ b.sites ↔ (b.generators site).isSome := by
  simp [sites, Site.mem_all]

theorem Entry.sublist_sites_describe (e : Entry H) : e.describe.sites.Sublist Site.all := by
  cases e with
  | ofBundle b => exact List.filter_sublist
  | ofAlias a =>
      rw [describe, Description.sites, Site.map_fst_listing]
      exact List.filter_sublist

theorem Entry.alike_of_describe {e : Entry H} {e' : Entry H'} (h : e.describe = e'.describe)
    (site : Site) : Entry.Alike (fun _ _ => True) site e e' := by
  cases e with
  | ofBundle b =>
      cases e' with
      | ofAlias a' => cases h
      | ofBundle b' =>
          have hsites : b.sites = b'.sites := (Description.generator.inj h).1
          have hsome : (b.generators site).isSome = (b'.generators site).isSome := by
            rw [Bool.eq_iff_iff, ← Bundle.mem_sites_iff, ← Bundle.mem_sites_iff, hsites]
          apply Entry.Alike.bundle
          cases hg : b.generators site <;> cases hg' : b'.generators site
          · exact .none
          · simp [hg, hg'] at hsome
          · simp [hg, hg'] at hsome
          · exact .some trivial
  | ofAlias a =>
      cases e' with
      | ofBundle b' => cases h
      | ofAlias a' =>
          obtain ⟨hfallback, hlisting⟩ := Description.aliased.inj h
          have hoverrides : a.overrides = a'.overrides := Site.eq_of_listing_eq hlisting
          apply Entry.Alike.aliased
          rw [Alias.targets, Alias.targets, hfallback, hoverrides]

/-! ## Registries of one description -/

namespace Registry

structure ResolvesLike (r : Registry H) (r' : Registry H') : Prop where
  names : r.names = r'.names
  contains : ∀ name, r.contains name = r'.contains name
  supported : ∀ site, r.supported site = r'.supported site
  resolve : ∀ site name, (r.resolve site name).result.map (List.map Resolved.name) =
    (r'.resolve site name).result.map (List.map Resolved.name)

variable {r : Registry H} {r' : Registry H'}

theorem covers_of_describe (h : ∀ name, r.describe name = r'.describe name) (site : Site) :
    Expansion.Covers (fun _ _ => True) (fun _ => False) site r.catalog r'.catalog where
  held := by
    intro name e he
    have hname := h name
    unfold describe at hname
    rw [he, Option.map_some] at hname
    obtain ⟨e', he', hdescribe⟩ := Option.map_eq_some_iff.1 hname.symm
    exact ⟨e', he', Entry.alike_of_describe hdescribe.symm site⟩
  absent := by
    intro name hnone _
    have hname := h name
    unfold describe at hname
    rw [hnone, Option.map_none] at hname
    exact Option.map_eq_none_iff.1 hname.symm

theorem resolvesLike_of_describe (hcutoff : r.settings.cutoff = r'.settings.cutoff)
    (h : ∀ name, r.describe name = r'.describe name) : r.ResolvesLike r' where
  names := (covers_of_describe h .structureType).names_eq
  contains name := by
    have hname := congrArg Option.isSome (h name)
    unfold describe at hname
    rwa [Option.isSome_map, Option.isSome_map] at hname
  supported site := (covers_of_describe h site).supported_eq
  resolve site name := by
    have hcovers := covers_of_describe h site
    have hdiagnose : r.diagnose site = r'.diagnose site := diagnose_eq_of_covers hcutoff hcovers
    have hfollows : Follows (fun _ => False) Eq (List.Forall₂ (Resolved.Alike fun _ _ => True))
        (r.resolve site name).result (r'.resolve site name).result := by
      rw [result_resolve, result_resolve, hdiagnose]
      apply (Expansion.expand_follows hcovers name.value).mapError
      · intro failure hwants
        exact failure.not_wants hwants
      · intro failure failure' heq
        rw [heq]
    exact hfollows.map_eq (fun _ => not_false) fun _ _ hfound => Resolved.names_eq_of_alike hfound

end Registry

/-! ## Entries built up by calls -/

/-- How an entry is built up: values for some sites, given one after the other. -/
inductive Blueprint (H : Host)
  | bundle (expression : Option (H.Context → H.Declaration → H.Item))
      (calls : List (Site × Generator H))
  | aliased (fallback : List String) (calls : List (Site × List String))

namespace Blueprint

def entry : Blueprint H → Entry H
  | bundle expression calls =>
    .ofBundle (calls.foldl (fun b call => b.on call.1 call.2) { expression })
  | aliased fallback calls =>
    .ofAlias (calls.foldl (fun a call => a.on call.1 call.2) ⟨fallback, fun _ => none⟩)

/-- The sites for which a value was given, in the order of `Site.all`. An alias shows the last one
given for each. -/
def description : Blueprint H → Entry.Description
  | bundle expression calls =>
    .generator (Site.all.filter fun site => site ∈ calls.map Prod.fst) expression.isSome
  | aliased fallback calls =>
    .aliased fallback
      (Site.all.filterMap fun site => (calls.reverse.lookup site).map fun names => (site, names))

end Blueprint

namespace Site

variable {β : Type} (calls : List (Site × β))

theorem foldl_assign (f : Site → Option β) (site : Site) :
    calls.foldl (fun f call => call.1.assign (some call.2) f) f site =
      (calls.reverse.lookup site).or (f site) := by
  induction calls generalizing f with
  | nil => rfl
  | cons call calls ih =>
      obtain ⟨s, b⟩ := call
      have hcall : s.assign (some b) f site = ([(s, b)].lookup site).or (f site) := by
        by_cases hsite : site = s
        · subst hsite
          simp
        · rw [assign_of_ne _ _ hsite, List.lookup_cons, beq_false_of_ne hsite]
          rfl
      rw [List.foldl_cons, ih, hcall, List.reverse_cons, List.lookup_append, Option.or_assoc]

theorem foldl_assign_none :
    calls.foldl (fun f call => call.1.assign (some call.2) f) (fun _ => none) =
      fun site => calls.reverse.lookup site := by
  funext site
  rw [foldl_assign, Option.or_none]

end Site

theorem Bundle.foldl_on (b : Bundle H) (calls : List (Site × Generator H)) :
    calls.foldl (fun b call => b.on call.1 call.2) b =
      { b with generators :=
          calls.foldl (fun f call => call.1.assign (some call.2) f) b.generators } := by
  induction calls generalizing b with
  | nil => rfl
  | cons call calls ih => exact ih _

theorem Alias.foldl_on (a : Alias) (calls : List (Site × List String)) :
    calls.foldl (fun a call => a.on call.1 call.2) a =
      { a with overrides :=
          calls.foldl (fun f call => call.1.assign (some call.2) f) a.overrides } := by
  induction calls generalizing a with
  | nil => rfl
  | cons call calls ih => exact ih _

namespace Blueprint

theorem entry_bundle (expression : Option (H.Context → H.Declaration → H.Item))
    (calls : List (Site × Generator H)) :
    (bundle expression calls).entry =
      .ofBundle ⟨fun site => calls.reverse.lookup site, expression⟩ := by
  rw [entry, Bundle.foldl_on, Site.foldl_assign_none]

theorem entry_aliased (fallback : List String) (calls : List (Site × List String)) :
    (aliased fallback calls : Blueprint H).entry =
      .ofAlias ⟨fallback, fun site => calls.reverse.lookup site⟩ := by
  rw [entry, Alias.foldl_on, Site.foldl_assign_none]

theorem describe_entry (b : Blueprint H) : b.entry.describe = b.description := by
  cases b with
  | bundle expression calls =>
      rw [entry_bundle, Entry.describe, description, Bundle.sites]
      congr 1
      apply List.filter_congr
      intro site _
      rw [Bool.eq_iff_iff, isSome_lookup_reverse_iff, decide_eq_true_iff]
  | aliased fallback calls =>
      rw [entry_aliased]
      rfl

end Blueprint

namespace Registry

def ofBlueprints (settings : Settings) (blueprints : List (String × Blueprint H)) : Registry H :=
  ofEntries settings (blueprints.map fun x => (x.1, x.2.entry))

theorem lookup_map_entry (blueprints : List (String × Blueprint H)) (name : String) :
    (blueprints.map fun x => (x.1, x.2.entry)).lookup name =
      (blueprints.lookup name).map Blueprint.entry := by
  induction blueprints with
  | nil => rfl
  | cons x blueprints ih =>
      obtain ⟨k, b⟩ := x
      rw [List.map_cons, List.lookup_cons, List.lookup_cons, ih]
      cases name == k <;> rfl

theorem find?_ofBlueprints (settings : Settings) (blueprints : List (String × Blueprint H))
    (name : String) :
    (ofBlueprints settings blueprints).catalog.find? name =
      (blueprints.reverse.lookup name).map Blueprint.entry := by
  rw [ofBlueprints, find?_ofEntries, ← List.map_reverse, lookup_map_entry]

theorem describe_ofBlueprints (settings : Settings) (blueprints : List (String × Blueprint H))
    (name : String) :
    (ofBlueprints settings blueprints).describe name =
      (blueprints.reverse.lookup name).map Blueprint.description := by
  have hdescribe : Entry.describe ∘ Blueprint.entry = (Blueprint.description (H := H)) := by
    funext b
    exact b.describe_entry
  rw [describe, find?_ofBlueprints, Option.map_map, hdescribe]

theorem result_resolve_bundle {settings : Settings} {blueprints : List (String × Blueprint H)}
    {name : String} {expression : Option (H.Context → H.Declaration → H.Item)}
    {calls : List (Site × Generator H)}
    (hlast : blueprints.reverse.lookup name = some (.bundle expression calls)) (site : Site)
    (loc : Position) :
    ((ofBlueprints settings blueprints).resolve site ⟨name, loc⟩).result =
      match calls.reverse.lookup site with
      | some g => .ok [⟨name, g⟩]
      | none => .error (.unsupportedSite name site loc) := by
  have hfind : (ofBlueprints settings blueprints).catalog.find? name =
      some (.ofBundle ⟨fun site => calls.reverse.lookup site, expression⟩) := by
    rw [find?_ofBlueprints, hlast, Option.map_some, Blueprint.entry_bundle]
  rw [result_resolve]
  cases hcall : calls.reverse.lookup site with
  | none => rw [Expansion.expand_of_no_generator hfind hcall]; rfl
  | some g => rw [Expansion.expand_of_generator hfind hcall]; rfl

/-- In registries that describe every name alike, and that are as strict about hints, names resolve
alike. A description lists sites in their order, each at most once. It shows the entry registered
last, with the last value given for each site, which is also the one that is resolved to. -/
theorem describe_tells_resolution :
    (∀ (r : Registry H) (r' : Registry H'), r.settings.cutoff = r'.settings.cutoff →
        (∀ name, r.describe name = r'.describe name) → r.ResolvesLike r') ∧
      (∀ (r : Registry H) name d, r.describe name = some d → d.sites.Sublist Site.all) ∧
      ∀ settings (blueprints : List (String × Blueprint H)) name,
        (ofBlueprints settings blueprints).describe name =
            (blueprints.reverse.lookup name).map Blueprint.description ∧
          ∀ expression calls,
            blueprints.reverse.lookup name = some (.bundle expression calls) →
              ∀ site loc, ((ofBlueprints settings blueprints).resolve site ⟨name, loc⟩).result =
                match calls.reverse.lookup site with
                | some g => .ok [⟨name, g⟩]
                | none => .error (.unsupportedSite name site loc) := by
  refine ⟨fun _ _ => resolvesLike_of_describe, ?_, ?_⟩
  · intro r name d hd
    obtain ⟨e, -, rfl⟩ := Option.map_eq_some_iff.1 hd
    exact e.sublist_sites_describe
  · intro settings blueprints name
    refine ⟨describe_ofBlueprints settings blueprints name, ?_⟩
    intro expression calls hlast
    exact result_resolve_bundle hlast

/-- A registry with entries that were replaced and with values that were given twice, against one
that was built at once and with other generators. -/
theorem rebuilt_resolvesLike :
    let making (item : String) : Generator Host.text := .ofItems fun _ _ => [item]
    let replaced : List (String × Blueprint Host.text) :=
      [("show", .bundle none [(.structureType, making "x")]),
        ("all", .aliased ["show"] [(.signatureType, ["none"])]),
        ("show", .bundle none [(.signatureType, making "x"), (.structureType, making "y"),
          (.signatureType, making "z")]),
        ("all", .aliased ["shown"] [(.signatureType, ["all"]), (.signatureType, ["show"])])]
    let once : List (String × Blueprint Host.text) :=
      [("all", .aliased ["shown"] [(.signatureType, ["show"])]),
        ("show", .bundle none [(.structureType, making "u"), (.signatureType, making "v")])]
    (∀ name, (ofBlueprints {} replaced).describe name = (ofBlueprints {} once).describe name) ∧
      (ofBlueprints {} replaced).ResolvesLike (ofBlueprints {} once) ∧
      (ofBlueprints {} replaced).describe "all" =
        some (.aliased ["shown"] [(.signatureType, ["show"])]) ∧
      ((ofBlueprints {} once).resolve .structureType ⟨"all", .nowhere⟩).result.map
          (List.map Resolved.name) =
        .error (.unknownGenerator "shown" .structureType .nowhere (some "show")) ∧
      ((ofBlueprints {} replaced).resolve .signatureType ⟨"show", .nowhere⟩).result =
        .ok [⟨"show", making "z"⟩] := by
  intro making replaced once
  obtain ⟨hresolves, -, hlast⟩ := @describe_tells_resolution Host.text Host.text
  have hdescribe : ∀ name,
      (ofBlueprints {} replaced).describe name = (ofBlueprints {} once).describe name := by
    intro name
    rw [(hlast {} replaced name).1, (hlast {} once name).1]
    by_cases hall : name = "all"
    · subst hall
      rfl
    · by_cases hshow : name = "show"
      · subst hshow
        rfl
      · simp [replaced, once, List.lookup_cons, beq_false_of_ne hall, beq_false_of_ne hshow]
  refine ⟨hdescribe, hresolves _ _ rfl hdescribe, (hlast {} replaced "all").1, ?_, ?_⟩
  · cbv
  · exact (hlast {} replaced "show").2 none _ rfl .signatureType .nowhere

end Registry

end CodegenRegistry
