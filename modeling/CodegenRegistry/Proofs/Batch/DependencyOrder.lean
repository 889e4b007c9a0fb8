import CodegenRegistry.Proofs.Batch.Admission
import CodegenRegistry.Proofs.Expansion.Reachability
import Mathlib
/-!
# The order of dependencies

An invocation is checked against the direct dependencies of its generators only. In a batch that
succeeds the position of the first use nevertheless decreases along every chain of needs, so no
generator that needs itself, however indirectly, can be applied.
-/

namespace CodegenRegistry

namespace Registry

variable {H : Host} {r : Registry H} {site : Site}

def Needs (r : Registry H) (site : Site) (name needed : String) : Prop :=
  ∃ b g, r.catalog.find? name = some (.ofBundle b) ∧ b.generators site = some g ∧
    ∃ dependency ∈ g.dependencies, ∃ required,
      Expansion.expand r.catalog site dependency = .ok required ∧
        needed ∈ required.map Resolved.name

/-- The position of the first invocation that applies the generator of a name. -/
def firstUse (r : Registry H) (site : Site) (invs : List (Invocation H.Raw)) (name : String) :
    Nat :=
  invs.findIdx fun inv => name ∈ r.appliedNames site [inv]

theorem mem_appliedNames_iff {invs : List (Invocation H.Raw)} {name : String} :
    name ∈ r.appliedNames site invs ↔ ∃ inv ∈ invs, name ∈ r.appliedNames site [inv] := by
  simp [appliedNames]

theorem firstUse_lt_length_iff {invs : List (Invocation H.Raw)} {name : String} :
    r.firstUse site invs name < invs.length ↔ name ∈ r.appliedNames site invs := by
  rw [firstUse, List.findIdx_lt_length, mem_appliedNames_iff]
  simp only [decide_eq_true_eq]

theorem firstUse_lt_of_mem_take {invs : List (Invocation H.Raw)} {name : String} {i : Nat}
    (h : name ∈ r.appliedNames site (invs.take i)) : r.firstUse site invs name < i := by
  have hlt : r.firstUse site (invs.take i) name < (invs.take i).length :=
    firstUse_lt_length_iff.2 h
  have htake : r.firstUse site (invs.take i) name = min i (r.firstUse site invs name) :=
    List.findIdx_take
  rw [htake, List.length_take] at hlt
  omega

theorem mem_appliedNames_firstUse {invs : List (Invocation H.Raw)} {name : String}
    (hlt : r.firstUse site invs name < invs.length) :
    name ∈ r.appliedNames site [invs[r.firstUse site invs name]] :=
  of_decide_eq_true (List.findIdx_getElem (w := hlt))

theorem Admits.mem_seen_of_needs {seen : List String} {inv : Invocation H.Raw}
    {name needed : String} (h : r.Admits site seen inv)
    (hname : name ∈ r.appliedNames site [inv]) (hneeds : r.Needs site name needed) :
    needed ∈ seen := by
  obtain ⟨b, generator, hbundle, hgenerator, dependency, hdependency, required, hrequired,
    hneeded⟩ := hneeds
  have hexpand := expand_generators h.resolves
  have happlied : name ∈ (r.generators site inv.name.value).map Resolved.name := by
    simpa [appliedNames] using hname
  obtain ⟨g, hg, rfl⟩ := List.mem_map.1 happlied
  obtain ⟨b', hbundle', hgenerator'⟩ := (Expansion.expand_valid hexpand).2 g hg
  -- the generator that is applied is the one that the need is about
  obtain rfl : b' = b := by simpa [hbundle] using hbundle'.symm
  obtain rfl : g.generator = generator := by simpa [hgenerator] using hgenerator'.symm
  obtain ⟨required', hrequired', hseen⟩ := h.met g hg dependency hdependency
  obtain rfl : required' = required := by simpa [hrequired] using hrequired'.symm
  obtain ⟨g', hg', rfl⟩ := List.mem_map.1 hneeded
  exact hseen g' hg'

/-- One step: what an applied generator needs is applied, and for the first time before it. -/
theorem AdmitsAll.firstUse_lt_of_needs {invs : List (Invocation H.Raw)} {name needed : String}
    (h : r.AdmitsAll site [] invs) (hname : name ∈ r.appliedNames site invs)
    (hneeds : r.Needs site name needed) :
    needed ∈ r.appliedNames site invs ∧
      r.firstUse site invs needed < r.firstUse site invs name := by
  have hlt : r.firstUse site invs name < invs.length := firstUse_lt_length_iff.2 hname
  have hadmits := h _ hlt
  rw [List.nil_append] at hadmits
  have hseen : needed ∈ r.appliedNames site (invs.take (r.firstUse site invs name)) :=
    hadmits.mem_seen_of_needs (mem_appliedNames_firstUse hlt) hneeds
  have hearlier : r.firstUse site invs needed < r.firstUse site invs name :=
    firstUse_lt_of_mem_take hseen
  exact ⟨firstUse_lt_length_iff.1 (by omega), hearlier⟩

/-- Any number of steps, by induction along the chain. -/
theorem AdmitsAll.firstUse_lt_of_chain {invs : List (Invocation H.Raw)} {name needed : String}
    (h : r.AdmitsAll site [] invs) (hname : name ∈ r.appliedNames site invs)
    (hchain : Relation.TransGen (r.Needs site) name needed) :
    needed ∈ r.appliedNames site invs ∧
      r.firstUse site invs needed < r.firstUse site invs name := by
  induction hchain with
  | single hneeds => exact h.firstUse_lt_of_needs hname hneeds
  | tail _ hneeds ih =>
      obtain ⟨hmiddle, hlt⟩ := ih
      obtain ⟨hneeded, hlt'⟩ := h.firstUse_lt_of_needs hmiddle hneeds
      exact ⟨hneeded, Nat.lt_trans hlt' hlt⟩

/-- In a batch that succeeds everything that an applied generator needs, directly or through other
generators, is applied too, and for the first time in an earlier invocation. So nothing on a
cycle of needs is ever applied. -/
theorem compose_respects_needs {a : Attachment H} {invs : List (Invocation H.Raw)}
    {c : Composition H} (h : (r.compose a invs).2.result = .ok c) :
    ∀ name ∈ r.appliedNames a.site invs,
      (∀ needed, Relation.TransGen (r.Needs a.site) name needed →
        needed ∈ r.appliedNames a.site invs ∧
          r.firstUse a.site invs needed < r.firstUse a.site invs name) ∧
      ¬ Relation.TransGen (r.Needs a.site) name name := by
  have hall : r.AdmitsAll a.site [] invs := (result_compose_eq_ok_iff.1 h).1
  intro name hname
  constructor
  · intro needed hchain
    exact hall.firstUse_lt_of_chain hname hchain
  · intro hcycle
    exact Nat.lt_irrefl _ (hall.firstUse_lt_of_chain hname hcycle).2

end Registry

def Generator.copying (dependencies : List String) : Generator Host.text where
  schema := .empty
  produce _ declaration _ := [declaration]
  dependencies := dependencies

/-- The generator `json` depends on `pp`, and that on an alias for `show`. -/
def Registry.layered : Registry Host.text where
  catalog :=
    (((NameTable.empty.insert "show" (.ofBundle ⟨fun _ => some (.copying []), none⟩)).insert
      "base" (.ofAlias ⟨["show"], fun _ => none⟩)).insert
      "pp" (.ofBundle ⟨fun _ => some (.copying ["base"]), none⟩)).insert
      "json" (.ofBundle ⟨fun _ => some (.copying ["pp"]), none⟩)

theorem Registry.layered_respects_needs :
    let a : Attachment Host.text := ⟨.structureType, "", "t"⟩
    let invs : List (Invocation Host.text.Raw) :=
      [{ name := { value := "base" } }, { name := { value := "pp" } },
        { name := { value := "json" } }, { name := { value := "show" } }]
    (layered.compose a invs).2.result = .ok ⟨["t", "t", "t", "t"], []⟩ ∧
      Relation.TransGen (layered.Needs a.site) "json" "show" ∧
      "show" ∈ layered.appliedNames a.site invs ∧
      layered.firstUse a.site invs "show" < layered.firstUse a.site invs "json" ∧
      ¬ Relation.TransGen (layered.Needs a.site) "json" "json" := by
  intro a invs
  have hresult : (layered.compose a invs).2.result = .ok ⟨["t", "t", "t", "t"], []⟩ := by cbv
  have happlied : "json" ∈ layered.appliedNames a.site invs := by
    have hnames : layered.appliedNames a.site invs = ["show", "pp", "json", "show"] := by cbv
    simp [hnames]
  have hjson : layered.Needs a.site "json" "pp" :=
    ⟨_, .copying ["pp"], rfl, rfl, "pp", by decide, [⟨"pp", .copying ["base"]⟩], by cbv,
      by decide⟩
  have hpp : layered.Needs a.site "pp" "show" :=
    ⟨_, .copying ["base"], rfl, rfl, "base", by decide, [⟨"show", .copying []⟩], by cbv,
      by decide⟩
  have hchain := (Relation.TransGen.single hjson).tail hpp
  obtain ⟨hneeds, hacyclic⟩ := compose_respects_needs hresult "json" happlied
  obtain ⟨hshow, hlt⟩ := hneeds "show" hchain
  exact ⟨hresult, hchain, hshow, hlt, hacyclic⟩

end CodegenRegistry
