import CodegenRegistry.Proofs.Expansion.Reachability
import Mathlib
/-!
# Supported names

A set of names is consistent if all of its names can be used and its aliases do not lead out of it.
Main statement: the supported names are the greatest consistent set. An alias on a cycle is
supported unless something that it reaches is not, however far away.
-/

namespace CodegenRegistry

namespace Expansion

variable {H : Host} {t : Catalog H} {site : Site} {name : String}

structure Consistent (t : Catalog H) (site : Site) (S : Set String) : Prop where
  registered : ∀ name ∈ S, name ∈ t.names
  generators : ∀ name ∈ S, ∀ b, t.find? name = some (.ofBundle b) →
    ∃ g, b.generators site = some g
  targets : ∀ name ∈ S, ∀ a, t.find? name = some (.ofAlias a) →
    ∀ target ∈ a.targets site, target ∈ S

theorem usable_iff : Usable t site name ↔ name ∈ t.names ∧
    ∀ b, t.find? name = some (.ofBundle b) → ∃ g, b.generators site = some g := by
  rw [NameTable.mem_names_iff, Option.isSome_iff_exists]
  constructor
  · intro h
    obtain ⟨e, hfind, hbundle⟩ := h
    refine ⟨⟨e, hfind⟩, ?_⟩
    intro b hb
    exact hbundle b (by simpa [hfind] using hb)
  · intro h
    obtain ⟨⟨e, hfind⟩, hbundle⟩ := h
    refine ⟨e, hfind, ?_⟩
    intro b hb
    exact hbundle b (hb ▸ hfind)

namespace Consistent

variable {S : Set String}

theorem usable (h : Consistent t site S) (hname : name ∈ S) : Usable t site name :=
  usable_iff.2 ⟨h.registered name hname, h.generators name hname⟩

/-- Aliases do not lead out of a consistent set, by induction along the path. -/
theorem mem_of_reaches (h : Consistent t site S) (hname : name ∈ S) {x : String}
    (hx : Reaches t site name x) : x ∈ S := by
  induction hx with
  | refl => exact hname
  | tail _ hleads ih =>
      obtain ⟨a, halias, htarget⟩ := hleads
      exact h.targets _ ih a halias _ htarget

end Consistent

/-! ## Names that are supported -/

theorem mem_supported_iff_expands : name ∈ supported t site ↔
    name ∈ t.names ∧ ∃ found, expand t site name = .ok found := by
  rw [supported, List.mem_filter]
  cases expand t site name <;> simp [Except.isOk, Except.toBool]

theorem mem_supported_iff :
    name ∈ supported t site ↔ ∀ x, Reaches t site name x → Usable t site x := by
  rw [mem_supported_iff_expands, expand_succeeds_iff]
  constructor
  · intro h
    exact h.2
  · intro h
    exact ⟨(usable_iff.1 (h name .refl)).1, h⟩

theorem not_mem_supported_of_unknown (h : t.find? name = none) : name ∉ supported t site := by
  intro hsupported
  have hregistered := (mem_supported_iff_expands.1 hsupported).1
  simp [NameTable.mem_names_iff, h] at hregistered

theorem mem_supported_of_reaches {x : String} (h : name ∈ supported t site)
    (hx : Reaches t site name x) : x ∈ supported t site := by
  rw [mem_supported_iff] at h ⊢
  intro y hy
  exact h y (hx.trans hy)

/-- An alias is supported exactly when all that it stands for is. On a cycle this alone decides
nothing; what else is reached from the cycle does. -/
theorem mem_supported_iff_targets {a : Alias} (halias : t.find? name = some (.ofAlias a)) :
    name ∈ supported t site ↔ ∀ target ∈ a.targets site, target ∈ supported t site := by
  constructor
  · intro h target htarget
    exact mem_supported_of_reaches h (.single ⟨a, halias, htarget⟩)
  · intro h
    rw [mem_supported_iff]
    intro x hx
    rcases hx.cases_head with rfl | ⟨target, ⟨a', halias', htarget⟩, hx⟩
    · exact ⟨.ofAlias a, halias, by simp⟩
    · obtain rfl : a = a' := by simpa [halias] using halias'
      exact mem_supported_iff.1 (h target htarget) x hx

theorem supported_consistent (t : Catalog H) (site : Site) :
    Consistent t site {name | name ∈ supported t site} where
  registered _ h := (mem_supported_iff_expands.1 h).1
  generators name h := (usable_iff.1 (mem_supported_iff.1 h name .refl)).2
  targets _ h _ halias := (mem_supported_iff_targets halias).1 h

theorem Consistent.subset_supported {S : Set String} (h : Consistent t site S) :
    S ⊆ {name | name ∈ supported t site} := by
  intro name hname
  apply mem_supported_iff.2
  intro x hx
  exact h.usable (h.mem_of_reaches hname hx)

end Expansion

namespace Registry

variable {H : Host}

open Expansion

/-- The supported names are listed in ascending order. They are the registered names that resolve,
and the greatest set of registered names whose bundles have a generator at the site and whose
aliases stand for names of the set. So an alias is supported exactly when all that it stands for is,
and nothing from which something unusable can be reached is supported. -/
theorem supported_isGreatest (r : Registry H) (site : Site) :
    (r.supported site).Pairwise (· < ·) ∧
      (∀ name loc, name ∈ r.supported site ↔
        name ∈ r.names ∧ ∃ found, (r.resolve site ⟨name, loc⟩).result = .ok found) ∧
      IsGreatest {S | Consistent r.catalog site S} {name | name ∈ r.supported site} ∧
      (∀ name a, r.catalog.find? name = some (.ofAlias a) →
        (name ∈ r.supported site ↔ ∀ target ∈ a.targets site, target ∈ r.supported site)) ∧
      ∀ outer name culprit, Reaches r.catalog site outer name →
        Reaches r.catalog site name culprit → ¬ Usable r.catalog site culprit →
          name ∉ r.supported site ∧ outer ∉ r.supported site := by
  refine ⟨r.pairwise_supported site, ?_, ⟨supported_consistent _ _, ?_⟩, ?_, ?_⟩
  · intro name loc
    simp only [result_resolve_eq_ok_iff]
    exact mem_supported_iff_expands
  · intro S hS
    exact hS.subset_supported
  · intro name a halias
    exact mem_supported_iff_targets halias
  · intro outer name culprit houter hname hunusable
    constructor
    · intro h
      exact hunusable (mem_supported_iff.1 h culprit hname)
    · intro h
      exact hunusable (mem_supported_iff.1 h culprit (houter.trans hname))

end Registry

/-- A cycle that can be used, and one from which a missing name can be reached. -/
example :
    let bundle : Entry Host.text := .ofBundle ⟨fun _ => some (.ofItems fun _ _ => []), none⟩
    let aliasFor (names : List String) : Entry Host.text := .ofAlias ⟨names, fun _ => none⟩
    let catalog : Catalog Host.text :=
      ((((NameTable.empty.insert "show" bundle).insert "a" (aliasFor ["b"])).insert
        "b" (aliasFor ["show", "a"])).insert "c" (aliasFor ["a", "d"])).insert
        "d" (aliasFor ["c", "missing"])
    Expansion.supported catalog .structureType = ["a", "b", "show"] := by
  cbv

end CodegenRegistry
