import CodegenRegistry.Proofs.Expansion.Support
import CodegenRegistry.Proofs.Spelling.Search
import Mathlib
/-!
# Hints for unknown names

The name at fault may stand deep inside aliases, and its own length decides how far off a hint may
be. Main statement: there is a hint as soon as some name that resolves at the site is near enough,
and the hint is the nearest of those. A name that does not resolve there is never hinted at.
-/

namespace CodegenRegistry

variable {H : Host}

namespace Spelling

def Nearer (word c c' : String) : Prop :=
  Precedes (Text.EditDistance.distance word.toList c.toList, c)
    (Text.EditDistance.distance word.toList c'.toList, c')

end Spelling

namespace Registry

open Expansion Spelling

variable {r : Registry H} {site : Site} {u : String}

structure Near (r : Registry H) (site : Site) (word c : String) : Prop where
  resolves : ∃ loc found, (r.resolve site ⟨c, loc⟩).result = .ok found
  within : Text.EditDistance.distance word.toList c.toList ≤ r.settings.cutoff.limit word.length

theorem mem_supported_iff_resolves {c : String} :
    c ∈ r.supported site ↔ ∃ loc found, (r.resolve site ⟨c, loc⟩).result = .ok found := by
  simp only [result_resolve_eq_ok_iff]
  rw [supported, mem_supported_iff, ← expand_succeeds_iff]
  exact (exists_const Position).symm

/-- A name that is not registered is not supported, so it is no candidate for its own hint. -/
theorem eligible_iff_near (hunknown : r.catalog.find? u = none) {c : String} :
    Eligible r.settings.cutoff u (r.supported site) c ↔ r.Near site u c := by
  constructor
  · intro h
    exact ⟨mem_supported_iff_resolves.1 h.candidate, distance_eq u c ▸ h.within⟩
  · intro h
    have hsupported : c ∈ r.supported site := mem_supported_iff_resolves.2 h.resolves
    refine ⟨hsupported, ?_, (distance_eq u c).symm ▸ h.within⟩
    rintro rfl
    exact not_mem_supported_of_unknown hunknown hsupported

theorem hint_of_resolve {name : Positioned String} {site' : Site} {loc : Position}
    {hint : Option String}
    (h : (r.resolve site name).result = .error (.unknownGenerator u site' loc hint)) :
    r.catalog.find? u = none ∧
      hint = Spelling.suggest r.settings.cutoff u (r.supported site) := by
  obtain ⟨failure, hexpand, hdiagnose⟩ := result_resolve_eq_error_iff.1 h
  cases failure with
  | unsupported x => cases hdiagnose
  | unknown x =>
      obtain ⟨rfl, -, -, rfl⟩ := Diagnostic.unknownGenerator.inj hdiagnose
      exact ⟨(fails_at_reached hexpand).1, rfl⟩

/-- An unknown name gets a hint exactly when some name that resolves at the site is within the
cutoff for the name at fault. The hint is the nearest such name, of equally near ones the smallest.
It resolves wherever it is written in place of the unknown name, and nothing that leads to an
unusable name is ever hinted at. -/
theorem hint_isNearest {name : Positioned String} {site' : Site} {loc : Position}
    {hint : Option String}
    (h : (r.resolve site name).result = .error (.unknownGenerator u site' loc hint)) :
    (hint.isSome ↔ ∃ c, r.Near site u c) ∧
      (∀ s, hint = some s ↔
        r.Near site u s ∧ ∀ c, r.Near site u c → c ≠ s → Spelling.Nearer u s c) ∧
      (∀ s, hint = some s →
        s ≠ u ∧ ∀ loc', ∃ found, (r.resolve site ⟨s, loc'⟩).result = .ok found) ∧
      ∀ c x, Reaches r.catalog site c x → ¬ Usable r.catalog site x → hint ≠ some c := by
  obtain ⟨hunknown, rfl⟩ := hint_of_resolve h
  refine ⟨?_, ?_, ?_, ?_⟩
  · rw [isSome_suggest_iff]
    exact exists_congr fun c => eligible_iff_near hunknown
  · intro s
    rw [suggest_eq_some_iff]
    simp only [eligible_iff_near hunknown, distance_eq]
    rfl
  · intro s hs
    have heligible := (suggest_eq_some_iff.1 hs).1
    refine ⟨heligible.ne_word, ?_⟩
    intro loc'
    obtain ⟨_, found, hfound⟩ := mem_supported_iff_resolves.1 heligible.candidate
    have hexpand : expand r.catalog site s = .ok found := result_resolve_eq_ok_iff.1 hfound
    exact ⟨found, result_resolve_eq_ok_iff.2 hexpand⟩
  · intro c x hx hunusable hc
    have heligible := (suggest_eq_some_iff.1 hc).1
    exact hunusable (mem_supported_iff.1 heligible.candidate x hx)

/-- The name at fault is two aliases away. Two other names are as near to it and smaller, but one
has no generator at the site and the other is an alias for a name that is missing. -/
theorem nested_hint_isNearest :
    let bundleAt (sites : List Site) : Entry Host.text :=
      .ofBundle ⟨fun site => if site ∈ sites then some (.ofItems fun _ _ => []) else none, none⟩
    let aliasFor (names : List String) : Entry Host.text := .ofAlias ⟨names, fun _ => none⟩
    let r : Registry Host.text :=
      { catalog :=
          ((((NameTable.empty.insert "show" (bundleAt [.structureType])).insert
            "shoe" (bundleAt [.signatureType])).insert "sho" (aliasFor ["missing"])).insert
            "inner" (aliasFor ["show", "shop"])).insert "outer" (aliasFor ["inner"]) }
    (r.resolve .structureType ⟨"outer", .nowhere⟩).result =
        .error (.unknownGenerator "shop" .structureType .nowhere (some "show")) ∧
      r.Near .structureType "shop" "show" ∧
      (∀ c, r.Near .structureType "shop" c → c ≠ "show" → Spelling.Nearer "shop" "show" c) ∧
      (∀ loc, ∃ found, (r.resolve .structureType ⟨"show", loc⟩).result = .ok found) ∧
      some "show" ≠ some "shoe" ∧ some "show" ≠ some "sho" := by
  intro bundleAt aliasFor r
  have h : (r.resolve .structureType ⟨"outer", .nowhere⟩).result =
      .error (.unknownGenerator "shop" .structureType .nowhere (some "show")) := by cbv
  obtain ⟨-, hleast, hresolves, hnever⟩ := hint_isNearest h
  have hshow := (hleast "show").1 rfl
  have hshoe : Failure.Justified r.catalog .structureType (.unsupported "shoe") :=
    ⟨_, rfl, rfl⟩
  have hmissing : Failure.Justified r.catalog .structureType (.unknown "missing") := rfl
  have hleads : Leads r.catalog .structureType "sho" "missing" :=
    ⟨⟨["missing"], fun _ => none⟩, rfl, List.mem_singleton_self "missing"⟩
  refine ⟨h, hshow.1, hshow.2, (hresolves "show" rfl).2, ?_, ?_⟩
  · exact hnever "shoe" "shoe" .refl (not_usable_of_justified hshoe)
  · exact hnever "sho" "missing" (.single hleads) (not_usable_of_justified hmissing)

end Registry

end CodegenRegistry
