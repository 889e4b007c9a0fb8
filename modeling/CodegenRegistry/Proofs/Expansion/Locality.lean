import CodegenRegistry.Proofs.Batch.NewNames
import Mathlib
/-!
# Resolution is local

What a name stands for at a site depends on the names that can be reached from it there, and of
these only on what they hold for that site. Main statement: entries elsewhere in the catalog, and
what entries hold for other sites, may change at will; only the hint for an unknown name can notice.
-/

namespace CodegenRegistry

variable {H : Host} {site : Site}

namespace Expansion

variable {t t' : Catalog H} {name : String}

/-- Two catalogs hold the same under a name as far as the site goes: nothing, or bundles with the
same generator there or none, or aliases that stand for the same names there. -/
def SameAt (site : Site) (t t' : Catalog H) (name : String) : Prop :=
  Option.Rel (Entry.Alike Eq site) (t.find? name) (t'.find? name)

theorem SameAt.of_eq (h : t.find? name = t'.find? name) : SameAt site t t' name := by
  rw [SameAt, ← h]
  cases t.find? name with
  | none => exact .none
  | some e => exact .some (.refl site e)

theorem SameAt.coversAt (h : SameAt site t t' name) :
    CoversAt Eq (fun _ => False) site t t' name where
  held := by
    intro e he
    rw [SameAt, he] at h
    exact exists_of_rel h
  absent := by
    intro hnone _
    rw [SameAt, hnone] at h
    exact eq_none_of_rel h

theorem eq_of_alike {found found' : List (Resolved H)}
    (h : List.Forall₂ (Resolved.Alike Eq) found found') : found = found' := by
  induction h with
  | nil => rfl
  | @cons r r' _ _ hhead _ ih =>
      obtain ⟨name, g⟩ := r
      obtain ⟨name', g'⟩ := r'
      obtain ⟨rfl, rfl⟩ := hhead
      rw [ih]

theorem expand_congr (h : ∀ x, Reaches t site name x → SameAt site t t' x) :
    expand t site name = expand t' site name := by
  have hfollows := expand_follows_of_reached fun x hx => (h x hx).coversAt
  rcases hfollows.error_or_ok Failure.not_wants with
    ⟨failure, he, he'⟩ | ⟨found, found', hf, hf', halike⟩
  · rw [he, he']
  · rw [hf, hf', eq_of_alike halike]

theorem covers_of_sameAt (h : ∀ x, SameAt site t t' x) :
    Covers Eq (fun _ => False) site t t' where
  held x := (h x).coversAt.held
  absent x := (h x).coversAt.absent

theorem sameAt_insert_of_ne {other : String} (entry : Entry H) (hne : name ≠ other) :
    SameAt site t (t.insert other entry) name := by
  apply SameAt.of_eq
  rw [NameTable.find?_insert, if_neg hne]

theorem sameAt_insert_of_alike {changed : String} {e e' : Entry H}
    (hfind : t.find? changed = some e) (halike : Entry.Alike Eq site e e') (name : String) :
    SameAt site t (t.insert changed e') name := by
  by_cases heq : name = changed
  · rw [SameAt, heq, hfind, NameTable.find?_insert_self]
    exact .some halike
  · exact sameAt_insert_of_ne e' heq

end Expansion

theorem Entry.alike_on_bundle {other : Site} (hother : other ≠ site) (b : Bundle H)
    (g : Generator H) : Entry.Alike Eq site (.ofBundle b) (.ofBundle (b.on other g)) := by
  have hkept : (b.on other g).generators site = b.generators site :=
    Site.assign_of_ne _ _ hother.symm
  apply Entry.Alike.bundle
  rw [hkept]
  cases b.generators site with
  | none => exact .none
  | some g => exact .some rfl

theorem Entry.alike_on_alias {other : Site} (hother : other ≠ site) (a : Alias)
    (names : List String) :
    Entry.Alike (H := H) Eq site (.ofAlias a) (.ofAlias (a.on other names)) := by
  have hkept : (a.on other names).overrides site = a.overrides site :=
    Site.assign_of_ne _ _ hother.symm
  apply Entry.Alike.aliased
  rw [Alias.targets, Alias.targets, hkept]
  rfl

namespace Registry

open Expansion

variable {r r' : Registry H} {name : Positioned String}

structure ResolvesSame (r r' : Registry H) (site : Site) (name : Positioned String) : Prop where
  found : ∀ found, (r.resolve site name).result = .ok found ↔
    (r'.resolve site name).result = .ok found
  diagnostic : ∀ e, (r.resolve site name).result = .error e →
    ∃ e', (r'.resolve site name).result = .error e' ∧ e.SameButForHint e'

theorem resolvesSame_of_expand
    (h : expand r.catalog site name.value = expand r'.catalog site name.value) :
    ResolvesSame r r' site name where
  found found := by rw [result_resolve_eq_ok_iff, result_resolve_eq_ok_iff, h]
  diagnostic := by
    intro e he
    obtain ⟨failure, hfailure, rfl⟩ := result_resolve_eq_error_iff.1 he
    refine ⟨_, result_resolve_eq_error_iff.2 ⟨failure, h ▸ hfailure, rfl⟩, ?_⟩
    cases failure with
    | unknown culprit => exact .unknown _ _ _ _ _
    | unsupported culprit => exact .same _

theorem register_fst (r : Registry H) (name : String) (entry : Entry H) :
    (r.register name entry).1 = r ∨
      (r.register name entry).1 = { r with catalog := r.catalog.insert name entry } := by
  by_cases hsealed : r.isSealed
  · rw [register, if_pos hsealed]
    exact .inl rfl
  · exact .inr (register_of_open (Bool.eq_false_of_not_eq_true hsealed) entry)

theorem expand_register_of_not_reaches {other : String}
    (hother : ¬ Reaches r.catalog site name.value other) (entry : Entry H) :
    expand r.catalog site name.value =
      expand (r.register other entry).1.catalog site name.value := by
  rcases r.register_fst other entry with heq | heq
  · rw [heq]
  · rw [heq]
    apply expand_congr
    intro x hx
    exact sameAt_insert_of_ne entry fun hname => hother (hname ▸ hx)

theorem result_resolve_register_of_alike {changed : String} {e e' : Entry H}
    (hfind : r.catalog.find? changed = some e) (halike : Entry.Alike Eq site e e') :
    ((r.register changed e').1.resolve site name).result = (r.resolve site name).result := by
  rcases r.register_fst changed e' with heq | heq
  · rw [heq]
  · have hsame := sameAt_insert_of_alike hfind halike
    have hexpand : expand r.catalog site name.value =
        expand (r.catalog.insert changed e') site name.value :=
      expand_congr fun x _ => hsame x
    have hdiagnose : r.diagnose site =
        diagnose { r with catalog := r.catalog.insert changed e' } site :=
      diagnose_eq_of_covers rfl (covers_of_sameAt hsame)
    rw [heq, result_resolve, result_resolve, hexpand, hdiagnose]

/-- Resolution is local. Catalogs that hold the same for the site under all names that can be
reached expand a name alike, and registries with such catalogs resolve it alike but for the hint.
So it does not matter what is registered under a name that cannot be reached. What an entry holds
for other sites matters to no name, not even to a hint. -/
theorem resolve_isLocal (site : Site) (name : Positioned String) :
    (∀ t t' : Catalog H, (∀ x, Reaches t site name.value x → SameAt site t t' x) →
        expand t site name.value = expand t' site name.value) ∧
      (∀ r r' : Registry H,
        (∀ x, Reaches r.catalog site name.value x → SameAt site r.catalog r'.catalog x) →
        ResolvesSame r r' site name) ∧
      (∀ (r : Registry H) other entry, ¬ Reaches r.catalog site name.value other →
        ResolvesSame r (r.register other entry).1 site name) ∧
      (∀ (r : Registry H) changed e e', r.catalog.find? changed = some e →
        Entry.Alike Eq site e e' →
        ((r.register changed e').1.resolve site name).result = (r.resolve site name).result) ∧
      ∀ other, other ≠ site →
        (∀ (b : Bundle H) g, Entry.Alike Eq site (.ofBundle b) (.ofBundle (b.on other g))) ∧
        ∀ a names, Entry.Alike Eq site (.ofAlias a : Entry H) (.ofAlias (a.on other names)) := by
  refine ⟨fun t t' h => expand_congr h, ?_, ?_, ?_, ?_⟩
  · intro r r' h
    exact resolvesSame_of_expand (expand_congr h)
  · intro r other entry hother
    exact resolvesSame_of_expand (expand_register_of_not_reaches hother entry)
  · intro r changed e e' hfind halike
    exact result_resolve_register_of_alike hfind halike
  · intro other hother
    exact ⟨Entry.alike_on_bundle hother, Entry.alike_on_alias hother⟩

def dangling : Registry Host.text where
  catalog :=
    (NameTable.empty.insert "show"
      (.ofBundle ⟨fun _ => some (.ofItems fun _ _ => []), none⟩)).insert
      "both" (.ofAlias ⟨["show", "shw"], fun _ => none⟩)

theorem not_reaches_dangling :
    ¬ Reaches dangling.catalog .structureType "both" "sha" := by
  apply not_reaches_of_not_leads _ (by decide)
  intro other hleads
  obtain ⟨a, hfind, hmem⟩ := hleads
  simp only [dangling, NameTable.find?_insert] at hfind
  split_ifs at hfind
  · obtain rfl := Entry.ofAlias.inj (Option.some.inj hfind)
    simp [Alias.targets] at hmem
  · cases hfind
  · cases hfind

/-- A new name that cannot be reached is a better hint. A generator for another site changes
nothing. -/
theorem dangling_resolve_isLocal :
    let e (hint : String) : Diagnostic :=
      .unknownGenerator "shw" .structureType .nowhere (some hint)
    let g : Generator Host.text := .ofItems fun _ _ => []
    let b : Bundle Host.text := ⟨fun _ => some g, none⟩
    let widened := (dangling.register "sha" (.ofBundle b)).1
    let adapted := (dangling.register "show" (.ofBundle (b.on .signatureType g))).1
    ¬ Reaches dangling.catalog .structureType "both" "sha" ∧
      dangling.catalog.find? "show" = some (.ofBundle b) ∧
      (dangling.resolve .structureType ⟨"both", .nowhere⟩).result = .error (e "show") ∧
      (∃ e', (widened.resolve .structureType ⟨"both", .nowhere⟩).result = .error e' ∧
        (e "show").SameButForHint e') ∧
      (widened.resolve .structureType ⟨"both", .nowhere⟩).result = .error (e "sha") ∧
      (adapted.resolve .structureType ⟨"both", .nowhere⟩).result = .error (e "show") := by
  intro e g b widened adapted
  obtain ⟨-, -, helsewhere, hentry, hsites⟩ :=
    @resolve_isLocal Host.text .structureType ⟨"both", .nowhere⟩
  have hbefore : (dangling.resolve .structureType ⟨"both", .nowhere⟩).result =
      .error (e "show") := by cbv
  have hafter : (widened.resolve .structureType ⟨"both", .nowhere⟩).result =
      .error (e "sha") := by cbv
  have halike := (hsites .signatureType (by decide)).1 b g
  exact ⟨not_reaches_dangling, rfl, hbefore,
    (helsewhere dangling "sha" (.ofBundle b) not_reaches_dangling).diagnostic _ hbefore, hafter,
    (hentry dangling "show" (.ofBundle b) _ rfl halike).trans hbefore⟩

end Registry

end CodegenRegistry
