import CodegenRegistry.Proofs.Batch.Inlining
import CodegenRegistry.Proofs.Batch.Likeness
import Mathlib
/-!
# New names

A name that nothing was registered under can stop a batch, and does so as soon as it is met. Main
statement: when it gets an entry, no other batch ends in another way, except that a hint for another
unknown name may now be a different one.
-/

namespace CodegenRegistry

variable {H : Host}

inductive Diagnostic.SameButForHint : Diagnostic → Diagnostic → Prop
  | same (e : Diagnostic) : SameButForHint e e
  | unknown (name : String) (site : Site) (loc : Position) (hint hint' : Option String) :
      SameButForHint (.unknownGenerator name site loc hint) (.unknownGenerator name site loc hint')

theorem Entry.Alike.refl (site : Site) (e : Entry H) : Entry.Alike Eq site e e := by
  cases e with
  | ofAlias a => exact .aliased rfl
  | ofBundle b =>
      apply Entry.Alike.bundle
      cases b.generators site with
      | none => exact .none
      | some g => exact .some rfl

theorem Expansion.covers_insert {t : Catalog H} {name : String} (site : Site)
    (hnew : t.find? name = none) (entry : Entry H) :
    Covers Eq (· = name) site t (t.insert name entry) where
  held := by
    intro other e he
    have hne : other ≠ name := by
      intro heq
      rw [heq, hnew] at he
      cases he
    refine ⟨e, ?_, .refl site e⟩
    rw [NameTable.find?_insert, if_neg hne, he]
  absent := by
    intro other hnone hne
    rw [NameTable.find?_insert, if_neg hne, hnone]

namespace Registry

variable {r : Registry H} {name : String}

theorem register_of_open (hopen : r.isSealed = false) (entry : Entry H) :
    (r.register name entry).1 = { r with catalog := r.catalog.insert name entry } := by
  rw [register, hopen]
  rfl

theorem covers_register (site : Site) (hopen : r.isSealed = false)
    (hnew : r.contains name = false) (entry : Entry H) :
    Covers Eq (· = name) Diagnostic.SameButForHint site r (r.register name entry).1 := by
  have hfind : r.catalog.find? name = none := by
    simpa [contains, NameTable.contains] using hnew
  rw [register_of_open hopen]
  refine ⟨rfl, Expansion.covers_insert site hfind entry, ?_, .same, ?_⟩
  · intro g g' heq
    exact heq ▸ .refl g
  · intro loc failure
    cases failure with
    | unknown culprit => exact .unknown _ _ _ _ _
    | unsupported culprit => exact .same _

/-- A batch ends as before when an entry is registered under a name that had none, unless it was
for want of that very name that it failed. Only the hint for another unknown name may change. -/
theorem compose_register (hopen : r.isSealed = false) (hnew : r.contains name = false)
    (entry : Entry H) (a : Attachment H) (invs : List (Invocation H.Raw)) :
    (∀ c, (r.compose a invs).2.result = .ok c →
        ((r.register name entry).1.compose a invs).2.result = .ok c) ∧
      (∀ e, (r.compose a invs).2.result = .error e →
        (∀ culprit site loc hint, e ≠ .unknownGenerator culprit site loc hint) →
          ((r.register name entry).1.compose a invs).2.result = .error e) ∧
      ∀ culprit site loc hint, culprit ≠ name →
        (r.compose a invs).2.result = .error (.unknownGenerator culprit site loc hint) →
          ∃ hint', ((r.register name entry).1.compose a invs).2.result =
            .error (.unknownGenerator culprit site loc hint') := by
  have hcovers := covers_register a.site hopen hnew entry
  have hrelated : Composition.StaysRelated (H := H) Eq Eq a a := by
    intro g g' c c' values hg hc
    rw [hg, hc]
  have hfollows := hcovers.compose hrelated rfl rfl invs
  refine ⟨?_, ?_, ?_⟩
  · intro c hc
    obtain ⟨c', hc', rfl⟩ := hfollows.of_ok hc
    exact hc'
  · intro e he hother
    have hkept : ¬ e.Wants (· = name) := by
      cases e with
      | unknownGenerator culprit site loc hint => exact absurd rfl (hother _ _ _ _)
      | _ => exact not_false
    obtain ⟨e', he', hsame⟩ := hfollows.of_error he hkept
    cases hsame with
    | same => exact he'
    | unknown culprit site loc hint => exact absurd rfl (hother _ _ _ _)
  · intro culprit site loc hint hne he
    obtain ⟨e', he', hsame⟩ := hfollows.of_error he hne
    cases hsame with
    | same => exact ⟨hint, he'⟩
    | unknown _ _ _ _ hint' => exact ⟨hint', he'⟩

end Registry

/-- The new name is nearer to the misspelt one than what was hinted at before. -/
theorem Registry.paired_register :
    let a : Attachment Host.text := ⟨.structureType, "", ""⟩
    let both : List (Invocation Host.text.Raw) := [⟨⟨"both", .nowhere⟩, []⟩]
    let refused : List (Invocation Host.text.Raw) := [⟨⟨"both", .nowhere⟩, [.labelled "z" "1"]⟩]
    let misspelt : List (Invocation Host.text.Raw) := [⟨⟨"shw", .nowhere⟩, []⟩]
    let entry : Entry Host.text := .ofAlias ⟨["show"], fun _ => none⟩
    let e : Diagnostic := .unknownArgument "both" "z" .nowhere none
    paired.isSealed = false ∧ paired.contains "sho" = false ∧
      (paired.compose a both).2.result = .ok ⟨["-", "-"], ["echo"]⟩ ∧
      ((paired.register "sho" entry).1.compose a both).2.result =
        .ok ⟨["-", "-"], ["echo"]⟩ ∧
      (paired.compose a refused).2.result = .error e ∧
      ((paired.register "sho" entry).1.compose a refused).2.result = .error e ∧
      (paired.compose a misspelt).2.result =
        .error (.unknownGenerator "shw" .structureType .nowhere (some "show")) ∧
      ∃ hint', ((paired.register "sho" entry).1.compose a misspelt).2.result =
        .error (.unknownGenerator "shw" .structureType .nowhere hint') := by
  intro a both refused misspelt entry e
  have hopen : paired.isSealed = false := rfl
  have hnew : paired.contains "sho" = false := by cbv
  have hboth : (paired.compose a both).2.result = .ok ⟨["-", "-"], ["echo"]⟩ := by cbv
  have hrefused : (paired.compose a refused).2.result = .error e := by cbv
  have hmisspelt : (paired.compose a misspelt).2.result =
      .error (.unknownGenerator "shw" .structureType .nowhere (some "show")) := by cbv
  exact ⟨hopen, hnew, hboth, (compose_register hopen hnew entry a both).1 _ hboth, hrefused,
    (compose_register hopen hnew entry a refused).2.1 e hrefused (by simp [e]), hmisspelt,
    (compose_register hopen hnew entry a misspelt).2.2 _ _ _ _ (by decide) hmisspelt⟩

end CodegenRegistry
