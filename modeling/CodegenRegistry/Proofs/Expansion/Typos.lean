import CodegenRegistry.Proofs.Expansion.Hints
import CodegenRegistry.Proofs.Spelling.EditSequences
import Mathlib
/-!
# Single typing errors

A name that resolves may be mistyped by one edit. Main statement: the wrong word then gets a hint
that is one edit away, if it has three characters or the bound is fixed and not zero. A shorter word
gets no hint at all, as every hint would be at distance zero.
-/

namespace CodegenRegistry

namespace Cutoff

variable {cutoff : Cutoff} {length : Nat}

theorem one_le_limit
    (h : cutoff = .byLength ∧ 3 ≤ length ∨ ∃ bound, 1 ≤ bound ∧ cutoff = .fixed bound) :
    1 ≤ cutoff.limit length := by
  rcases h with ⟨rfl, hlength⟩ | ⟨bound, hbound, rfl⟩
  · rw [limit]
    split_ifs <;> omega
  · exact hbound

theorem limit_eq_zero (h : cutoff = .byLength ∧ length ≤ 2 ∨ cutoff = .fixed 0) :
    cutoff.limit length = 0 := by
  rcases h with ⟨rfl, hlength⟩ | rfl
  · rw [limit, if_pos hlength]
  · rfl

end Cutoff

namespace Spelling

open Text.EditDistance

variable {cutoff : Cutoff} {word s : String} {candidates : List String}

theorem distance_pos_of_ne {v w : String} (h : v ≠ w) : 1 ≤ distance v w := by
  rw [distance_eq, Nat.one_le_iff_ne_zero, ne_eq, distance_eq_zero_iff, String.toList_inj]
  exact h

theorem distance_le_one_of_edit (h : Edit s.toList word.toList) : distance word s ≤ 1 := by
  rw [distance_eq, distance_le_iff_edits, edits_comm]
  exact .of_edit h

theorem suggest_eq_none_of_limit (hlimit : cutoff.limit word.length = 0) :
    suggest cutoff word candidates = none := by
  rw [suggest_eq_none_iff]
  intro c hc
  have hpos := distance_pos_of_ne hc.ne_word.symm
  have hwithin := hc.within
  omega

/-- One edit away from a candidate there is a hint. It is one edit away too, since no other word is
nearer, and no greater than the candidate. -/
theorem suggest_of_edit (hmem : s ∈ candidates) (hne : s ≠ word)
    (hedit : Edit s.toList word.toList) (hlimit : 1 ≤ cutoff.limit word.length) :
    ∃ t, suggest cutoff word candidates = some t ∧ t ∈ candidates ∧ distance word t = 1 ∧
      t ≤ s := by
  have hnear : distance word s ≤ 1 := distance_le_one_of_edit hedit
  have hs : Eligible cutoff word candidates s := ⟨hmem, hne, Nat.le_trans hnear hlimit⟩
  obtain ⟨t, ht⟩ := Option.isSome_iff_exists.1 (isSome_suggest_iff.2 ⟨s, hs⟩)
  obtain ⟨heligible, hleast⟩ := suggest_eq_some_iff.1 ht
  have hpos : 1 ≤ distance word t := distance_pos_of_ne heligible.ne_word.symm
  refine ⟨t, ht, heligible.candidate, ?_⟩
  by_cases hst : s = t
  · subst hst
    exact ⟨Nat.le_antisymm hnear hpos, String.le_refl s⟩
  · rcases hleast s hs hst with hnearer | ⟨hsame, hless⟩
    · omega
    · exact ⟨by omega, String.not_lt.1 fun h => String.lt_irrefl t (String.lt_trans hless h)⟩

end Spelling

namespace Registry

open Expansion Text.EditDistance

variable {H : Host} {r : Registry H} {site : Site} {word : String}

theorem result_resolve_of_unknown (h : r.catalog.find? word = none) (loc : Position) :
    (r.resolve site ⟨word, loc⟩).result =
      .error (.unknownGenerator word site loc
        (Spelling.suggest r.settings.cutoff word (r.supported site))) := by
  rw [result_resolve, expand_of_unknown h]
  rfl

/-- A word that is not registered and one edit away from a name that resolves gets a hint, provided
that it has three characters or the bound is fixed and not zero. The hint resolves, is at distance
one and no greater than that name. A word of at most two characters gets no hint from the cutoff by
length, and no word gets one from a fixed bound of zero. -/
theorem resolve_typo (hunknown : r.contains word = false) :
    (∀ s, (∃ loc found, (r.resolve site ⟨s, loc⟩).result = .ok found) →
        Edit s.toList word.toList →
        (r.settings.cutoff = .byLength ∧ 3 ≤ word.length ∨
          ∃ bound, 1 ≤ bound ∧ r.settings.cutoff = .fixed bound) →
        ∀ loc, ∃ t,
          (r.resolve site ⟨word, loc⟩).result =
            .error (.unknownGenerator word site loc (some t)) ∧
          (∃ loc found, (r.resolve site ⟨t, loc⟩).result = .ok found) ∧
          distance word.toList t.toList = 1 ∧ t ≤ s) ∧
      (r.settings.cutoff = .byLength ∧ word.length ≤ 2 ∨ r.settings.cutoff = .fixed 0 →
        ∀ loc, (r.resolve site ⟨word, loc⟩).result =
          .error (.unknownGenerator word site loc none)) := by
  have hfind : r.catalog.find? word = none := by
    simpa [contains, NameTable.contains] using hunknown
  constructor
  · intro s hresolves hedit hcutoff loc
    have hs : s ∈ r.supported site := mem_supported_iff_resolves.2 hresolves
    have hne : s ≠ word := by
      rintro rfl
      exact not_mem_supported_of_unknown hfind hs
    obtain ⟨t, hsuggest, ht, hdistance, hle⟩ :=
      Spelling.suggest_of_edit hs hne hedit (Cutoff.one_le_limit hcutoff)
    refine ⟨t, ?_, mem_supported_iff_resolves.1 ht, Spelling.distance_eq word t ▸ hdistance, hle⟩
    rw [result_resolve_of_unknown hfind, hsuggest]
  · intro hcutoff loc
    rw [result_resolve_of_unknown hfind,
      Spelling.suggest_eq_none_of_limit (Cutoff.limit_eq_zero hcutoff)]

/-- The mistyped name is one edit away from its own name and from a smaller one. The word of two
characters is one edit away from the latter, and still gets no hint. -/
theorem shwo_resolve_typo :
    let r : Registry Host.text :=
      { catalog :=
          (NameTable.empty.insert "show"
              (.ofBundle ⟨fun _ => some (.ofItems fun _ _ => []), none⟩)).insert
            "sho" (.ofAlias ⟨["show"], fun _ => none⟩) }
    (r.contains "shwo" = false ∧
        (∃ loc found, (r.resolve .structureType ⟨"show", loc⟩).result = .ok found) ∧
        Edit "show".toList "shwo".toList ∧ r.settings.cutoff = .byLength ∧ 3 ≤ "shwo".length ∧
        ∃ t,
          (r.resolve .structureType ⟨"shwo", .nowhere⟩).result =
            .error (.unknownGenerator "shwo" .structureType .nowhere (some t)) ∧
          (∃ loc found, (r.resolve .structureType ⟨t, loc⟩).result = .ok found) ∧
          distance "shwo".toList t.toList = 1 ∧ t ≤ "show") ∧
      r.contains "sh" = false ∧ "sh".length ≤ 2 ∧
      (r.resolve .structureType ⟨"sh", .nowhere⟩).result =
        .error (.unknownGenerator "sh" .structureType .nowhere none) := by
  intro r
  have hshwo : r.contains "shwo" = false := by cbv
  have hsh : r.contains "sh" = false := by cbv
  have hshow : ∃ loc found, (r.resolve .structureType ⟨"show", loc⟩).result = .ok found :=
    ⟨.nowhere, [⟨"show", .ofItems fun _ _ => []⟩], by cbv⟩
  have hedit : Edit "show".toList "shwo".toList :=
    .further 's' (.further 'h' (.swap 'o' 'w' []))
  have hlong : 3 ≤ "shwo".length := by decide
  have hshort : "sh".length ≤ 2 := by decide
  refine ⟨⟨hshwo, hshow, hedit, rfl, hlong, ?_⟩, hsh, hshort, ?_⟩
  · exact (resolve_typo hshwo).1 "show" hshow hedit (.inl ⟨rfl, hlong⟩) .nowhere
  · exact (resolve_typo hsh).2 (.inl ⟨rfl, hshort⟩) .nowhere

end Registry

end CodegenRegistry
