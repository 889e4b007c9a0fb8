import CodegenRegistry.Proofs.Expansion.Flattening
import CodegenRegistry.Resolution
import Mathlib
/-!
# The recurrence for aliases

An expansion deals with the later names of an alias from where the earlier ones have led. Main
statement: for an alias that is not on a cycle, expanding each of its names from nothing and joining
the results gives the same, whatever cycles there are below it.
-/

namespace CodegenRegistry

namespace Expansion

variable {H : Host} {t : Catalog H} {site : Site}

/-! ## Flattening within another path -/

/-- Of a path only the names that can be reached matter. -/
theorem flatten_congr_path {path path' : List String} {name : String}
    (h : ∀ x, Reaches t site name x → (x ∈ path ↔ x ∈ path')) :
    flatten t site path name = flatten t site path' name := by
  fun_induction flatten t site path name generalizing path' with
  | case1 path name hfind => rw [flatten_of_unknown hfind]
  | case2 path name b hfind hnone => rw [flatten_of_unsupported hfind hnone]
  | case3 path name b hfind g hsome => rw [flatten_of_generator hfind hsome]
  | case4 path name a hfind hpath =>
      rw [flatten_of_alias hfind, if_pos ((h name .refl).1 hpath)]
  | case5 path name a hfind hpath ih =>
      rw [flatten_of_alias hfind, if_neg (mt (h name .refl).2 hpath)]
      apply List.flatMap_congr
      intro target htarget
      apply ih
      intro x hx
      have hreached : Reaches t site name x := .head ⟨a, hfind, htarget⟩ hx
      rw [List.mem_append, List.mem_append, h x hreached]

/-! ## Joining what was collected apart -/

theorem mem_names_takeNew {found : List (Resolved H)} {r : Resolved H} {x : String} :
    x ∈ (takeNew found r).map Resolved.name ↔ x ∈ found.map Resolved.name ∨ x = r.name := by
  rw [takeNew]
  split
  · rename_i htaken
    constructor
    · exact .inl
    · rintro (hx | rfl)
      · exact hx
      · exact htaken
  · simp

theorem mem_names_foldl_takeNew {found rs : List (Resolved H)} {x : String} :
    x ∈ (rs.foldl takeNew found).map Resolved.name ↔
      x ∈ found.map Resolved.name ∨ x ∈ rs.map Resolved.name := by
  induction rs generalizing found with
  | nil => simp
  | cons r rs ih =>
      rw [List.foldl_cons, ih, mem_names_takeNew, List.map_cons, List.mem_cons, or_assoc]

/-- It does not matter whether a generator is taken before or after what was taken so far is joined
to something else. -/
theorem foldl_takeNew_takeNew (found part : List (Resolved H)) (r : Resolved H) :
    (takeNew part r).foldl takeNew found = takeNew (part.foldl takeNew found) r := by
  by_cases hr : r.name ∈ part.map Resolved.name
  · have htaken : r.name ∈ (part.foldl takeNew found).map Resolved.name :=
      mem_names_foldl_takeNew.2 (.inr hr)
    rw [takeNew, if_pos hr, takeNew, if_pos htaken]
  · rw [takeNew, if_neg hr, List.foldl_append]
    rfl

theorem foldlM_collect_foldl (found part : List (Resolved H))
    (outcomes : List (Except Failure (Resolved H))) :
    outcomes.foldlM collect (part.foldl takeNew found) =
      (outcomes.foldlM collect part).map fun all => all.foldl takeNew found := by
  induction outcomes generalizing part with
  | nil => rfl
  | cons o outcomes ih =>
      cases o with
      | error failure => rfl
      | ok r =>
          have hstep (kept : List (Resolved H)) : (.ok r :: outcomes).foldlM collect kept =
              outcomes.foldlM collect (takeNew kept r) := rfl
          rw [hstep, hstep, ← foldl_takeNew_takeNew, ih]

theorem foldlM_collect_flatMap (outcomes : String → List (Except Failure (Resolved H)))
    (names : List String) (found : List (Resolved H)) :
    (names.flatMap outcomes).foldlM collect found =
      (names.mapM fun name => (outcomes name).foldlM collect []).map fun parts =>
        parts.flatten.foldl takeNew found := by
  induction names generalizing found with
  | nil => rfl
  | cons name names ih =>
      have hhead : (outcomes name).foldlM collect found =
          ((outcomes name).foldlM collect []).map fun part => part.foldl takeNew found :=
        foldlM_collect_foldl found [] (outcomes name)
      rw [List.flatMap_cons, List.foldlM_append, List.mapM_cons, hhead]
      cases (outcomes name).foldlM collect [] with
      | error failure => rfl
      | ok part =>
          have hrest := ih (part.foldl takeNew found)
          cases hparts : names.mapM fun name => (outcomes name).foldlM collect [] with
          | error failure =>
              rw [hparts] at hrest
              exact hrest
          | ok parts =>
              rw [hparts] at hrest
              refine hrest.trans ?_
              simp [Except.map, bind, Except.bind, pure, Except.pure]

theorem expand_alias {name : String} {a : Alias} (halias : t.find? name = some (.ofAlias a))
    (hapart : ∀ target ∈ a.targets site, ¬ Reaches t site target name) :
    expand t site name = ((a.targets site).mapM (expand t site)).map fun parts =>
      parts.flatten.eraseDupsBy fun g g' => g.name == g'.name := by
  have hpath : (a.targets site).flatMap (flatten t site [name]) =
      (a.targets site).flatMap (flatten t site []) := by
    apply List.flatMap_congr
    intro target htarget
    apply flatten_congr_path
    intro x hx
    have hne : x ≠ name := fun heq => hapart target htarget (heq ▸ hx)
    simp [hne]
  have hexpand : expand t site = fun target => (flatten t site [] target).foldlM collect [] :=
    funext (expand_eq_collect t site)
  rw [expand_eq_collect, flatten_of_alias halias, if_neg (by simp), List.nil_append, hpath,
    foldlM_collect_flatMap, ← hexpand]
  simp only [foldl_takeNew_nil]

end Expansion

namespace Registry

open Expansion

variable {H : Host} {r : Registry H} {site : Site} {name : Positioned String} {a : Alias}

theorem result_resolve_alias (halias : r.catalog.find? name.value = some (.ofAlias a))
    (hapart : ∀ target ∈ a.targets site, ¬ Reaches r.catalog site target name.value) :
    (r.resolve site name).result =
      ((a.targets site).mapM fun target => (r.resolve site ⟨target, name.loc⟩).result).map
        fun parts => parts.flatten.eraseDupsBy fun g g' => g.name == g'.name := by
  simp only [result_resolve]
  rw [mapM_mapError, expand_alias halias hapart]
  cases (a.targets site).mapM (expand r.catalog site) <;> rfl

/-- An alias that cannot be reached from its own names resolves to what these resolve to, each by
itself, in their order and without later repeats of a generator. If some of them do not resolve, it
fails as the first of these does. The names below it may lie on cycles. -/
theorem resolve_alias (halias : r.catalog.find? name.value = some (.ofAlias a))
    (hapart : ∀ target ∈ a.targets site, ¬ Reaches r.catalog site target name.value) :
    (∀ parts : List (List (Resolved H)),
        List.Forall₂ (fun target part => (r.resolve site ⟨target, name.loc⟩).result = .ok part)
          (a.targets site) parts →
        (r.resolve site name).result =
          .ok (parts.flatten.eraseDupsBy fun g g' => g.name == g'.name)) ∧
      ∀ target e,
        IsFirst (fun target => ∃ e, (r.resolve site ⟨target, name.loc⟩).result = .error e)
          target (a.targets site) →
        (r.resolve site ⟨target, name.loc⟩).result = .error e →
        (r.resolve site name).result = .error e := by
  rw [result_resolve_alias halias hapart]
  constructor
  · intro parts hparts
    rw [mapM_eq_ok_iff.2 hparts]
    rfl
  · intro target e hfirst he
    rw [mapM_eq_error_iff.2 ⟨target, hfirst, he⟩]
    rfl

/-- Two aliases "all" and "some" above a cycle of two others. For the cycle itself the recurrence
fails: "a" does not stand for what "b" stands for, followed by "x". -/
def woven : Registry Host.text where
  settings := { cutoff := .fixed 1 }
  catalog :=
    let bundle (item : String) : Entry Host.text :=
      .ofBundle ⟨fun _ => some (.ofItems fun _ _ => [item]), none⟩
    let aliasFor (names : List String) : Entry Host.text := .ofAlias ⟨names, fun _ => none⟩
    (((((NameTable.empty.insert "x" (bundle "1")).insert "y" (bundle "2")).insert
      "a" (aliasFor ["b", "x"])).insert "b" (aliasFor ["a", "y"])).insert
      "all" (aliasFor ["b", "a"])).insert "some" (aliasFor ["a", "z", "zz"])

theorem not_leads_woven {outer : String} (houter : outer = "all" ∨ outer = "some")
    (name : String) : ¬ Leads woven.catalog .structureType name outer := by
  intro hleads
  obtain ⟨a, hfind, hmem⟩ := hleads
  simp only [woven, NameTable.find?_insert] at hfind
  split_ifs at hfind <;> simp_all only [Option.some.injEq, Entry.ofAlias.injEq, reduceCtorEq,
    NameTable.find?_empty]
  all_goals
    subst hfind
    rcases houter with rfl | rfl <;> simp [Alias.targets] at hmem

theorem woven_resolve_alias :
    let x : Resolved Host.text := ⟨"x", .ofItems fun _ _ => ["1"]⟩
    let y : Resolved Host.text := ⟨"y", .ofItems fun _ _ => ["2"]⟩
    let missing : Diagnostic := .unknownGenerator "z" .structureType .nowhere (some "a")
    (woven.resolve .structureType ⟨"b", .nowhere⟩).result = .ok [x, y] ∧
      (woven.resolve .structureType ⟨"a", .nowhere⟩).result = .ok [y, x] ∧
      (woven.resolve .structureType ⟨"all", .nowhere⟩).result = .ok [x, y] ∧
      (woven.resolve .structureType ⟨"z", .nowhere⟩).result = .error missing ∧
      (woven.resolve .structureType ⟨"some", .nowhere⟩).result = .error missing := by
  intro x y missing
  have hb : (woven.resolve .structureType ⟨"b", .nowhere⟩).result = .ok [x, y] := by cbv
  have ha : (woven.resolve .structureType ⟨"a", .nowhere⟩).result = .ok [y, x] := by cbv
  have hz : (woven.resolve .structureType ⟨"z", .nowhere⟩).result = .error missing := by cbv
  have hjoin : [[x, y], [y, x]].flatten.eraseDupsBy (fun g g' => g.name == g'.name) = [x, y] := by
    cbv
  have hnotAll : ∀ target ∈ ["b", "a"], target ≠ "all" := by decide
  have hnotSome : ∀ target ∈ ["a", "z", "zz"], target ≠ "some" := by decide
  have hall := @resolve_alias _ woven .structureType ⟨"all", .nowhere⟩ _ rfl fun target htarget =>
    not_reaches_of_not_leads (not_leads_woven (.inl rfl)) (hnotAll target htarget)
  have hsome := @resolve_alias _ woven .structureType ⟨"some", .nowhere⟩ _ rfl
    fun target htarget =>
      not_reaches_of_not_leads (not_leads_woven (.inr rfl)) (hnotSome target htarget)
  have hfirst : IsFirst (fun target =>
        ∃ e, (woven.resolve .structureType ⟨target, .nowhere⟩).result = .error e)
      "z" ["a", "z", "zz"] :=
    .tail (by simp [ha]) (.head ⟨missing, hz⟩)
  exact ⟨hb, ha, hjoin ▸ hall.1 [[x, y], [y, x]] (.cons hb (.cons ha .nil)), hz,
    hsome.2 "z" missing hfirst hz⟩

end Registry

end CodegenRegistry
