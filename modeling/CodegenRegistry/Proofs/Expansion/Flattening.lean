import CodegenRegistry.Proofs.Expansion.Walk
import CodegenRegistry.Proofs.Loops
/-!
# Expansion is flattening without repeats

Flattening follows every path through the aliases and only refuses to enter an alias that it is
already inside of, so it lists a shared alias again wherever it meets it. An expansion follows each
alias once. Main statement: nothing but the later repeats is lost by that.
-/

namespace CodegenRegistry

namespace Expansion

variable {H : Host} {t : Catalog H} {site : Site}

theorem length_outside_lt {names path : List String} {name : String} (hmem : name ∈ names)
    (hfresh : name ∉ path) :
    (names.filter (· ∉ path ++ [name])).length < (names.filter (· ∉ path)).length := by
  have hsplit : names.filter (· ∉ path ++ [name]) =
      (names.filter (· ∉ path)).filter (· ≠ name) := by
    rw [List.filter_filter]
    congr 1
    funext x
    by_cases hx : x = name <;> simp [hx]
  rw [hsplit, List.length_filter_lt_length_iff_exists]
  exact ⟨name, by simp [hmem, hfresh], by simp⟩

/-- What a name stands for when aliases are followed along every path that does not pass twice
through one alias. -/
def flatten (t : Catalog H) (site : Site) (path : List String) (name : String) :
    List (Except Failure (Resolved H)) :=
  match _ : t.find? name with
  | none => [.error (.unknown name)]
  | some (.ofBundle b) =>
    match b.generators site with
    | none => [.error (.unsupported name)]
    | some g => [.ok ⟨name, g⟩]
  | some (.ofAlias a) =>
    if _ : name ∈ path then []
    else (a.targets site).flatMap fun target => flatten t site (path ++ [name]) target
termination_by (t.names.filter (· ∉ path)).length
decreasing_by
  rename_i hfind hpath
  exact length_outside_lt (NameTable.mem_names_of_find? hfind) hpath

theorem flatten_of_unknown {path : List String} {name : String} (h : t.find? name = none) :
    flatten t site path name = [.error (.unknown name)] := by
  rw [flatten]
  split <;> simp_all

theorem flatten_of_unsupported {path : List String} {name : String} {b : Bundle H}
    (h : t.find? name = some (.ofBundle b)) (hnone : b.generators site = none) :
    flatten t site path name = [.error (.unsupported name)] := by
  rw [flatten]
  split <;> simp_all

theorem flatten_of_generator {path : List String} {name : String} {b : Bundle H}
    {g : Generator H} (h : t.find? name = some (.ofBundle b))
    (hsome : b.generators site = some g) :
    flatten t site path name = [.ok ⟨name, g⟩] := by
  rw [flatten]
  split <;> simp_all

theorem flatten_of_alias {path : List String} {name : String} {a : Alias}
    (h : t.find? name = some (.ofAlias a)) :
    flatten t site path name =
      if name ∈ path then [] else (a.targets site).flatMap (flatten t site (path ++ [name])) := by
  rw [flatten]
  split <;> simp_all

/-! ## Collecting outcomes -/

def takeNew (found : List (Resolved H)) (r : Resolved H) : List (Resolved H) :=
  if r.name ∈ found.map Resolved.name then found else found ++ [r]

theorem foldl_takeNew_nil (rs : List (Resolved H)) :
    rs.foldl takeNew [] = rs.eraseDupsBy fun r r' => r.name == r'.name :=
  foldl_appendNew_nil Resolved.name rs

def collect (found : List (Resolved H)) :
    Except Failure (Resolved H) → Except Failure (List (Resolved H))
  | .error failure => .error failure
  | .ok r => .ok (takeNew found r)

theorem foldlM_collect_eq_error_iff {found : List (Resolved H)} {failure : Failure}
    {outcomes : List (Except Failure (Resolved H))} :
    outcomes.foldlM collect found = .error failure ↔
      IsFirst (fun o => ∃ failure, o = .error failure) (.error failure) outcomes := by
  induction outcomes generalizing found with
  | nil => simp [IsFirst.not_nil, pure, Except.pure]
  | cons o outcomes ih =>
      rw [List.foldlM_cons, IsFirst.cons_iff]
      cases o with
      | error other => simp [collect, bind, Except.bind]
      | ok r => simpa [collect, bind, Except.bind] using ih

theorem foldlM_collect_eq_ok_iff {found all : List (Resolved H)}
    {outcomes : List (Except Failure (Resolved H))} :
    outcomes.foldlM collect found = .ok all ↔
      ∃ rs : List (Resolved H), outcomes = rs.map .ok ∧ all = rs.foldl takeNew found := by
  induction outcomes generalizing found with
  | nil => simp [pure, Except.pure, eq_comm]
  | cons o outcomes ih =>
      rw [List.foldlM_cons]
      cases o with
      | error other =>
          constructor
          · intro h
            cases h
          · intro h
            obtain ⟨rs, hrs, -⟩ := h
            cases rs <;> simp at hrs
      | ok r =>
          have hstep : (collect found (.ok r) >>= fun found => outcomes.foldlM collect found) =
              outcomes.foldlM collect (takeNew found r) := rfl
          rw [hstep, ih]
          constructor
          · intro h
            obtain ⟨rs, rfl, rfl⟩ := h
            exact ⟨r :: rs, rfl, rfl⟩
          · intro h
            obtain ⟨rs, hrs, rfl⟩ := h
            cases rs with
            | nil => simp at hrs
            | cons r' rs =>
                obtain ⟨hr, hrest⟩ := List.cons.inj hrs
                obtain rfl := Except.ok.inj hr
                exact ⟨rs, hrest, rfl⟩

theorem foldlM_collect_of_taken {found : List (Resolved H)}
    {outcomes : List (Except Failure (Resolved H))}
    (h : ∀ o ∈ outcomes, ∃ r ∈ found, o = .ok r) :
    outcomes.foldlM collect found = .ok found := by
  induction outcomes with
  | nil => rfl
  | cons o outcomes ih =>
      obtain ⟨ho, hrest⟩ := List.forall_mem_cons.1 h
      obtain ⟨r, hr, rfl⟩ := ho
      have htaken : r.name ∈ found.map Resolved.name := List.mem_map_of_mem hr
      have hcollect : collect found (.ok r) = .ok found := congrArg Except.ok (if_pos htaken)
      rw [List.foldlM_cons, hcollect]
      exact ih hrest

/-! ## The walk collects what flattening lists -/

/-- Below a settled name flattening lists only what has been taken. -/
theorem flatten_taken {p : Progress H} (hp : p.Valid t site) {path : List String} {name : String}
    (hclosed : p.ClosedOutside t site path) (hsettled : p.Settled name) :
    ∀ o ∈ flatten t site path name, ∃ r ∈ p.found, o = .ok r := by
  fun_induction flatten t site path name with
  | case1 path name hfind =>
      rcases hp.settled_iff.1 hsettled with ⟨a, ha, -⟩ | ⟨b, g, hb, -⟩
      · simp [hfind] at ha
      · simp [hfind] at hb
  | case2 path name b hfind hnone =>
      rcases hp.settled_iff.1 hsettled with ⟨a, ha, -⟩ | ⟨b', g, hb, hsome, -⟩
      · simp [hfind] at ha
      · obtain rfl : b = b' := by simpa [hfind] using hb
        simp [hnone] at hsome
  | case3 path name b hfind g hsome =>
      rcases hp.settled_iff.1 hsettled with ⟨a, ha, -⟩ | ⟨b', g', hb, hsome', hr⟩
      · simp [hfind] at ha
      · obtain rfl : b = b' := by simpa [hfind] using hb
        obtain rfl : g = g' := by simpa [hsome] using hsome'
        intro o ho
        exact ⟨_, hr, List.mem_singleton.1 ho⟩
  | case4 path name a hfind hpath => simp
  | case5 path name a hfind hpath ih =>
      have hfollowed : name ∈ p.followed := hp.mem_followed hfind hsettled
      have hclosed' : p.ClosedOutside t site (path ++ [name]) := by
        intro n hn hnew
        exact hclosed n hn fun hold => hnew (List.mem_append_left _ hold)
      intro o ho
      obtain ⟨target, htarget, ho⟩ := List.mem_flatMap.1 ho
      have hsettled' : p.Settled target := hclosed name hfollowed hpath target ⟨a, hfind, htarget⟩
      exact ih target hclosed' hsettled' o ho

/-- From any progress within a path, walking some names collects their outcomes. The walk does not
enter an alias that was followed before; if the path does not hold that alias either, then all
below it has been taken. -/
theorem found_walk_eq_collect (names : List String) (p : Progress H) (path : List String)
    (hp : p.Valid t site) (hpath : path ⊆ p.followed) (hclosed : p.ClosedOutside t site path) :
    (walk t site names p).map Progress.found =
      (names.flatMap (flatten t site path)).foldlM collect p.found := by
  induction names, p using walk_induction t site generalizing path with
  | nil p => rw [walk_nil]; rfl
  | unknown name pending p hfind =>
      rw [walk_of_unknown _ _ hfind, List.flatMap_cons, flatten_of_unknown hfind]
      rfl
  | taken name pending p b hfind hhas ih =>
      have hsettled : p.Settled name := .inr (Progress.has_iff.1 hhas)
      rw [walk_of_bundle _ _ hfind, if_pos hhas, List.flatMap_cons, List.foldlM_append,
        foldlM_collect_of_taken (flatten_taken hp hclosed hsettled)]
      exact ih path hp hpath hclosed
  | unsupported name pending p b hfind hhas hnone =>
      rw [walk_of_bundle _ _ hfind, if_neg hhas, hnone, List.flatMap_cons,
        flatten_of_unsupported hfind hnone]
      rfl
  | take name pending p b g hfind hhas hsome ih =>
      have hcollect : collect p.found (.ok ⟨name, g⟩) = .ok (p.found ++ [⟨name, g⟩]) :=
        congrArg Except.ok (if_neg (mt Progress.has_iff.2 hhas))
      rw [walk_of_bundle _ _ hfind, if_neg hhas, hsome, List.flatMap_cons,
        flatten_of_generator hfind hsome, List.singleton_append, List.foldlM_cons, hcollect]
      exact ih path (hp.take hfind hsome hhas) hpath (hclosed.take _)
  | followed name pending p a hfind hfollowed ih =>
      have hsettled : p.Settled name := .inl hfollowed
      rw [walk_of_alias _ _ hfind, if_pos hfollowed, List.flatMap_cons, List.foldlM_append,
        foldlM_collect_of_taken (flatten_taken hp hclosed hsettled)]
      exact ih path hp hpath hclosed
  | follow name pending p a hfind hfresh ihtargets ihpending =>
      have hpath' : path ++ [name] ⊆ name :: p.followed := by
        intro n hn
        rcases List.mem_append.1 hn with hn | hn
        · exact List.mem_cons_of_mem _ (hpath hn)
        · simp_all
      have htargets := ihtargets (path ++ [name]) (hp.follow hfind) hpath'
        (hclosed.follow name)
      rw [walk_of_alias _ _ hfind, if_neg hfresh, walk_append, List.flatMap_cons,
        flatten_of_alias hfind, if_neg fun h => hfresh (hpath h), List.foldlM_append, ← htargets]
      cases hwalk : walk t site (a.targets site)
          { p with followed := name :: p.followed } with
      | error failure => rfl
      | ok q =>
          have hexplores : Explores t site [name] p q :=
            .follow hfind hfresh (by simpa using walk_explores hwalk)
          exact ihpending q hwalk path (walk_valid (hp.follow hfind) hwalk)
            (List.Subset.trans hpath hexplores.followed_subset) (hexplores.closedOutside hclosed)

theorem expand_eq_collect (t : Catalog H) (site : Site) (name : String) :
    expand t site name = (flatten t site [] name).foldlM collect [] := by
  have hwalk := found_walk_eq_collect [name] {} [] (Progress.valid_empty t site)
    (List.Subset.refl _) (by simp [Progress.ClosedOutside])
  rw [expand, hwalk, List.flatMap_singleton]

/-- An expansion ends in the first failure that flattening lists, if there is one, and else in the
generators that it lists, without later repeats of a name. -/
theorem expand_eq_flatten (t : Catalog H) (site : Site) (name : String) :
    (∀ failure, expand t site name = .error failure ↔
        IsFirst (fun o => ∃ failure, o = .error failure) (.error failure)
          (flatten t site [] name)) ∧
      ∀ found, expand t site name = .ok found ↔
        ∃ rs : List (Resolved H), flatten t site [] name = rs.map .ok ∧
          found = rs.eraseDupsBy fun r r' => r.name == r'.name := by
  rw [expand_eq_collect]
  refine ⟨fun failure => foldlM_collect_eq_error_iff, fun found => ?_⟩
  simp only [foldlM_collect_eq_ok_iff, foldl_takeNew_nil]

end Expansion

end CodegenRegistry
