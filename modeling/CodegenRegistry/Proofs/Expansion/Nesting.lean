import CodegenRegistry.Proofs.Expansion.Walk
import Mathlib
/-!
# The cost of an expansion

Expanding a name may be told as calls within calls: the call for an alias makes a call for each of
its names. The aliases may form cycles, so nothing becomes smaller from a call to the next. Main
statement: the calls come to an end all the same, since no alias is gone through twice, and the
aliases bound both how deep the calls are nested and how many there are.
-/

namespace CodegenRegistry

namespace Expansion

variable {H : Host} {t : Catalog H} {site : Site}

/-- Calls that are made one after the other. A call returns directly, or it goes through the names
of an alias and makes calls for these. -/
inductive Calls
  | none
  | direct (name : String) (later : Calls)
  | through (name : String) (a : Alias) (inner later : Calls)

namespace Calls

def depth : Calls → Nat
  | none => 0
  | direct _ later => max 1 later.depth
  | through _ _ inner later => max (inner.depth + 1) later.depth

def count : Calls → Nat
  | none => 0
  | direct _ later => later.count + 1
  | through _ _ inner later => inner.count + later.count + 1

def walked : Calls → List (String × Alias)
  | none => []
  | direct _ later => later.walked
  | through name a inner later => (name, a) :: (inner.walked ++ later.walked)

theorem depth_le (calls : Calls) : calls.depth ≤ calls.walked.length + 1 := by
  induction calls with
  | none => simp [depth]
  | direct name later ih =>
      simp only [depth, walked]
      omega
  | through name a inner later ihinner ihlater =>
      simp only [depth, walked, List.length_cons, List.length_append]
      omega

theorem forall_walked_through {P : String × Alias → Prop} {name : String} {a : Alias}
    {inner later : Calls} :
    (∀ w ∈ (through name a inner later).walked, P w) ↔
      P (name, a) ∧ (∀ w ∈ inner.walked, P w) ∧ ∀ w ∈ later.walked, P w := by
  rw [walked, List.forall_mem_cons, List.forall_mem_append]

end Calls

/-- The calls for some names, made in turn from a progress, and how they end. A call that fails ends
the calls around it, and the names after it are left. -/
inductive Runs (t : Catalog H) (site : Site) :
    List String → Progress H → Calls → Except Failure (Progress H) → Prop
  | nil (p : Progress H) : Runs t site [] p .none (.ok p)
  | unknown {name : String} {pending : List String} {p : Progress H}
      (hfind : t.find? name = none) :
      Runs t site (name :: pending) p (.direct name .none) (.error (.unknown name))
  | taken {name : String} {pending : List String} {p : Progress H} {b : Bundle H} {later : Calls}
      {out : Except Failure (Progress H)} (hfind : t.find? name = some (.ofBundle b))
      (hhas : p.has name) (hlater : Runs t site pending p later out) :
      Runs t site (name :: pending) p (.direct name later) out
  | unsupported {name : String} {pending : List String} {p : Progress H} {b : Bundle H}
      (hfind : t.find? name = some (.ofBundle b)) (hhas : ¬ p.has name)
      (hnone : b.generators site = none) :
      Runs t site (name :: pending) p (.direct name .none) (.error (.unsupported name))
  | take {name : String} {pending : List String} {p : Progress H} {b : Bundle H}
      {g : Generator H} {later : Calls} {out : Except Failure (Progress H)}
      (hfind : t.find? name = some (.ofBundle b)) (hhas : ¬ p.has name)
      (hsome : b.generators site = some g)
      (hlater : Runs t site pending { p with found := p.found ++ [⟨name, g⟩] } later out) :
      Runs t site (name :: pending) p (.direct name later) out
  | followed {name : String} {pending : List String} {p : Progress H} {a : Alias} {later : Calls}
      {out : Except Failure (Progress H)} (hfind : t.find? name = some (.ofAlias a))
      (hfollowed : name ∈ p.followed) (hlater : Runs t site pending p later out) :
      Runs t site (name :: pending) p (.direct name later) out
  | stop {name : String} {pending : List String} {p : Progress H} {a : Alias} {inner : Calls}
      {failure : Failure} (hfind : t.find? name = some (.ofAlias a)) (hfresh : name ∉ p.followed)
      (hinner : Runs t site (a.targets site) { p with followed := name :: p.followed } inner
        (.error failure)) :
      Runs t site (name :: pending) p (.through name a inner .none) (.error failure)
  | follow {name : String} {pending : List String} {p q : Progress H} {a : Alias}
      {inner later : Calls} {out : Except Failure (Progress H)}
      (hfind : t.find? name = some (.ofAlias a)) (hfresh : name ∉ p.followed)
      (hinner : Runs t site (a.targets site) { p with followed := name :: p.followed } inner
        (.ok q))
      (hlater : Runs t site pending q later out) :
      Runs t site (name :: pending) p (.through name a inner later) out

variable {names : List String} {p : Progress H} {calls : Calls}
  {out : Except Failure (Progress H)}

namespace Runs

/-- The calls end as the walk does, which keeps one list of what is pending at all depths. -/
theorem walk_eq (h : Runs t site names p calls out) : walk t site names p = out := by
  induction h with
  | nil p => exact walk_nil t site p
  | unknown hfind => exact walk_of_unknown _ _ hfind
  | taken hfind hhas _ ih => rw [walk_of_bundle _ _ hfind, if_pos hhas, ih]
  | unsupported hfind hhas hnone => rw [walk_of_bundle _ _ hfind, if_neg hhas, hnone]
  | take hfind hhas hsome _ ih => rw [walk_of_bundle _ _ hfind, if_neg hhas, hsome]; exact ih
  | followed hfind hfollowed _ ih => rw [walk_of_alias _ _ hfind, if_pos hfollowed, ih]
  | stop hfind hfresh _ ih => rw [walk_of_alias _ _ hfind, if_neg hfresh, walk_append, ih]; rfl
  | follow hfind hfresh _ _ ihinner ihlater =>
      rw [walk_of_alias _ _ hfind, if_neg hfresh, walk_append, ihinner]
      exact ihlater

theorem registered (h : Runs t site names p calls out) :
    ∀ w ∈ calls.walked, t.find? w.1 = some (.ofAlias w.2) := by
  induction h with
  | nil | unknown | unsupported => exact List.forall_mem_nil _
  | taken _ _ _ ih | take _ _ _ _ ih | followed _ _ _ ih => exact ih
  | stop hfind _ _ ih => exact Calls.forall_walked_through.2 ⟨hfind, ih, List.forall_mem_nil _⟩
  | follow hfind _ _ _ ihinner ihlater =>
      exact Calls.forall_walked_through.2 ⟨hfind, ihinner, ihlater⟩

theorem not_mem_followed (h : Runs t site names p calls out) :
    ∀ w ∈ calls.walked, w.1 ∉ p.followed := by
  induction h with
  | nil | unknown | unsupported => exact List.forall_mem_nil _
  | taken _ _ _ ih | take _ _ _ _ ih | followed _ _ _ ih => exact ih
  | stop _ hfresh _ ih =>
      refine Calls.forall_walked_through.2 ⟨hfresh, ?_, List.forall_mem_nil _⟩
      exact fun w hw hold => ih w hw (List.mem_cons_of_mem _ hold)
  | follow _ hfresh hinner _ ihinner ihlater =>
      have hsubset := (walk_explores hinner.walk_eq).followed_subset
      refine Calls.forall_walked_through.2 ⟨hfresh, ?_, ?_⟩
      · exact fun w hw hold => ihinner w hw (List.mem_cons_of_mem _ hold)
      · exact fun w hw hold => ihlater w hw (hsubset (List.mem_cons_of_mem _ hold))

/-- The aliases that are gone through are followed afterwards, so that later calls do not go through
them. -/
theorem mem_followed (h : Runs t site names p calls out) {q : Progress H} (hout : out = .ok q) :
    ∀ w ∈ calls.walked, w.1 ∈ q.followed := by
  induction h generalizing q with
  | nil => exact List.forall_mem_nil _
  | unknown | unsupported | stop => cases hout
  | taken _ _ _ ih | take _ _ _ _ ih | followed _ _ _ ih => exact ih hout
  | follow _ _ hinner hlater ihinner ihlater =>
      have hinside := (walk_explores hinner.walk_eq).followed_subset
      have hafter := (walk_explores (hlater.walk_eq.trans hout)).followed_subset
      refine Calls.forall_walked_through.2 ⟨hafter (hinside List.mem_cons_self), ?_, ihlater hout⟩
      exact fun w hw => hafter (ihinner rfl w hw)

theorem pairwise_walked (h : Runs t site names p calls out) :
    calls.walked.Pairwise fun w w' => w.1 ≠ w'.1 := by
  induction h with
  | nil | unknown | unsupported => exact .nil
  | taken _ _ _ ih | take _ _ _ _ ih | followed _ _ _ ih => exact ih
  | stop _ _ hinner ih =>
      rw [Calls.walked, Calls.walked, List.append_nil, List.pairwise_cons]
      exact ⟨fun w hw heq => hinner.not_mem_followed w hw (heq ▸ List.mem_cons_self), ih⟩
  | follow _ _ hinner hlater ihinner ihlater =>
      have hsubset := (walk_explores hinner.walk_eq).followed_subset
      rw [Calls.walked, List.pairwise_cons, List.forall_mem_append, List.pairwise_append]
      refine ⟨⟨?_, ?_⟩, ihinner, ihlater, ?_⟩
      · exact fun w hw heq => hinner.not_mem_followed w hw (heq ▸ List.mem_cons_self)
      · exact fun w hw heq => hlater.not_mem_followed w hw (hsubset (heq ▸ List.mem_cons_self))
      · exact fun w hw w' hw' heq =>
          hlater.not_mem_followed w' hw' (heq ▸ hinner.mem_followed rfl w hw)

theorem nodup_walked (h : Runs t site names p calls out) : (calls.walked.map Prod.fst).Nodup :=
  List.pairwise_map.2 h.pairwise_walked

/-- Each call is for one of the names given or for one of the names of an alias that is gone
through. -/
theorem count_le (h : Runs t site names p calls out) :
    calls.count ≤ names.length + (calls.walked.map fun w => (w.2.targets site).length).sum := by
  induction h with
  | nil | unknown | unsupported => simp [Calls.count, Calls.walked]
  | taken _ _ _ ih | take _ _ _ _ ih | followed _ _ _ ih =>
      simp only [Calls.count, Calls.walked, List.length_cons]
      omega
  | stop _ _ _ ih =>
      simp only [Calls.count, Calls.walked, List.append_nil, List.length_cons, List.map_cons,
        List.sum_cons]
      omega
  | follow _ _ _ _ ihinner ihlater =>
      simp only [Calls.count, Calls.walked, List.length_cons, List.map_cons, List.map_append,
        List.sum_cons, List.sum_append]
      omega

end Runs

/-- The calls come to an end, from any progress, by induction along the walk. -/
theorem exists_runs (names : List String) (p : Progress H) :
    ∃ calls out, Runs t site names p calls out := by
  induction names, p using walk_induction t site with
  | nil p => exact ⟨_, _, .nil p⟩
  | unknown name pending p hfind => exact ⟨_, _, .unknown hfind⟩
  | taken name pending p b hfind hhas ih =>
      obtain ⟨later, out, hlater⟩ := ih
      exact ⟨_, _, .taken hfind hhas hlater⟩
  | unsupported name pending p b hfind hhas hnone =>
      exact ⟨_, _, .unsupported hfind hhas hnone⟩
  | take name pending p b g hfind hhas hsome ih =>
      obtain ⟨later, out, hlater⟩ := ih
      exact ⟨_, _, .take hfind hhas hsome hlater⟩
  | followed name pending p a hfind hfollowed ih =>
      obtain ⟨later, out, hlater⟩ := ih
      exact ⟨_, _, .followed hfind hfollowed hlater⟩
  | follow name pending p a hfind hfresh ihtargets ihpending =>
      obtain ⟨inner, out, hinner⟩ := ihtargets
      cases out with
      | error failure => exact ⟨_, _, .stop hfind hfresh hinner⟩
      | ok q =>
          obtain ⟨later, out, hlater⟩ := ihpending q hinner.walk_eq
          exact ⟨_, _, .follow hfind hfresh hinner hlater⟩

def aliases (t : Catalog H) : List (String × Alias) :=
  t.entries.filterMap fun
    | (name, .ofAlias a) => some (name, a)
    | (_, .ofBundle _) => none

theorem mem_aliases_iff {w : String × Alias} :
    w ∈ aliases t ↔ t.find? w.1 = some (.ofAlias w.2) := by
  rw [NameTable.find?_eq_some_iff, aliases, List.mem_filterMap]
  constructor
  · rintro ⟨⟨name, e⟩, hmem, hw⟩
    cases e with
    | ofBundle b => cases hw
    | ofAlias a =>
        obtain rfl := Option.some.inj hw
        exact hmem
  · intro h
    exact ⟨_, h, rfl⟩

theorem Runs.subperm_aliases (h : Runs t site names p calls out) :
    calls.walked.Subperm (aliases t) := by
  apply List.subperm_of_subset (List.Nodup.of_map Prod.fst h.nodup_walked)
  intro w hw
  exact mem_aliases_iff.2 (h.registered w hw)

/-- An expansion comes to an end as calls within calls. At most one call more is nested than there
are aliases, no alias is gone through twice, and besides the first call there are at most as many as
the aliases have names at the site. -/
theorem expand_bounded (t : Catalog H) (site : Site) (name : String) :
    (∃ calls out, Runs t site [name] {} calls out) ∧
      ∀ calls out, Runs t site [name] {} calls out →
        expand t site name = out.map Progress.found ∧
          calls.depth ≤ (aliases t).length + 1 ∧
          (calls.walked.map Prod.fst).Nodup ∧ calls.walked ⊆ aliases t ∧
          calls.count ≤ 1 + ((aliases t).map fun w => (w.2.targets site).length).sum := by
  refine ⟨exists_runs [name] {}, ?_⟩
  intro calls out h
  have hsubperm := h.subperm_aliases
  refine ⟨?_, ?_, h.nodup_walked, hsubperm.subset, ?_⟩
  · rw [expand, h.walk_eq]
  · calc calls.depth ≤ calls.walked.length + 1 := calls.depth_le
      _ ≤ (aliases t).length + 1 := Nat.add_le_add_right hsubperm.length_le 1
  · have hsum : (calls.walked.map fun w => (w.2.targets site).length).sum ≤
        ((aliases t).map fun w => (w.2.targets site).length).sum := by
      obtain ⟨part, hperm, hsublist⟩ := hsubperm
      rw [← (hperm.map _).sum_eq]
      exact (hsublist.map _).sum_le_sum fun _ _ => Nat.zero_le _
    calc calls.count ≤ 1 + (calls.walked.map fun w => (w.2.targets site).length).sum := h.count_le
      _ ≤ 1 + ((aliases t).map fun w => (w.2.targets site).length).sum :=
        Nat.add_le_add_left hsum 1

end Expansion

end CodegenRegistry
