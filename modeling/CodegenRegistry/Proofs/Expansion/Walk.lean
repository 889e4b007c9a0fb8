import CodegenRegistry.Expansion
import Mathlib.Logic.Relation
/-!
# What a walk explores

A walk starts from any progress and ends, if it succeeds, in a larger one. What it adds is what can
be reached from its names without passing through aliases that were followed before, no less and
no more.
-/

namespace CodegenRegistry

namespace Expansion

variable {H : Host} {t : Catalog H} {site : Site}

/-! ## Reachability -/

def Leads (t : Catalog H) (site : Site) (name target : String) : Prop :=
  ∃ a, t.find? name = some (.ofAlias a) ∧ target ∈ a.targets site

def Reaches (t : Catalog H) (site : Site) : String → String → Prop :=
  Relation.ReflTransGen (Leads t site)

theorem not_reaches_of_not_leads {name target : String}
    (h : ∀ other, ¬ Leads t site other target) (hne : name ≠ target) :
    ¬ Reaches t site name target := by
  intro hreaches
  rcases hreaches.cases_tail with heq | ⟨other, -, hleads⟩
  · exact hne heq.symm
  · exact h other hleads

def ReachesOutside (t : Catalog H) (site : Site) (avoided : List String) :
    String → String → Prop :=
  Relation.ReflTransGen fun name target => name ∉ avoided ∧ Leads t site name target

theorem reachesOutside_nil {name target : String} :
    ReachesOutside t site [] name target ↔ Reaches t site name target := by
  simp [ReachesOutside, Reaches]

theorem ReachesOutside.mono {avoided larger : List String} {name target : String}
    (hsubset : avoided ⊆ larger) (h : ReachesOutside t site larger name target) :
    ReachesOutside t site avoided name target := by
  refine Relation.ReflTransGen.mono ?_ _ _ h
  intro x y hstep
  exact ⟨fun hx => hstep.1 (hsubset hx), hstep.2⟩

/-! ## Progress -/

namespace Progress

/-- A name is settled if its generator has been taken or it has been followed as an alias. -/
def Settled (p : Progress H) (name : String) : Prop :=
  name ∈ p.followed ∨ name ∈ p.found.map Resolved.name

/-- Followed aliases outside a list lead to settled names only. -/
def ClosedOutside (t : Catalog H) (site : Site) (avoided : List String) (p : Progress H) : Prop :=
  ∀ name ∈ p.followed, name ∉ avoided → ∀ target, Leads t site name target → p.Settled target

theorem has_iff {p : Progress H} {name : String} :
    p.has name ↔ name ∈ p.found.map Resolved.name := by
  simp [has]

theorem Settled.mono {p q : Progress H} {name : String} (hfound : p.found <+: q.found)
    (hfollowed : p.followed ⊆ q.followed) (h : p.Settled name) : q.Settled name := by
  rcases h with hname | hname
  · exact .inl (hfollowed hname)
  · exact .inr ((hfound.map Resolved.name).subset hname)

theorem ClosedOutside.take {p : Progress H} {avoided : List String}
    (hp : p.ClosedOutside t site avoided) (r : Resolved H) :
    ClosedOutside t site avoided { p with found := p.found ++ [r] } := by
  intro n hn hnew target hleads
  have hsettled : p.Settled target := hp n hn hnew target hleads
  exact Settled.mono (p := p) (List.prefix_append _ _) (List.Subset.refl _) hsettled

/-- The alias that is followed may lead anywhere, so from now on it is among those avoided. -/
theorem ClosedOutside.follow {p : Progress H} {avoided : List String}
    (hp : p.ClosedOutside t site avoided) (name : String) :
    ClosedOutside t site (avoided ++ [name]) { p with followed := name :: p.followed } := by
  intro n hn hnew target hleads
  have hne : n ≠ name := fun heq => hnew (by simp [heq])
  have hold : n ∈ p.followed := (List.mem_cons.1 hn).resolve_left hne
  have hfresh : n ∉ avoided := fun h => hnew (List.mem_append_left _ h)
  have hsettled : p.Settled target := hp n hold hfresh target hleads
  exact Settled.mono (p := p) List.prefix_rfl (List.subset_cons_self _ _) hsettled

/-- Each generator was taken once and from the bundle of its name, and only aliases were
followed. -/
structure Valid (t : Catalog H) (site : Site) (p : Progress H) : Prop where
  distinct : (p.found.map Resolved.name).Nodup
  carried : ∀ r ∈ p.found, ∃ b, t.find? r.name = some (.ofBundle b) ∧
    b.generators site = some r.generator
  aliases : ∀ name ∈ p.followed, ∃ a, t.find? name = some (.ofAlias a)

theorem valid_empty (t : Catalog H) (site : Site) : Valid t site {} where
  distinct := .nil
  carried := by simp
  aliases := by simp

theorem Valid.take {p : Progress H} {name : String} {b : Bundle H} {g : Generator H}
    (hp : p.Valid t site) (hbundle : t.find? name = some (.ofBundle b))
    (hgenerator : b.generators site = some g) (hfresh : ¬ p.has name) :
    Valid t site { p with found := p.found ++ [⟨name, g⟩] } where
  distinct := by
    rw [has_iff] at hfresh
    rw [List.map_append, List.nodup_append]
    refine ⟨hp.distinct, by simp, ?_⟩
    intro x hx y hy hxy
    obtain rfl : y = name := by simpa using hy
    exact hfresh (hxy ▸ hx)
  carried := by
    intro r hr
    rcases List.mem_append.1 hr with hr | hr
    · exact hp.carried r hr
    · obtain rfl := List.mem_singleton.1 hr
      exact ⟨b, hbundle, hgenerator⟩
  aliases := hp.aliases

theorem Valid.follow {p : Progress H} {name : String} {a : Alias} (hp : p.Valid t site)
    (halias : t.find? name = some (.ofAlias a)) :
    Valid t site { p with followed := name :: p.followed } where
  distinct := hp.distinct
  carried := hp.carried
  aliases := by
    intro x hx
    rcases List.mem_cons.1 hx with rfl | hx
    · exact ⟨a, halias⟩
    · exact hp.aliases x hx

theorem Valid.settled_iff {p : Progress H} {name : String} (hp : p.Valid t site) :
    p.Settled name ↔
      (∃ a, t.find? name = some (.ofAlias a) ∧ name ∈ p.followed) ∨
        ∃ b g, t.find? name = some (.ofBundle b) ∧ b.generators site = some g ∧
          ⟨name, g⟩ ∈ p.found := by
  constructor
  · intro h
    rcases h with hname | hname
    · obtain ⟨a, ha⟩ := hp.aliases name hname
      exact .inl ⟨a, ha, hname⟩
    · obtain ⟨r, hr, rfl⟩ := List.mem_map.1 hname
      obtain ⟨b, hb, hsome⟩ := hp.carried r hr
      exact .inr ⟨b, r.generator, hb, hsome, hr⟩
  · intro h
    rcases h with ⟨a, -, hname⟩ | ⟨b, g, -, -, hmem⟩
    · exact .inl hname
    · exact .inr (List.mem_map_of_mem hmem)

theorem Valid.mem_followed {p : Progress H} {name : String} {a : Alias} (hp : p.Valid t site)
    (halias : t.find? name = some (.ofAlias a)) (h : p.Settled name) : name ∈ p.followed := by
  rcases hp.settled_iff.1 h with ⟨-, -, hname⟩ | ⟨b, g, hb, -⟩
  · exact hname
  · simp [halias] at hb

end Progress

theorem walk_valid {names : List String} {p q : Progress H} (hp : p.Valid t site)
    (h : walk t site names p = .ok q) : q.Valid t site := by
  fun_induction walk t site names p with
  | case1 p =>
      obtain rfl := Except.ok.inj h
      exact hp
  | case2 name pending p hfind => cases h
  | case3 name pending p b hfind hhas ih => exact ih hp h
  | case4 name pending p b hfind hhas hnone => cases h
  | case5 name pending p b hfind hhas g hsome ih => exact ih (hp.take hfind hsome hhas) h
  | case6 name pending p a hfind hfollowed ih => exact ih hp h
  | case7 name pending p a hfind hfollowed ih => exact ih (hp.follow hfind) h

/-! ## Exploration -/

structure Explores (t : Catalog H) (site : Site) (names : List String) (p q : Progress H) :
    Prop where
  kept : p.found <+: q.found
  followed_subset : p.followed ⊆ q.followed
  settled : ∀ name ∈ names, q.Settled name
  closed : q.ClosedOutside t site p.followed
  found_reached : ∀ r ∈ q.found, r ∈ p.found ∨
    ∃ name ∈ names, ReachesOutside t site p.followed name r.name
  followed_reached : ∀ x ∈ q.followed, x ∈ p.followed ∨
    ∃ name ∈ names, ReachesOutside t site p.followed name x

namespace Explores

variable {name : String} {pending : List String} {p q : Progress H}

theorem nil : Explores t site [] p p where
  kept := List.prefix_rfl
  followed_subset := List.Subset.refl _
  settled := by simp
  closed := fun _ hname hfresh => absurd hname hfresh
  found_reached := fun _ hr => .inl hr
  followed_reached := fun _ hx => .inl hx

private theorem weaken {x : String} {avoided : List String}
    (h : ∃ n ∈ pending, ReachesOutside t site avoided n x) :
    ∃ n ∈ name :: pending, ReachesOutside t site avoided n x := by
  obtain ⟨n, hn, hx⟩ := h
  exact ⟨n, List.mem_cons_of_mem _ hn, hx⟩

theorem skip (hname : p.Settled name) (h : Explores t site pending p q) :
    Explores t site (name :: pending) p q where
  kept := h.kept
  followed_subset := h.followed_subset
  settled := List.forall_mem_cons.2 ⟨hname.mono h.kept h.followed_subset, h.settled⟩
  closed := h.closed
  found_reached := fun r hr => (h.found_reached r hr).imp_right weaken
  followed_reached := fun x hx => (h.followed_reached x hx).imp_right weaken

theorem take {g : Generator H}
    (h : Explores t site pending { p with found := p.found ++ [⟨name, g⟩] } q) :
    Explores t site (name :: pending) p q where
  kept := (List.prefix_append _ _).trans h.kept
  followed_subset := h.followed_subset
  settled := by
    refine List.forall_mem_cons.2 ⟨?_, h.settled⟩
    refine Progress.Settled.mono h.kept h.followed_subset (.inr ?_)
    simp
  closed := h.closed
  found_reached := by
    intro r hr
    rcases h.found_reached r hr with hold | hreached
    · rcases List.mem_append.1 hold with hold | hnew
      · exact .inl hold
      · obtain rfl := List.mem_singleton.1 hnew
        exact .inr ⟨name, List.mem_cons_self, .refl⟩
    · exact .inr (weaken hreached)
  followed_reached := fun x hx => (h.followed_reached x hx).imp_right weaken

private theorem through {a : Alias} {x : String} (halias : t.find? name = some (.ofAlias a))
    (hfresh : name ∉ p.followed)
    (h : ∃ n ∈ a.targets site ++ pending, ReachesOutside t site (name :: p.followed) n x) :
    ∃ n ∈ name :: pending, ReachesOutside t site p.followed n x := by
  obtain ⟨n, hn, hx⟩ := h
  have hx' : ReachesOutside t site p.followed n x := hx.mono (List.subset_cons_self _ _)
  rcases List.mem_append.1 hn with htarget | hpending
  · have hstep : name ∉ p.followed ∧ Leads t site name n := ⟨hfresh, a, halias, htarget⟩
    exact ⟨name, List.mem_cons_self, .head hstep hx'⟩
  · exact ⟨n, List.mem_cons_of_mem _ hpending, hx'⟩

theorem follow {a : Alias} (halias : t.find? name = some (.ofAlias a))
    (hfresh : name ∉ p.followed)
    (h : Explores t site (a.targets site ++ pending)
      { p with followed := name :: p.followed } q) :
    Explores t site (name :: pending) p q where
  kept := h.kept
  followed_subset := List.Subset.trans (List.subset_cons_self _ _) h.followed_subset
  settled := by
    refine List.forall_mem_cons.2 ⟨.inl (h.followed_subset List.mem_cons_self), ?_⟩
    intro n hn
    exact h.settled n (List.mem_append_right _ hn)
  closed := by
    intro n hn hnew target hleads
    by_cases hname : n = name
    · obtain ⟨a', halias', htarget⟩ := hleads
      obtain rfl : a = a' := by simpa [hname, halias] using halias'
      exact h.settled target (List.mem_append_left _ htarget)
    · exact h.closed n hn (by simp [hname, hnew]) target hleads
  found_reached := fun r hr => (h.found_reached r hr).imp_right (through halias hfresh)
  followed_reached := by
    intro x hx
    rcases h.followed_reached x hx with hold | hreached
    · rcases List.mem_cons.1 hold with rfl | hold
      · exact .inr ⟨x, List.mem_cons_self, .refl⟩
      · exact .inl hold
    · exact .inr (through halias hfresh hreached)

theorem closedOutside {avoided : List String} (h : Explores t site pending p q)
    (hp : p.ClosedOutside t site avoided) : q.ClosedOutside t site avoided := by
  intro n hn hnew target hleads
  by_cases hold : n ∈ p.followed
  · exact (hp n hold hnew target hleads).mono h.kept h.followed_subset
  · exact h.closed n hn hold target hleads

/-- Nothing is missed: what is reached along aliases that were not followed before is settled
afterwards. -/
theorem settled_of_reaches (h : Explores t site pending p q) (hq : q.Valid t site) {x : String}
    (hname : name ∈ pending) (hx : ReachesOutside t site p.followed name x) : q.Settled x := by
  induction hx with
  | refl => exact h.settled name hname
  | tail _ hstep ih =>
      obtain ⟨hfresh, hleads⟩ := hstep
      have hfollowed := hq.mem_followed hleads.choose_spec.1 ih
      exact h.closed _ hfollowed hfresh _ hleads

end Explores

theorem walk_explores {names : List String} {p q : Progress H}
    (h : walk t site names p = .ok q) : Explores t site names p q := by
  fun_induction walk t site names p with
  | case1 p =>
      obtain rfl := Except.ok.inj h
      exact .nil
  | case2 name pending p hfind => cases h
  | case3 name pending p b hfind hhas ih =>
      exact .skip (.inr (Progress.has_iff.1 hhas)) (ih h)
  | case4 name pending p b hfind hhas hnone => cases h
  | case5 name pending p b hfind hhas g hsome ih => exact .take (ih h)
  | case6 name pending p a hfind hfollowed ih => exact .skip (.inl hfollowed) (ih h)
  | case7 name pending p a hfind hfollowed ih => exact .follow hfind hfollowed (ih h)

/-! ## Induction -/

theorem outstanding_le_of_subset (site : Site) {followed larger : List String}
    (hsubset : followed ⊆ larger) (entries : List (String × Entry H)) :
    outstanding site larger entries ≤ outstanding site followed entries := by
  induction entries with
  | nil => exact Nat.le_refl _
  | cons hd rest ih =>
      rw [outstanding, outstanding]
      by_cases hf : hd.1 ∈ followed
      · rw [if_pos hf, if_pos (hsubset hf)]
        omega
      · rw [if_neg hf]
        split <;> omega

/-- Induction along a walk that treats the targets of an alias as a walk of their own, after which
the pending names are walked. -/
@[elab_as_elim]
theorem walk_induction (t : Catalog H) (site : Site) {motive : List String → Progress H → Prop}
    (nil : ∀ p, motive [] p)
    (unknown : ∀ name pending p, t.find? name = none → motive (name :: pending) p)
    (taken : ∀ name pending p b, t.find? name = some (.ofBundle b) → p.has name →
      motive pending p → motive (name :: pending) p)
    (unsupported : ∀ name pending p b, t.find? name = some (.ofBundle b) → ¬ p.has name →
      b.generators site = none → motive (name :: pending) p)
    (take : ∀ name pending p b g, t.find? name = some (.ofBundle b) → ¬ p.has name →
      b.generators site = some g → motive pending { p with found := p.found ++ [⟨name, g⟩] } →
      motive (name :: pending) p)
    (followed : ∀ name pending p a, t.find? name = some (.ofAlias a) → name ∈ p.followed →
      motive pending p → motive (name :: pending) p)
    (follow : ∀ name pending p a, t.find? name = some (.ofAlias a) → name ∉ p.followed →
      motive (a.targets site) { p with followed := name :: p.followed } →
      (∀ q, walk t site (a.targets site) { p with followed := name :: p.followed } = .ok q →
        motive pending q) →
      motive (name :: pending) p)
    (names : List String) (p : Progress H) : motive names p := by
  generalize hn : outstanding site p.followed t.entries + names.length = n
  induction n using Nat.strongRecOn generalizing names p with
  | ind n ih =>
      cases names with
      | nil => exact nil p
      | cons name pending =>
          rw [List.length_cons] at hn
          cases hfind : t.find? name with
          | none => exact unknown name pending p hfind
          | some e =>
              cases e with
              | ofBundle b =>
                  by_cases hhas : p.has name
                  · exact taken name pending p b hfind hhas (ih _ (by omega) pending p rfl)
                  · cases hgenerator : b.generators site with
                    | none => exact unsupported name pending p b hfind hhas hgenerator
                    | some g =>
                        exact take name pending p b g hfind hhas hgenerator
                          (ih _ (by simp only; omega) pending _ rfl)
              | ofAlias a =>
                  by_cases hf : name ∈ p.followed
                  · exact followed name pending p a hfind hf (ih _ (by omega) pending p rfl)
                  · have hwidth : outstanding site (name :: p.followed) t.entries +
                        (a.targets site).length ≤ outstanding site p.followed t.entries :=
                      outstanding_follow hfind hf
                    refine follow name pending p a hfind hf (ih _ ?_ _ _ rfl) ?_
                    · simp only
                      omega
                    · intro q hq
                      have hsubset := (walk_explores hq).followed_subset
                      have hle := outstanding_le_of_subset site hsubset t.entries
                      refine ih _ ?_ pending q rfl
                      simp only at hle
                      omega

/-! ## Failure -/

def Failure.name : Failure → String
  | unknown name => name
  | unsupported name => name

/-- Nothing is registered under an unknown name; an unsupported one is that of a bundle without a
generator for the site. -/
def Failure.Justified (t : Catalog H) (site : Site) : Failure → Prop
  | unknown name => t.find? name = none
  | unsupported name => ∃ b, t.find? name = some (.ofBundle b) ∧ b.generators site = none

theorem walk_fails {names : List String} {p : Progress H} {failure : Failure}
    (h : walk t site names p = .error failure) :
    failure.Justified t site ∧
      ∃ name ∈ names, ReachesOutside t site p.followed name failure.name := by
  fun_induction walk t site names p with
  | case1 p => cases h
  | case2 name pending p hfind =>
      obtain rfl := Except.error.inj h
      exact ⟨hfind, name, List.mem_cons_self, .refl⟩
  | case3 name pending p b hfind hhas ih => exact (ih h).imp_right Explores.weaken
  | case4 name pending p b hfind hhas hnone =>
      obtain rfl := Except.error.inj h
      exact ⟨⟨b, hfind, hnone⟩, name, List.mem_cons_self, .refl⟩
  | case5 name pending p b hfind hhas g hsome ih => exact (ih h).imp_right Explores.weaken
  | case6 name pending p a hfind hfollowed ih => exact (ih h).imp_right Explores.weaken
  | case7 name pending p a hfind hfollowed ih =>
      exact (ih h).imp_right (Explores.through hfind hfollowed)

end Expansion

end CodegenRegistry
