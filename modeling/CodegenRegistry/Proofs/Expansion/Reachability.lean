import CodegenRegistry.Proofs.Expansion.Walk
import CodegenRegistry.Resolution
/-!
# Resolution is reachability

A name resolves exactly when everything that can be reached from it is registered and has a
generator where it needs one. It then stands for the bundles among what can be reached.
-/

namespace CodegenRegistry

namespace Expansion

variable {H : Host} {t : Catalog H} {site : Site} {name : String}

def Usable (t : Catalog H) (site : Site) (name : String) : Prop :=
  ∃ e, t.find? name = some e ∧ ∀ b, e = .ofBundle b → ∃ g, b.generators site = some g

theorem not_usable_of_justified {failure : Failure} (h : failure.Justified t site) :
    ¬ Usable t site failure.name := by
  intro husable
  obtain ⟨e, hfind, hbundle⟩ := husable
  cases failure with
  | unknown x =>
      have hnone : t.find? x = none := h
      simp [Failure.name, hnone] at hfind
  | unsupported x =>
      obtain ⟨b, hb, hnone⟩ := h
      obtain ⟨g, hsome⟩ := hbundle b (by simpa [Failure.name, hb] using hfind.symm)
      simp [hnone] at hsome

theorem usable_of_settled {p : Progress H} (hp : p.Valid t site) (h : p.Settled name) :
    Usable t site name := by
  rcases hp.settled_iff.1 h with ⟨a, ha, -⟩ | ⟨b, g, hb, hsome, -⟩
  · exact ⟨.ofAlias a, ha, by simp⟩
  · refine ⟨.ofBundle b, hb, ?_⟩
    intro b' hb'
    obtain rfl := Entry.ofBundle.inj hb'
    exact ⟨g, hsome⟩

theorem expand_eq_ok_iff {found : List (Resolved H)} :
    expand t site name = .ok found ↔ ∃ q, walk t site [name] {} = .ok q ∧ q.found = found := by
  unfold expand
  cases walk t site [name] {} <;> simp [Except.map]

theorem expand_eq_error_iff {failure : Failure} :
    expand t site name = .error failure ↔ walk t site [name] {} = .error failure := by
  unfold expand
  cases walk t site [name] {} <;> simp [Except.map]

theorem fails_at_reached {failure : Failure} (h : expand t site name = .error failure) :
    failure.Justified t site ∧ Reaches t site name failure.name := by
  obtain ⟨hjustified, n, hn, hreached⟩ := walk_fails (expand_eq_error_iff.1 h)
  obtain rfl := List.mem_singleton.1 hn
  exact ⟨hjustified, reachesOutside_nil.1 hreached⟩

theorem settled_of_reaches {q : Progress H} (h : walk t site [name] {} = .ok q) {x : String}
    (hx : Reaches t site name x) : q.Settled x := by
  have hq := walk_valid (Progress.valid_empty t site) h
  exact (walk_explores h).settled_of_reaches hq List.mem_cons_self (reachesOutside_nil.2 hx)

theorem mem_found_iff {found : List (Resolved H)} (h : expand t site name = .ok found)
    {x : String} :
    x ∈ found.map Resolved.name ↔
      Reaches t site name x ∧ ∃ b, t.find? x = some (.ofBundle b) := by
  obtain ⟨q, hwalk, rfl⟩ := expand_eq_ok_iff.1 h
  have hq := walk_valid (Progress.valid_empty t site) hwalk
  constructor
  · intro hx
    obtain ⟨r, hr, rfl⟩ := List.mem_map.1 hx
    obtain ⟨b, hb, -⟩ := hq.carried r hr
    refine ⟨?_, b, hb⟩
    rcases (walk_explores hwalk).found_reached r hr with hold | ⟨n, hn, hreached⟩
    · simp at hold
    · obtain rfl := List.mem_singleton.1 hn
      exact reachesOutside_nil.1 hreached
  · intro hx
    obtain ⟨hreached, b, hb⟩ := hx
    rcases hq.settled_iff.1 (settled_of_reaches hwalk hreached) with ⟨a, ha, -⟩ | ⟨_, g, -, -, hr⟩
    · simp [hb] at ha
    · exact List.mem_map_of_mem hr

theorem expand_succeeds_iff :
    (∃ found, expand t site name = .ok found) ↔
      ∀ x, Reaches t site name x → Usable t site x := by
  constructor
  · intro h x hx
    obtain ⟨found, hfound⟩ := h
    obtain ⟨q, hwalk, -⟩ := expand_eq_ok_iff.1 hfound
    exact usable_of_settled (walk_valid (Progress.valid_empty t site) hwalk)
      (settled_of_reaches hwalk hx)
  · intro h
    cases hexpand : expand t site name with
    | ok found => exact ⟨found, rfl⟩
    | error failure =>
        obtain ⟨hjustified, hreached⟩ := fails_at_reached hexpand
        exact absurd (h _ hreached) (not_usable_of_justified hjustified)

theorem expand_valid {found : List (Resolved H)} (h : expand t site name = .ok found) :
    (found.map Resolved.name).Nodup ∧ ∀ g ∈ found, ∃ b, t.find? g.name = some (.ofBundle b) ∧
      b.generators site = some g.generator := by
  obtain ⟨q, hwalk, rfl⟩ := expand_eq_ok_iff.1 h
  have hq := walk_valid (Progress.valid_empty t site) hwalk
  exact ⟨hq.distinct, hq.carried⟩

theorem expand_of_unknown (h : t.find? name = none) :
    expand t site name = .error (.unknown name) := by
  rw [expand, walk_of_unknown _ _ h]
  rfl

theorem expand_of_generator {b : Bundle H} {g : Generator H}
    (hbundle : t.find? name = some (.ofBundle b)) (hgenerator : b.generators site = some g) :
    expand t site name = .ok [⟨name, g⟩] := by
  rw [expand, walk_of_bundle _ _ hbundle, if_neg (by simp [Progress.has]), hgenerator]
  simp [Except.map]

theorem expand_of_no_generator {b : Bundle H} (hbundle : t.find? name = some (.ofBundle b))
    (hnone : b.generators site = none) : expand t site name = .error (.unsupported name) := by
  rw [expand, walk_of_bundle _ _ hbundle, if_neg (by simp [Progress.has]), hnone]
  rfl

theorem expand_of_mem {found : List (Resolved H)} (h : expand t site name = .ok found)
    {g : Resolved H} (hg : g ∈ found) : expand t site g.name = .ok [g] := by
  obtain ⟨b, hbundle, hgenerator⟩ := (expand_valid h).2 g hg
  exact expand_of_generator hbundle hgenerator

end Expansion

namespace Registry

variable {H : Host}

open Expansion

/-- A name resolves exactly when all that it reaches can be used at the site. It then stands for
the bundles that it reaches, each once and with the generator of its bundle. Otherwise the
diagnostic names something that it reaches and that cannot be used. -/
theorem resolve_eq_reached (r : Registry H) (site : Site) (name : Positioned String) :
    ((∃ found, (r.resolve site name).result = .ok found) ↔
        ∀ x, Reaches r.catalog site name.value x → Usable r.catalog site x) ∧
      (∀ found, (r.resolve site name).result = .ok found →
        (found.map Resolved.name).Nodup ∧
          (∀ x, x ∈ found.map Resolved.name ↔
            Reaches r.catalog site name.value x ∧ ∃ b, r.catalog.find? x = some (.ofBundle b)) ∧
          ∀ g ∈ found, ∃ b, r.catalog.find? g.name = some (.ofBundle b) ∧
            b.generators site = some g.generator) ∧
      ∀ e, (r.resolve site name).result = .error e →
        (∃ x hint, e = .unknownGenerator x site name.loc hint ∧
          Reaches r.catalog site name.value x ∧ r.catalog.find? x = none) ∨
        ∃ x b, e = .unsupportedSite x site name.loc ∧
          Reaches r.catalog site name.value x ∧
          r.catalog.find? x = some (.ofBundle b) ∧ b.generators site = none := by
  simp only [result_resolve_eq_ok_iff]
  refine ⟨expand_succeeds_iff, ?_, ?_⟩
  · intro found h
    obtain ⟨hdistinct, hcarried⟩ := expand_valid h
    exact ⟨hdistinct, fun x => mem_found_iff h, hcarried⟩
  · intro e h
    obtain ⟨failure, hfailure, rfl⟩ := result_resolve_eq_error_iff.1 h
    obtain ⟨hjustified, hreached⟩ := fails_at_reached hfailure
    cases failure with
    | unknown x => exact .inl ⟨x, _, rfl, hreached, hjustified⟩
    | unsupported x =>
        obtain ⟨b, hb, hnone⟩ := hjustified
        exact .inr ⟨x, b, rfl, hreached, hb, hnone⟩

end Registry

end CodegenRegistry
