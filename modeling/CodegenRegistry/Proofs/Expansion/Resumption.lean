import CodegenRegistry.Proofs.Expansion.Reachability
import CodegenRegistry.Proofs.Expansion.Recurrence
import Mathlib
/-!
# Going on from any progress

While the names of an alias are walked, the ones before have taken generators and followed aliases
already. Main statement: what is added from there is what is reached along paths of aliases that
were not followed before, and such a path leads to whatever is at fault.
-/

namespace CodegenRegistry

namespace Expansion

variable {H : Host} {t : Catalog H} {site : Site} {followed : List String} {name x : String}

/-- A name that an expansion may go through: no alias, or one that was not followed before. -/
def Fresh (t : Catalog H) (followed : List String) (name : String) : Prop :=
  ∀ a, t.find? name = some (.ofAlias a) → name ∉ followed

/-- Reachability along a path on which no alias was followed before, neither at its start nor at its
end nor between. -/
def ReachesAnew (t : Catalog H) (site : Site) (followed : List String) (name x : String) : Prop :=
  Fresh t followed name ∧
    Relation.ReflTransGen (fun y z => Leads t site y z ∧ Fresh t followed z) name x

theorem fresh_of_bundle {b : Bundle H} (h : t.find? name = some (.ofBundle b)) :
    Fresh t followed name := by
  intro a halias
  exact absurd (h.symm.trans halias) nofun

theorem fresh_of_justified {failure : Failure} (h : failure.Justified t site) :
    Fresh t followed failure.name := by
  cases failure with
  | unknown x => exact fun a halias => absurd (h.symm.trans halias) nofun
  | unsupported x =>
      obtain ⟨b, hbundle, -⟩ := h
      exact fresh_of_bundle hbundle

/-- Only the aliases that a path goes through matter to a walk, so its end has to be asked for. -/
theorem reachesAnew_iff :
    ReachesAnew t site followed name x ↔
      ReachesOutside t site followed name x ∧ Fresh t followed x := by
  constructor
  · intro h
    obtain ⟨hname, hpath⟩ := h
    induction hpath with
    | refl => exact ⟨.refl, hname⟩
    | @tail y z _ hstep ih =>
        obtain ⟨hleads, hz⟩ := hstep
        obtain ⟨a, halias⟩ : ∃ a, t.find? y = some (.ofAlias a) := hleads.imp fun _ h => h.1
        exact ⟨.tail ih.1 ⟨ih.2 a halias, hleads⟩, hz⟩
  · intro h
    obtain ⟨hpath, hx⟩ := h
    induction hpath with
    | refl => exact ⟨hx, .refl⟩
    | tail _ hstep ih =>
        obtain ⟨hfresh, hleads⟩ := hstep
        obtain ⟨hname, hpath⟩ := ih fun _ _ => hfresh
        exact ⟨hname, .tail hpath ⟨hleads, hx⟩⟩

variable {p q : Progress H}

theorem walk_fails_anew {failure : Failure} (h : walk t site [name] p = .error failure) :
    failure.Justified t site ∧ ReachesAnew t site p.followed name failure.name := by
  obtain ⟨hjustified, n, hn, hreached⟩ := walk_fails h
  obtain rfl := List.mem_singleton.1 hn
  exact ⟨hjustified, reachesAnew_iff.2 ⟨hreached, fresh_of_justified hjustified⟩⟩

theorem settled_of_reachesAnew (hp : p.Valid t site) (h : walk t site [name] p = .ok q)
    (hx : ReachesAnew t site p.followed name x) : q.Settled x :=
  (walk_explores h).settled_of_reaches (walk_valid hp h) List.mem_cons_self
    (reachesAnew_iff.1 hx).1

theorem walk_succeeds_iff (hp : p.Valid t site) :
    (∃ q, walk t site [name] p = .ok q) ↔
      ∀ x, ReachesAnew t site p.followed name x → Usable t site x := by
  constructor
  · intro h x hx
    obtain ⟨q, hq⟩ := h
    exact usable_of_settled (walk_valid hp hq) (settled_of_reachesAnew hp hq hx)
  · intro h
    cases hwalk : walk t site [name] p with
    | ok q => exact ⟨q, rfl⟩
    | error failure =>
        obtain ⟨hjustified, hreached⟩ := walk_fails_anew hwalk
        exact absurd (h _ hreached) (not_usable_of_justified hjustified)

theorem mem_followed_iff (hp : p.Valid t site) (h : walk t site [name] p = .ok q) :
    x ∈ q.followed ↔ x ∈ p.followed ∨
      ((∃ a, t.find? x = some (.ofAlias a)) ∧ ReachesAnew t site p.followed name x) := by
  have hq := walk_valid hp h
  constructor
  · intro hx
    by_cases hold : x ∈ p.followed
    · exact .inl hold
    · obtain ⟨n, hn, hreached⟩ := ((walk_explores h).followed_reached x hx).resolve_left hold
      obtain rfl := List.mem_singleton.1 hn
      exact .inr ⟨hq.aliases x hx, reachesAnew_iff.2 ⟨hreached, fun _ _ => hold⟩⟩
  · intro hx
    rcases hx with hold | ⟨⟨a, halias⟩, hreached⟩
    · exact (walk_explores h).followed_subset hold
    · exact hq.mem_followed halias (settled_of_reachesAnew hp h hreached)

theorem mem_found_walk_iff (hp : p.Valid t site) (h : walk t site [name] p = .ok q) :
    x ∈ q.found.map Resolved.name ↔ x ∈ p.found.map Resolved.name ∨
      ((∃ b, t.find? x = some (.ofBundle b)) ∧ ReachesAnew t site p.followed name x) := by
  have hq := walk_valid hp h
  constructor
  · intro hx
    obtain ⟨r, hr, rfl⟩ := List.mem_map.1 hx
    rcases (walk_explores h).found_reached r hr with hold | ⟨n, hn, hreached⟩
    · exact .inl (List.mem_map_of_mem hold)
    · obtain rfl := List.mem_singleton.1 hn
      obtain ⟨b, hbundle, -⟩ := hq.carried r hr
      exact .inr ⟨⟨b, hbundle⟩, reachesAnew_iff.2 ⟨hreached, fresh_of_bundle hbundle⟩⟩
  · intro hx
    rcases hx with hold | ⟨⟨b, hbundle⟩, hreached⟩
    · exact ((walk_explores h).kept.map Resolved.name).subset hold
    · have hsettled := settled_of_reachesAnew hp h hreached
      rcases hq.settled_iff.1 hsettled with ⟨a, halias, -⟩ | ⟨_, g, -, -, hmem⟩
      · exact absurd (hbundle.symm.trans halias) nofun
      · exact List.mem_map_of_mem hmem

/-- An expansion that goes on from any progress succeeds if all that is reached anew can be used. It
keeps what was taken and followed, and adds the bundles and the aliases that are reached anew, no
less and no more. If it fails, what is at fault is reached anew. -/
theorem walk_adds_reached (hp : p.Valid t site) :
    ((∃ q, walk t site [name] p = .ok q) ↔
        ∀ x, ReachesAnew t site p.followed name x → Usable t site x) ∧
      (∀ q, walk t site [name] p = .ok q →
        p.found <+: q.found ∧ p.followed ⊆ q.followed ∧ q.Valid t site ∧
          ∀ x, (x ∈ q.found.map Resolved.name ↔ x ∈ p.found.map Resolved.name ∨
              ((∃ b, t.find? x = some (.ofBundle b)) ∧ ReachesAnew t site p.followed name x)) ∧
            (x ∈ q.followed ↔ x ∈ p.followed ∨
              ((∃ a, t.find? x = some (.ofAlias a)) ∧ ReachesAnew t site p.followed name x))) ∧
      ∀ failure, walk t site [name] p = .error failure →
        failure.Justified t site ∧ ReachesAnew t site p.followed name failure.name := by
  refine ⟨walk_succeeds_iff hp, ?_, fun _ => walk_fails_anew⟩
  intro q h
  have hexplores := walk_explores h
  exact ⟨hexplores.kept, hexplores.followed_subset, walk_valid hp h,
    fun x => ⟨mem_found_walk_iff hp h, mem_followed_iff hp h⟩⟩

/-- In the middle of a cycle: "b" has been followed, so "all" adds "x" through "a" alone. -/
theorem woven_walk_adds_reached :
    let x : Resolved Host.text := ⟨"x", .ofItems fun _ _ => ["1"]⟩
    let y : Resolved Host.text := ⟨"y", .ofItems fun _ _ => ["2"]⟩
    let p : Progress Host.text := ⟨[y], ["b"]⟩
    p.Valid Registry.woven.catalog .structureType ∧
      walk Registry.woven.catalog .structureType ["all"] p = .ok ⟨[y, x], ["a", "all", "b"]⟩ ∧
      ReachesAnew Registry.woven.catalog .structureType ["b"] "all" "x" ∧
      walk Registry.woven.catalog .structureType ["some"] p = .error (.unknown "z") ∧
      ReachesAnew Registry.woven.catalog .structureType ["b"] "some" "z" := by
  intro x y p
  have hp : p.Valid Registry.woven.catalog .structureType := by
    refine ⟨by decide, ?_, ?_⟩
    · intro r hr
      obtain rfl := List.mem_singleton.1 hr
      exact ⟨_, rfl, rfl⟩
    · intro name hname
      obtain rfl := List.mem_singleton.1 hname
      exact ⟨_, rfl⟩
  have hall : walk Registry.woven.catalog .structureType ["all"] p =
      .ok ⟨[y, x], ["a", "all", "b"]⟩ := by cbv
  have hsome : walk Registry.woven.catalog .structureType ["some"] p =
      .error (.unknown "z") := by cbv
  obtain ⟨-, hadds, -⟩ := @walk_adds_reached _ _ _ "all" _ hp
  obtain ⟨-, -, hfails⟩ := @walk_adds_reached _ _ _ "some" _ hp
  have hx := ((hadds _ hall).2.2.2 "x").1.1 (by decide)
  exact ⟨hp, hall, (hx.resolve_left (by decide)).2, hsome, (hfails _ hsome).2⟩

end Expansion

end CodegenRegistry
