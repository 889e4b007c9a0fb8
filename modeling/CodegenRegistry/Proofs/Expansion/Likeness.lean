import CodegenRegistry.Proofs.Expansion.Walk
import CodegenRegistry.Proofs.Lockstep
import CodegenRegistry.Resolution
/-!
# Expansion in catalogs that are alike

An expansion asks two things of a catalog: which names an alias stands for at the site, and whether
a bundle has a generator there. Catalogs that agree on this expand every name alike, whatever else
they hold. The second one may also hold names that the first does not; they matter only where the
first expansion fails for want of one of them.
-/

namespace CodegenRegistry

variable {H H' : Host} {G : Generator H → Generator H' → Prop} {site : Site} {new : String → Prop}

/-- Two entries that an expansion at the site treats alike. Generators may differ as far as `G`
allows. -/
inductive Entry.Alike (G : Generator H → Generator H' → Prop) (site : Site) :
    Entry H → Entry H' → Prop
  | bundle {b : Bundle H} {b' : Bundle H'}
      (hgenerators : Option.Rel G (b.generators site) (b'.generators site)) :
      Alike G site (.ofBundle b) (.ofBundle b')
  | aliased {a a' : Alias} (htargets : a.targets site = a'.targets site) :
      Alike G site (.ofAlias a) (.ofAlias a')

structure Resolved.Alike (G : Generator H → Generator H' → Prop) (r : Resolved H)
    (r' : Resolved H') : Prop where
  name : r.name = r'.name
  generator : G r.generator r'.generator

theorem Resolved.names_eq_of_alike {found : List (Resolved H)} {found' : List (Resolved H')}
    (h : List.Forall₂ (Resolved.Alike G) found found') :
    found.map Resolved.name = found'.map Resolved.name := by
  induction h with
  | nil => rfl
  | cons hhead _ ih => rw [List.map_cons, List.map_cons, hhead.name, ih]

namespace Expansion

/-- The second catalog treats every name of the first one alike. Besides it may hold names that
are `new`. -/
structure Covers (G : Generator H → Generator H' → Prop) (new : String → Prop) (site : Site)
    (t : Catalog H) (t' : Catalog H') : Prop where
  held : ∀ name e, t.find? name = some e →
    ∃ e', t'.find? name = some e' ∧ Entry.Alike G site e e'
  absent : ∀ name, t.find? name = none → ¬ new name → t'.find? name = none

structure Progress.Alike (G : Generator H → Generator H' → Prop) (p : Progress H)
    (p' : Progress H') : Prop where
  found : List.Forall₂ (Resolved.Alike G) p.found p'.found
  followed : p.followed = p'.followed

namespace Progress.Alike

variable {p : Progress H} {p' : Progress H'}

theorem has_eq (h : p.Alike G p') (name : String) : p.has name = p'.has name := by
  have hnames : p.found.map Resolved.name = p'.found.map Resolved.name :=
    Resolved.names_eq_of_alike h.found
  rw [Bool.eq_iff_iff, has_iff, has_iff, hnames]

theorem take {g : Generator H} {g' : Generator H'} (h : p.Alike G p') (hg : G g g')
    (name : String) :
    Alike G { p with found := p.found ++ [⟨name, g⟩] }
      { p' with found := p'.found ++ [⟨name, g'⟩] } where
  found := List.rel_append h.found (.cons ⟨rfl, hg⟩ .nil)
  followed := h.followed

theorem follow (h : p.Alike G p') (name : String) :
    Alike G { p with followed := name :: p.followed }
      { p' with followed := name :: p'.followed } where
  found := h.found
  followed := by rw [h.followed]

end Progress.Alike

def Failure.Wants (new : String → Prop) : Failure → Prop
  | unknown name => new name
  | unsupported _ => False

theorem Failure.not_wants (failure : Failure) : ¬ failure.Wants fun _ => False := by
  cases failure <;> exact not_false

variable {t : Catalog H} {t' : Catalog H'}

structure CoversAt (G : Generator H → Generator H' → Prop) (new : String → Prop) (site : Site)
    (t : Catalog H) (t' : Catalog H') (name : String) : Prop where
  held : ∀ e, t.find? name = some e → ∃ e', t'.find? name = some e' ∧ Entry.Alike G site e e'
  absent : t.find? name = none → ¬ new name → t'.find? name = none

theorem Covers.coversAt (h : Covers G new site t t') (name : String) :
    CoversAt G new site t t' name :=
  ⟨h.held name, h.absent name⟩

theorem CoversAt.bundle {name : String} (h : CoversAt G new site t t' name) {b : Bundle H}
    (hb : t.find? name = some (.ofBundle b)) :
    ∃ b', t'.find? name = some (.ofBundle b') ∧
      Option.Rel G (b.generators site) (b'.generators site) := by
  obtain ⟨e', he', halike⟩ := h.held _ hb
  cases halike with
  | bundle hgenerators => exact ⟨_, he', hgenerators⟩

theorem CoversAt.aliased {name : String} (h : CoversAt G new site t t' name) {a : Alias}
    (ha : t.find? name = some (.ofAlias a)) :
    ∃ a', t'.find? name = some (.ofAlias a') ∧ a.targets site = a'.targets site := by
  obtain ⟨e', he', halike⟩ := h.held _ ha
  cases halike with
  | aliased htargets => exact ⟨_, he', htargets⟩

/-- The second walk takes the same steps as the first, by induction on these. It asks for nothing
but names that can be reached in the first catalog. -/
theorem walk_follows (names : List String) {p : Progress H} {p' : Progress H'}
    (h : ∀ name ∈ names, ∀ x, Reaches t site name x → CoversAt G new site t t' x)
    (hp : p.Alike G p') :
    Follows (Failure.Wants new) Eq (Progress.Alike G) (walk t site names p)
      (walk t' site names p') := by
  fun_induction walk t site names p generalizing p' with
  | case1 p =>
      rw [walk_nil]
      exact .value hp
  | case2 name pending p hfind =>
      by_cases hnew : new name
      · exact .lost hnew
      · have hat := h name List.mem_cons_self name .refl
        rw [walk_of_unknown _ _ (hat.absent hfind hnew)]
        exact .fault rfl
  | case3 name pending p b hfind hhas ih =>
      obtain ⟨b', hfind', -⟩ := (h name List.mem_cons_self name .refl).bundle hfind
      rw [walk_of_bundle _ _ hfind', if_pos (hp.has_eq name ▸ hhas)]
      exact ih (fun n hn => h n (List.mem_cons_of_mem _ hn)) hp
  | case4 name pending p b hfind hhas hnone =>
      obtain ⟨b', hfind', hgenerators⟩ := (h name List.mem_cons_self name .refl).bundle hfind
      rw [hnone] at hgenerators
      rw [walk_of_bundle _ _ hfind', if_neg (hp.has_eq name ▸ hhas), eq_none_of_rel hgenerators]
      exact .fault rfl
  | case5 name pending p b hfind hhas g hsome ih =>
      obtain ⟨b', hfind', hgenerators⟩ := (h name List.mem_cons_self name .refl).bundle hfind
      rw [hsome] at hgenerators
      obtain ⟨g', hsome', hg⟩ := exists_of_rel hgenerators
      rw [walk_of_bundle _ _ hfind', if_neg (hp.has_eq name ▸ hhas), hsome']
      exact ih (fun n hn => h n (List.mem_cons_of_mem _ hn)) (hp.take hg name)
  | case6 name pending p a hfind hfollowed ih =>
      obtain ⟨a', hfind', -⟩ := (h name List.mem_cons_self name .refl).aliased hfind
      rw [walk_of_alias _ _ hfind', if_pos (hp.followed ▸ hfollowed)]
      exact ih (fun n hn => h n (List.mem_cons_of_mem _ hn)) hp
  | case7 name pending p a hfind hfollowed ih =>
      obtain ⟨a', hfind', htargets⟩ := (h name List.mem_cons_self name .refl).aliased hfind
      rw [walk_of_alias _ _ hfind', if_neg (hp.followed ▸ hfollowed), ← htargets]
      refine ih ?_ (hp.follow name)
      intro n hn x hx
      rcases List.mem_append.1 hn with htarget | hpending
      · exact h name List.mem_cons_self x (.head ⟨a, hfind, htarget⟩ hx)
      · exact h n (List.mem_cons_of_mem _ hpending) x hx

theorem expand_follows_of_reached {name : String}
    (h : ∀ x, Reaches t site name x → CoversAt G new site t t' x) :
    Follows (Failure.Wants new) Eq (List.Forall₂ (Resolved.Alike G)) (expand t site name)
      (expand t' site name) := by
  have hempty : Progress.Alike G ({} : Progress H) ({} : Progress H') := ⟨.nil, rfl⟩
  have hwalk := walk_follows [name] (List.forall_mem_singleton.2 h) hempty
  exact hwalk.map fun _ _ hq => hq.found

theorem expand_follows (h : Covers G new site t t') (name : String) :
    Follows (Failure.Wants new) Eq (List.Forall₂ (Resolved.Alike G)) (expand t site name)
      (expand t' site name) :=
  expand_follows_of_reached fun x _ => h.coversAt x

/-! ## Catalogs with the same names -/

theorem Covers.names_eq (h : Covers G (fun _ => False) site t t') : t.names = t'.names := by
  apply NameTable.names_congr
  intro name
  cases hfind : t.find? name with
  | none =>
      rw [h.absent name hfind not_false]
      rfl
  | some e =>
      obtain ⟨e', hfind', -⟩ := h.held name e hfind
      rw [hfind']
      rfl

theorem Covers.supported_eq (h : Covers G (fun _ => False) site t t') :
    supported t site = supported t' site := by
  have hexpands : ∀ name, (expand t site name).isOk = (expand t' site name).isOk := by
    intro name
    have hfollows := expand_follows h name
    cases hexpand : expand t site name with
    | ok found =>
        obtain ⟨found', hexpand', -⟩ := hfollows.of_ok hexpand
        rw [hexpand']
        rfl
    | error failure =>
        obtain ⟨failure', hexpand', -⟩ := hfollows.of_error hexpand failure.not_wants
        rw [hexpand']
        rfl
  unfold supported
  simp only [h.names_eq, hexpands]

end Expansion

theorem Registry.diagnose_eq_of_covers {r : Registry H} {r' : Registry H'}
    (hcutoff : r.settings.cutoff = r'.settings.cutoff)
    (h : Expansion.Covers G (fun _ => False) site r.catalog r'.catalog) :
    r.diagnose site = r'.diagnose site := by
  have hsupported : r.supported site = r'.supported site := h.supported_eq
  funext loc failure
  cases failure with
  | unknown culprit => rw [diagnose, diagnose, hcutoff, hsupported]
  | unsupported culprit => rfl

end CodegenRegistry
