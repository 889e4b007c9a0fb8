import CodegenRegistry.Catalog
/-!
# Expansion of names

A name expands to the generators that it stands for at a site. Aliases are followed depth first
and from left to right. An alias is followed once and a generator is taken once, so cycles end and
repetitions disappear.
-/

namespace CodegenRegistry

structure Resolved (H : Host) where
  name : String
  generator : Generator H

def Resolved.inspect {H : Host} (r : Resolved H) : String :=
  Text.Quoted.enclose "Resolved(" ")" [Text.Quoted.quote r.name]

namespace Expansion

variable {H : Host}

inductive Failure
  | unknown (name : String)
  | unsupported (name : String)
deriving DecidableEq, Repr

/-- The generators taken so far, in order, and the aliases followed so far. -/
structure Progress (H : Host) where
  found : List (Resolved H) := []
  followed : List String := []

def Progress.has (p : Progress H) (name : String) : Bool :=
  p.found.any fun r => r.name = name

/-- How many names an entry puts in the place of its own. -/
def width (site : Site) : Entry H → Nat
  | .ofBundle _ => 0
  | .ofAlias a => (a.targets site).length

/-- The total width of the entries that have not been followed. -/
def outstanding (site : Site) (followed : List String) : List (String × Entry H) → Nat
  | [] => 0
  | (name, e) :: rest =>
    (if name ∈ followed then 0 else width site e) + outstanding site followed rest

theorem outstanding_cons_le (site : Site) (name : String) (followed : List String)
    (entries : List (String × Entry H)) :
    outstanding site (name :: followed) entries ≤ outstanding site followed entries := by
  induction entries with
  | nil => simp [outstanding]
  | cons hd rest ih =>
      simp only [outstanding, List.mem_cons]
      by_cases hf : hd.1 ∈ followed
      · simpa [hf] using ih
      · by_cases hn : hd.1 = name <;> simp [hf, hn] <;> omega

theorem outstanding_follow {site : Site} {name : String} {followed : List String}
    {entries : List (String × Entry H)} {e : Entry H}
    (h : NameTable.lookup name entries = some e) (hf : name ∉ followed) :
    outstanding site (name :: followed) entries + width site e ≤
      outstanding site followed entries := by
  induction entries with
  | nil => simp [NameTable.lookup] at h
  | cons hd rest ih =>
      obtain ⟨k, c⟩ := hd
      rw [NameTable.lookup] at h
      by_cases hk : k = name
      · obtain rfl : c = e := by simpa [hk] using h
        have := outstanding_cons_le site name followed rest
        simp [outstanding, hk, hf]
        omega
      · have := ih (by simpa [hk] using h)
        simp only [outstanding, List.mem_cons, hk, false_or]
        omega

/-- Expands the pending names one after the other. The names of an alias come before what is
pending after it. -/
def walk (t : Catalog H) (site : Site) :
    List String → Progress H → Except Failure (Progress H)
  | [], p => .ok p
  | name :: pending, p =>
    match _ : t.find? name with
    | none => .error (.unknown name)
    | some (.ofBundle b) =>
      if p.has name then walk t site pending p
      else
        match b.generators site with
        | none => .error (.unsupported name)
        | some g => walk t site pending { p with found := p.found ++ [⟨name, g⟩] }
    | some (.ofAlias a) =>
      if name ∈ p.followed then walk t site pending p
      else walk t site (a.targets site ++ pending) { p with followed := name :: p.followed }
termination_by pending p => outstanding site p.followed t.entries + pending.length
decreasing_by
  · simp
  · simp
  · simp
  · rename_i hfind hf
    have := @outstanding_follow H site _ _ _ _ hfind hf
    simp only [width] at this
    simp only [List.length_append, List.length_cons]
    omega

@[simp] theorem walk_nil (t : Catalog H) (site : Site) (p : Progress H) :
    walk t site [] p = .ok p := by
  rw [walk]

theorem walk_of_unknown {t : Catalog H} {site : Site} {name : String} (pending : List String)
    (p : Progress H) (h : t.find? name = none) :
    walk t site (name :: pending) p = .error (.unknown name) := by
  rw [walk]
  split <;> simp_all

theorem walk_of_bundle {t : Catalog H} {site : Site} {name : String} {b : Bundle H}
    (pending : List String) (p : Progress H) (h : t.find? name = some (.ofBundle b)) :
    walk t site (name :: pending) p =
      if p.has name then walk t site pending p
      else
        match b.generators site with
        | none => .error (.unsupported name)
        | some g => walk t site pending { p with found := p.found ++ [⟨name, g⟩] } := by
  rw [walk]
  split
  · simp_all
  · rename_i h'
    obtain rfl : b = _ := by simpa [h] using h'
    rfl
  · simp_all

theorem walk_of_alias {t : Catalog H} {site : Site} {name : String} {a : Alias}
    (pending : List String) (p : Progress H) (h : t.find? name = some (.ofAlias a)) :
    walk t site (name :: pending) p =
      if name ∈ p.followed then walk t site pending p
      else walk t site (a.targets site ++ pending) { p with followed := name :: p.followed } := by
  rw [walk]
  split
  · simp_all
  · simp_all
  · rename_i h'
    obtain rfl : a = _ := by simpa [h] using h'
    rfl

/-- Pending names are dealt with in turn, each from where the ones before it have led. -/
theorem walk_append (t : Catalog H) (site : Site) (names others : List String)
    (p : Progress H) :
    walk t site (names ++ others) p = (walk t site names p).bind (walk t site others) := by
  fun_induction walk t site names p with
  | case1 p => rfl
  | case2 name pending p h => rw [List.cons_append, walk_of_unknown _ _ h]; rfl
  | case3 name pending p b h hp ih =>
      rw [List.cons_append, walk_of_bundle _ _ h, if_pos hp, ih]
  | case4 name pending p b h hp hg =>
      rw [List.cons_append, walk_of_bundle _ _ h, if_neg hp, hg]
      rfl
  | case5 name pending p b h hp g hg ih =>
      rw [List.cons_append, walk_of_bundle _ _ h, if_neg hp, hg]
      exact ih
  | case6 name pending p a h hf ih =>
      rw [List.cons_append, walk_of_alias _ _ h, if_pos hf, ih]
  | case7 name pending p a h hf ih =>
      rw [List.cons_append, walk_of_alias _ _ h, if_neg hf, ← ih, List.append_assoc]

def expand (t : Catalog H) (site : Site) (name : String) :
    Except Failure (List (Resolved H)) :=
  (walk t site [name] {}).map Progress.found

def supported (t : Catalog H) (site : Site) : List String :=
  t.names.filter fun name => (expand t site name).isOk

end Expansion

end CodegenRegistry
