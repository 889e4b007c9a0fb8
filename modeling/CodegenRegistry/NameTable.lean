/-!
# Name tables

A finite map from names, kept as a list in ascending order of the names. Two tables that answer
every look-up alike are equal, so nothing can depend on the order in which names were added.
-/

namespace CodegenRegistry

/-- A map from names to values, sorted by name. -/
structure NameTable (β : Type) where
  entries : List (String × β)
  sorted : entries.Pairwise fun a b => a.1 < b.1

namespace NameTable

variable {β : Type}

def empty : NameTable β := ⟨[], .nil⟩

instance : Inhabited (NameTable β) := ⟨empty⟩

def lookup (name : String) : List (String × β) → Option β
  | [] => none
  | (k, b) :: rest => if k = name then some b else lookup name rest

def place (name : String) (b : β) : List (String × β) → List (String × β)
  | [] => [(name, b)]
  | (k, c) :: rest =>
    if name < k then (name, b) :: (k, c) :: rest
    else if name = k then (name, b) :: rest
    else (k, c) :: place name b rest

theorem mem_place {name : String} {b : β} {e : String × β} {entries : List (String × β)}
    (h : e ∈ place name b entries) : e = (name, b) ∨ e ∈ entries := by
  induction entries with
  | nil => simpa [place] using h
  | cons hd rest ih =>
      rw [place] at h
      split at h
      · simpa using h
      · split at h
        · rcases List.mem_cons.1 h with h | h
          · exact .inl h
          · exact .inr (List.mem_cons_of_mem _ h)
        · rcases List.mem_cons.1 h with h | h
          · exact .inr (h ▸ List.mem_cons_self)
          · exact (ih h).imp_right (List.mem_cons_of_mem _)

theorem pairwise_place (name : String) (b : β) {entries : List (String × β)}
    (h : entries.Pairwise fun a b => a.1 < b.1) :
    (place name b entries).Pairwise fun a b => a.1 < b.1 := by
  induction entries with
  | nil => simp [place]
  | cons hd rest ih =>
      obtain ⟨k, c⟩ := hd
      obtain ⟨hk, hrest⟩ := List.pairwise_cons.1 h
      rw [place]
      split
      · rename_i hlt
        refine List.pairwise_cons.2 ⟨fun e he => ?_, h⟩
        rcases List.mem_cons.1 he with rfl | he
        · exact hlt
        · exact String.lt_trans hlt (hk e he)
      · split
        · rename_i heq
          subst heq
          exact List.pairwise_cons.2 ⟨hk, hrest⟩
        · rename_i hlt hne
          refine List.pairwise_cons.2 ⟨fun e he => ?_, ih hrest⟩
          rcases mem_place he with rfl | he
          · exact Std.lt_of_le_of_ne (String.not_lt.1 hlt) (Ne.symm hne)
          · exact hk e he

def find? (t : NameTable β) (name : String) : Option β :=
  lookup name t.entries

def insert (t : NameTable β) (name : String) (b : β) : NameTable β :=
  ⟨place name b t.entries, pairwise_place name b t.sorted⟩

def names (t : NameTable β) : List String :=
  t.entries.map Prod.fst

def size (t : NameTable β) : Nat :=
  t.entries.length

def contains (t : NameTable β) (name : String) : Bool :=
  (t.find? name).isSome

/-! ## Look-up after insertion -/

theorem lookup_place (name other : String) (b : β) (entries : List (String × β)) :
    lookup other (place name b entries) =
      if other = name then some b else lookup other entries := by
  induction entries with
  | nil => simp [place, lookup, eq_comm]
  | cons hd rest ih =>
      obtain ⟨k, c⟩ := hd
      rw [place]
      split
      · simp [lookup, eq_comm]
      · split
        · rename_i heq
          subst heq
          by_cases h : name = other
          · simp [lookup, h]
          · simp [lookup, h, Ne.symm h]
        · rename_i hne
          by_cases h : k = other
          · subst h
            simp [lookup, Ne.symm hne]
          · simp [lookup, h, ih]

theorem find?_insert (t : NameTable β) (name other : String) (b : β) :
    (t.insert name b).find? other = if other = name then some b else t.find? other :=
  lookup_place name other b t.entries

@[simp] theorem find?_empty (name : String) : (empty : NameTable β).find? name = none := rfl

@[simp] theorem find?_insert_self (t : NameTable β) (name : String) (b : β) :
    (t.insert name b).find? name = some b := by
  simp [find?_insert]

/-! ## Names -/

theorem lookup_eq_some {name : String} {b : β} {entries : List (String × β)}
    (h : lookup name entries = some b) : (name, b) ∈ entries := by
  induction entries with
  | nil => simp [lookup] at h
  | cons hd rest ih =>
      obtain ⟨k, c⟩ := hd
      rw [lookup] at h
      split at h
      · simp_all
      · exact List.mem_cons_of_mem _ (ih h)

theorem lookup_of_mem {name : String} {b : β} {entries : List (String × β)}
    (hs : entries.Pairwise fun a b => a.1 < b.1) (h : (name, b) ∈ entries) :
    lookup name entries = some b := by
  induction entries with
  | nil => simp at h
  | cons hd rest ih =>
      obtain ⟨k, c⟩ := hd
      obtain ⟨hk, hrest⟩ := List.pairwise_cons.1 hs
      rcases List.mem_cons.1 h with h | h
      · simp_all [lookup]
      · have hne : k ≠ name := fun e => String.lt_irrefl name (e ▸ hk (name, b) h)
        simp [lookup, hne, ih hrest h]

theorem find?_eq_some_iff {t : NameTable β} {name : String} {b : β} :
    t.find? name = some b ↔ (name, b) ∈ t.entries :=
  ⟨lookup_eq_some, lookup_of_mem t.sorted⟩

theorem nodup_entries (t : NameTable β) : t.entries.Nodup := by
  apply t.sorted.imp
  intro a b hlt heq
  subst heq
  exact String.lt_irrefl a.1 hlt

theorem ext_find? {t t' : NameTable β} (h : ∀ name, t.find? name = t'.find? name) : t = t' := by
  have hmem : ∀ e, e ∈ t.entries ↔ e ∈ t'.entries := by
    intro e
    rw [← find?_eq_some_iff, ← find?_eq_some_iff, h]
  have hperm : t.entries.Perm t'.entries :=
    (List.perm_ext_iff_of_nodup t.nodup_entries t'.nodup_entries).2 hmem
  have hentries : t.entries = t'.entries := by
    apply hperm.eq_of_pairwise _ t.sorted t'.sorted
    intro a b _ _ hab hba
    exact absurd (String.lt_trans hab hba) (String.lt_irrefl _)
  obtain ⟨entries, sorted⟩ := t
  obtain ⟨entries', sorted'⟩ := t'
  congr

theorem mem_names_iff {t : NameTable β} {name : String} :
    name ∈ t.names ↔ (t.find? name).isSome := by
  rw [Option.isSome_iff_exists]
  simp [names, find?_eq_some_iff]

theorem mem_names_of_find? {t : NameTable β} {name : String} {b : β}
    (h : t.find? name = some b) : name ∈ t.names := by
  rw [mem_names_iff, h]
  rfl

theorem pairwise_names (t : NameTable β) : t.names.Pairwise (· < ·) := by
  rw [names, List.pairwise_map]
  exact t.sorted

theorem nodup_names (t : NameTable β) : t.names.Nodup :=
  t.pairwise_names.imp fun {_ _} h => Std.ne_of_lt h

theorem names_congr {γ : Type} {t : NameTable β} {t' : NameTable γ}
    (h : ∀ name, (t.find? name).isSome = (t'.find? name).isSome) : t.names = t'.names := by
  have hmem : ∀ name, name ∈ t.names ↔ name ∈ t'.names := by
    intro name
    rw [mem_names_iff, mem_names_iff, h]
  have hperm : t.names.Perm t'.names :=
    (List.perm_ext_iff_of_nodup t.nodup_names t'.nodup_names).2 hmem
  apply hperm.eq_of_pairwise _ t.pairwise_names t'.pairwise_names
  intro a b _ _ hab hba
  exact absurd (String.lt_trans hab hba) (String.lt_irrefl _)

@[simp] theorem length_names (t : NameTable β) : t.names.length = t.size := by
  simp [names, size]

end NameTable

end CodegenRegistry
