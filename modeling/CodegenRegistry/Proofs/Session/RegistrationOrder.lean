import CodegenRegistry.Proofs.Session.Lifecycle
import CodegenRegistry.Proofs.Spelling.Search
/-!
# Registration order

Two registries with the same last entry under each name are equal, so they cannot be told apart by
anything that is done with them later. Nor does an answer depend on the order in which names or
labels are listed: what is listed is sorted, and a hint is the least of its candidates.
-/

namespace CodegenRegistry

variable {H : Host}

/-! ## Listings -/

theorem mergeSort_eq_of_perm {listing sorted : List String} (hsorted : sorted.Pairwise (· < ·))
    (hperm : listing.Perm sorted) : listing.mergeSort (· ≤ ·) = sorted := by
  have hmerged : (listing.mergeSort (· ≤ ·)).Pairwise fun a b => decide (a ≤ b) = true := by
    apply List.pairwise_mergeSort
    · intro a b c hab hbc
      simp only [decide_eq_true_eq] at hab hbc ⊢
      exact String.le_trans hab hbc
    · intro a b
      simpa using String.le_total a b
  have hle : sorted.Pairwise fun a b => decide (a ≤ b) = true := by
    apply hsorted.imp
    intro a b hlt
    simpa using Std.le_of_lt hlt
  apply List.Perm.eq_of_pairwise _ hmerged hle ((List.mergeSort_perm _ _).trans hperm)
  intro a b _ _ hab hba
  simp only [decide_eq_true_eq] at hab hba
  exact String.le_antisymm hab hba

namespace Registry

def resolvable (r : Registry H) (site : Site) (listing : List String) : List String :=
  listing.filter fun name => (Expansion.expand r.catalog site name).isOk

/-- What is made from a listing of names or of labels does not depend on the order of the
listing. -/
structure OrderFree (r : Registry H) : Prop where
  names : ∀ listing : List String, listing.Perm r.names →
    listing.mergeSort (· ≤ ·) = r.names
  supported : ∀ (site : Site) (listing : List String), listing.Perm r.names →
    (r.resolvable site listing).mergeSort (· ≤ ·) = r.supported site
  unknown : ∀ (site : Site) (loc : Position) (culprit : String) (listing : List String),
    listing.Perm r.names →
      r.diagnose site loc (.unknown culprit) =
        .unknownGenerator culprit site loc
          (Spelling.suggest r.settings.cutoff culprit (r.resolvable site listing))
  unaccepted : ∀ (inv : Invocation H.Raw) (found : List (Resolved H)) (labels : List String),
    (∀ label, label ∈ labels ↔ ∃ g ∈ found, label ∈ g.generator.schema.names) →
      inv.checkAccepted r.settings.cutoff (found.flatMap fun g => g.generator.accepted) =
        inv.checkAccepted r.settings.cutoff labels

end Registry

theorem Invocation.checkAccepted_congr {R : Type} [RawValue R] {cutoff : Cutoff}
    {accepted accepted' : List String} (h : ∀ label, label ∈ accepted ↔ label ∈ accepted')
    (inv : Invocation R) :
    inv.checkAccepted cutoff accepted = inv.checkAccepted cutoff accepted' := by
  have hhint : ∀ word, Spelling.suggest cutoff word accepted =
      Spelling.suggest cutoff word accepted' := by
    intro word
    exact Spelling.suggest_congr h
  unfold checkAccepted
  simp only [h, hhint]

namespace Registry

theorem orderFree (r : Registry H) : r.OrderFree where
  names _ hperm := mergeSort_eq_of_perm r.catalog.pairwise_names hperm
  supported site _ hperm :=
    mergeSort_eq_of_perm (r.pairwise_supported site) (hperm.filter _)
  unknown site loc culprit listing hperm := by
    have hmem : ∀ c, c ∈ r.supported site ↔ c ∈ r.resolvable site listing := by
      intro c
      exact ((hperm.filter _).mem_iff (a := c)).symm
    rw [diagnose, Spelling.suggest_congr hmem]
  unaccepted inv found labels hlabels := by
    apply Invocation.checkAccepted_congr
    intro label
    rw [hlabels, List.mem_flatMap]
    simp only [Generator.mem_accepted]

/-! ## Registrations -/

def ofEntries (settings : Settings) (entries : List (String × Entry H)) : Registry H :=
  (fresh settings).after (entries.map fun e => .register e.1 e.2)

theorem settings_ofEntries (settings : Settings) (entries : List (String × Entry H)) :
    (ofEntries settings entries).settings = settings :=
  settings_after _ _

theorem isSealed_ofEntries (settings : Settings) (entries : List (String × Entry H)) :
    (ofEntries settings entries).isSealed = false := by
  rw [ofEntries, isSealed_after, fresh]
  simp [Operation.seals]

theorem find?_ofEntries (settings : Settings) (entries : List (String × Entry H))
    (name : String) :
    (ofEntries settings entries).catalog.find? name = entries.reverse.lookup name := by
  have hpoint : Operation.sealingPoint settings
      (entries.map fun e => (.register e.1 e.2 : Operation H)) = entries.length := by
    rw [Operation.sealingPoint, List.findIdx_eq_length.2, List.length_map]
    intro op hop
    obtain ⟨e, -, rfl⟩ := List.mem_map.1 hop
    exact Operation.seals_register settings e.1 e.2
  have hregistrations : (entries.map fun e => (.register e.1 e.2 : Operation H)).filterMap
      Operation.registration? = entries := by
    rw [List.filterMap_map]
    exact List.filterMap_some
  rw [ofEntries, find?_after_fresh, hpoint, List.take_of_length_le (by simp),
    Operation.latest?, hregistrations]

attribute [ext] Registry

theorem ofEntries_congr (settings : Settings) {entries entries' : List (String × Entry H)}
    (h : ∀ name, entries.reverse.lookup name = entries'.reverse.lookup name) :
    ofEntries settings entries = ofEntries settings entries' := by
  ext : 1
  · rw [settings_ofEntries, settings_ofEntries]
  · apply NameTable.ext_find?
    intro name
    rw [find?_ofEntries, find?_ofEntries, h]
  · rw [isSealed_ofEntries, isSealed_ofEntries]

/-- Registries that were filled in different orders, or with entries that did not last, give the
same answers to all that is asked of them later. No answer depends on the order in which names or
labels are listed for it. -/
theorem answers_from_last_entries (settings : Settings)
    {entries entries' : List (String × Entry H)}
    (h : ∀ name, entries.reverse.lookup name = entries'.reverse.lookup name) :
    (∀ ops, (ofEntries settings entries).performAll ops =
      (ofEntries settings entries').performAll ops) ∧
    ∀ ops, ((ofEntries settings entries).after ops).OrderFree := by
  constructor
  · intro ops
    rw [ofEntries_congr settings h]
  · intro ops
    exact orderFree _

/-- Two names, one of which had another entry for a while, against the same two registered once and
in the opposite order. -/
theorem answers_after_replacement :
    let replaced : List (String × Entry Host.text) :=
      [("all", .ofAlias ⟨["show"], fun _ => none⟩), ("show", .ofBundle {}),
        ("all", .ofAlias ⟨["show", "eq"], fun _ => none⟩)]
    let once : List (String × Entry Host.text) :=
      [("all", .ofAlias ⟨["show", "eq"], fun _ => none⟩), ("show", .ofBundle {})]
    (∀ name, replaced.reverse.lookup name = once.reverse.lookup name) ∧
      (∀ ops, (ofEntries {} replaced).performAll ops = (ofEntries {} once).performAll ops) ∧
      ∀ ops, ((ofEntries {} replaced).after ops).OrderFree := by
  intro replaced once
  have hlast : ∀ name, replaced.reverse.lookup name = once.reverse.lookup name := by
    intro name
    by_cases hall : name = "all"
    · subst hall
      rfl
    · by_cases hshow : name = "show"
      · subst hshow
        rfl
      · simp [replaced, once, List.lookup_cons, beq_false_of_ne hall, beq_false_of_ne hshow]
  exact ⟨hlast, answers_from_last_entries {} hlast⟩

end Registry

end CodegenRegistry
