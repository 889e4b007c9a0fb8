import CodegenRegistry.Spelling
/-!
# The search for a hint

`Precedes` is a strict linear order, so the search finds the one least candidate. Main statement: a
hint is the nearest candidate that may be hinted at, whatever the order of the candidates and
however often each is listed.
-/

namespace CodegenRegistry.Spelling

theorem distance_eq (v w : String) :
    distance v w = Text.EditDistance.distance v.toList w.toList :=
  Text.EditDistance.byRows_eq v.toList w.toList

theorem precedes_irrefl (p : Nat × String) : ¬ Precedes p p := by
  intro h
  rcases h with hdistance | ⟨-, hword⟩
  · exact Nat.lt_irrefl _ hdistance
  · exact String.lt_irrefl _ hword

theorem Precedes.trans {p q s : Nat × String} (hpq : Precedes p q) (hqs : Precedes q s) :
    Precedes p s := by
  rcases hpq with hpq | ⟨hpq, hwords⟩
  · rcases hqs with hqs | ⟨hqs, -⟩
    · exact .inl (Nat.lt_trans hpq hqs)
    · exact .inl (hqs ▸ hpq)
  · rcases hqs with hqs | ⟨hqs, hwords'⟩
    · exact .inl (hpq ▸ hqs)
    · exact .inr ⟨hpq.trans hqs, String.lt_trans hwords hwords'⟩

theorem eq_of_not_precedes {p q : Nat × String} (hpq : ¬ Precedes p q) (hqp : ¬ Precedes q p) :
    p = q := by
  simp only [Precedes, not_or, not_and, Nat.not_lt, String.not_lt] at hpq hqp
  have hdistance : p.1 = q.1 := Nat.le_antisymm hqp.1 hpq.1
  have hword : p.2 = q.2 :=
    String.le_antisymm (hqp.2 hdistance.symm) (hpq.2 hdistance)
  exact Prod.ext hdistance hword

theorem first_eq_none_iff {l : List (Nat × String)} : first l = none ↔ l = [] := by
  cases l with
  | nil => simp [first]
  | cons p l =>
      unfold first
      split
      · simp
      · split <;> simp

theorem least_of_first {l : List (Nat × String)} {p : Nat × String} (h : first l = some p) :
    p ∈ l ∧ ∀ q ∈ l, ¬ Precedes q p := by
  induction l generalizing p with
  | nil => cases h
  | cons q l ih =>
      rw [first] at h
      cases hrest : first l with
      | none =>
          obtain rfl := first_eq_none_iff.1 hrest
          obtain rfl : q = p := by simpa [hrest] using h
          simpa using precedes_irrefl q
      | some s =>
          have hs := ih hrest
          rw [hrest] at h
          by_cases hsq : Precedes s q
          · obtain rfl : s = p := by simpa [hsq] using h
            refine ⟨List.mem_cons_of_mem q hs.1, ?_⟩
            intro t ht
            rcases List.mem_cons.1 ht with rfl | ht
            · exact fun hts => precedes_irrefl s (hsq.trans hts)
            · exact hs.2 t ht
          · obtain rfl : q = p := by simpa [hsq] using h
            refine ⟨by simp, ?_⟩
            intro t ht htq
            rcases List.mem_cons.1 ht with rfl | ht
            · exact precedes_irrefl t htq
            -- `t` comes before `q`, hence so does `s`, or `s` would not be least
            · have hts : ¬ Precedes t s := hs.2 t ht
              by_cases hst : Precedes s t
              · exact hsq (hst.trans htq)
              · exact hsq (eq_of_not_precedes hst hts ▸ htq)

theorem first_eq_some_iff {l : List (Nat × String)} {p : Nat × String} :
    first l = some p ↔ p ∈ l ∧ ∀ q ∈ l, ¬ Precedes q p := by
  constructor
  · exact least_of_first
  · intro h
    cases hfirst : first l with
    | none =>
        obtain rfl := first_eq_none_iff.1 hfirst
        simp at h
    | some q =>
        have hq := least_of_first hfirst
        rw [eq_of_not_precedes (hq.2 p h.1) (h.2 q hq.1)]

theorem first_congr {l l' : List (Nat × String)} (h : ∀ p, p ∈ l ↔ p ∈ l') :
    first l = first l' := by
  apply Option.ext
  intro p
  rw [first_eq_some_iff, first_eq_some_iff, h p]
  simp only [h]

theorem mem_eligible {cutoff : Cutoff} {word : String} {candidates : List String}
    {p : Nat × String} :
    p ∈ eligible cutoff word candidates ↔
      p.2 ∈ candidates ∧ p.2 ≠ word ∧ p.1 = distance word p.2 ∧
        p.1 ≤ cutoff.limit word.length := by
  obtain ⟨n, c⟩ := p
  simp only [eligible, List.mem_filter, List.mem_map, Prod.mk.injEq, decide_eq_true_eq]
  constructor
  · intro h
    obtain ⟨⟨c, ⟨hmem, hne⟩, rfl, rfl⟩, hlimit⟩ := h
    exact ⟨hmem, hne, rfl, hlimit⟩
  · intro h
    obtain ⟨hmem, hne, rfl, hlimit⟩ := h
    exact ⟨⟨c, ⟨hmem, hne⟩, rfl, rfl⟩, hlimit⟩

structure Eligible (cutoff : Cutoff) (word : String) (candidates : List String) (c : String) :
    Prop where
  candidate : c ∈ candidates
  ne_word : c ≠ word
  within : distance word c ≤ cutoff.limit word.length

theorem mem_eligible_iff {cutoff : Cutoff} {word : String} {candidates : List String}
    {p : Nat × String} :
    p ∈ eligible cutoff word candidates ↔
      Eligible cutoff word candidates p.2 ∧ p = (distance word p.2, p.2) := by
  rw [mem_eligible]
  constructor
  · intro h
    obtain ⟨hmem, hne, hdistance, hlimit⟩ := h
    exact ⟨⟨hmem, hne, hdistance ▸ hlimit⟩, Prod.ext hdistance rfl⟩
  · intro h
    obtain ⟨⟨hmem, hne, hlimit⟩, hp⟩ := h
    have hdistance : p.1 = distance word p.2 := congrArg Prod.fst hp
    exact ⟨hmem, hne, hdistance, hdistance ▸ hlimit⟩

theorem suggest_eq_some_iff_not_precedes {cutoff : Cutoff} {word s : String}
    {candidates : List String} :
    suggest cutoff word candidates = some s ↔
      Eligible cutoff word candidates s ∧ ∀ c, Eligible cutoff word candidates c →
        ¬ Precedes (distance word c, c) (distance word s, s) := by
  rw [suggest, Option.map_eq_some_iff]
  constructor
  · intro h
    obtain ⟨p, hp, rfl⟩ := h
    obtain ⟨hmem, hleast⟩ := first_eq_some_iff.1 hp
    obtain ⟨heligible, heq⟩ := mem_eligible_iff.1 hmem
    rw [← heq]
    exact ⟨heligible, fun c hc => hleast _ (mem_eligible_iff.2 ⟨hc, rfl⟩)⟩
  · intro h
    obtain ⟨heligible, hleast⟩ := h
    have hmem : (distance word s, s) ∈ eligible cutoff word candidates :=
      mem_eligible_iff.2 ⟨heligible, rfl⟩
    refine ⟨(distance word s, s), first_eq_some_iff.2 ⟨hmem, ?_⟩, rfl⟩
    intro q hq
    obtain ⟨hq, heq⟩ := mem_eligible_iff.1 hq
    rw [heq]
    exact hleast q.2 hq

theorem suggest_eq_some_iff {cutoff : Cutoff} {word s : String} {candidates : List String} :
    suggest cutoff word candidates = some s ↔
      Eligible cutoff word candidates s ∧ ∀ c, Eligible cutoff word candidates c → c ≠ s →
        Precedes (distance word s, s) (distance word c, c) := by
  rw [suggest_eq_some_iff_not_precedes]
  constructor
  · intro h
    refine ⟨h.1, ?_⟩
    intro c hc hne
    rcases Decidable.em (Precedes (distance word s, s) (distance word c, c)) with hbefore | hlater
    · exact hbefore
    · exact absurd (congrArg Prod.snd (eq_of_not_precedes (h.2 c hc) hlater)) hne
  · intro h
    refine ⟨h.1, ?_⟩
    intro c hc hprecedes
    by_cases hcs : c = s
    · subst hcs
      exact precedes_irrefl _ hprecedes
    · exact precedes_irrefl _ (hprecedes.trans (h.2 c hc hcs))

theorem isSome_suggest_iff {cutoff : Cutoff} {word : String} {candidates : List String} :
    (suggest cutoff word candidates).isSome ↔ ∃ c, Eligible cutoff word candidates c := by
  rw [suggest, Option.isSome_map, Option.isSome_iff_ne_none, ne_eq, first_eq_none_iff]
  constructor
  · intro h
    obtain ⟨p, hp⟩ := List.exists_mem_of_ne_nil _ h
    exact ⟨p.2, (mem_eligible_iff.1 hp).1⟩
  · intro h
    obtain ⟨c, hc⟩ := h
    have hmem : (distance word c, c) ∈ eligible cutoff word candidates :=
      mem_eligible_iff.2 ⟨hc, rfl⟩
    exact List.ne_nil_of_mem hmem

/-- A hint depends on the set of the candidates alone, whether or not the word is one of them. -/
theorem suggest_congr_of_ne {cutoff : Cutoff} {word : String} {candidates candidates' : List String}
    (h : ∀ c, c ≠ word → (c ∈ candidates ↔ c ∈ candidates')) :
    suggest cutoff word candidates = suggest cutoff word candidates' := by
  have hfirst : first (eligible cutoff word candidates) =
      first (eligible cutoff word candidates') := by
    apply first_congr
    intro p
    rw [mem_eligible, mem_eligible]
    constructor
    · intro hp
      exact ⟨(h p.2 hp.2.1).1 hp.1, hp.2⟩
    · intro hp
      exact ⟨(h p.2 hp.2.1).2 hp.1, hp.2⟩
  unfold suggest
  rw [hfirst]

theorem suggest_congr {cutoff : Cutoff} {word : String} {candidates candidates' : List String}
    (h : ∀ c, c ∈ candidates ↔ c ∈ candidates') :
    suggest cutoff word candidates = suggest cutoff word candidates' :=
  suggest_congr_of_ne fun c _ => h c

theorem suggest_eq_none_iff {cutoff : Cutoff} {word : String} {candidates : List String} :
    suggest cutoff word candidates = none ↔ ∀ c, ¬ Eligible cutoff word candidates c := by
  rw [← Option.not_isSome_iff_eq_none, isSome_suggest_iff, not_exists]

/-- A hint stays the hint when a fixed bound is raised, as what comes in is farther off. -/
theorem suggest_fixed_mono {n m : Nat} {word s : String} {candidates : List String} (hle : n ≤ m)
    (h : suggest (.fixed n) word candidates = some s) :
    suggest (.fixed m) word candidates = some s := by
  obtain ⟨hs, hleast⟩ := suggest_eq_some_iff.1 h
  have hwithin : distance word s ≤ n := hs.within
  refine suggest_eq_some_iff.2 ⟨⟨hs.candidate, hs.ne_word, Nat.le_trans hwithin hle⟩, ?_⟩
  intro c hc hne
  by_cases hnear : distance word c ≤ n
  · exact hleast c ⟨hc.candidate, hc.ne_word, hnear⟩ hne
  · exact .inl (by omega)

/-- The hint is the eligible candidate that no other one comes before, and there is none exactly
when no candidate is eligible. So neither the order of the candidates nor repetitions matter, nor
does the word itself as a candidate, and a hint that is found within a bound is found within every
larger one. -/
theorem suggest_nearest (cutoff : Cutoff) (word : String) (candidates : List String) :
    (∀ s, suggest cutoff word candidates = some s ↔
        Eligible cutoff word candidates s ∧ ∀ c, Eligible cutoff word candidates c →
          ¬ Precedes (distance word c, c) (distance word s, s)) ∧
      (suggest cutoff word candidates = none ↔ ∀ c, ¬ Eligible cutoff word candidates c) ∧
      (∀ candidates', (∀ c, c ≠ word → (c ∈ candidates ↔ c ∈ candidates')) →
        suggest cutoff word candidates = suggest cutoff word candidates') ∧
      ∀ n m s, n ≤ m → suggest (.fixed n) word candidates = some s →
        suggest (.fixed m) word candidates = some s := by
  refine ⟨?_, suggest_eq_none_iff, ?_, ?_⟩
  · intro s
    exact suggest_eq_some_iff_not_precedes
  · intro candidates' h
    exact suggest_congr_of_ne h
  · intro n m s hle h
    exact suggest_fixed_mono hle h

/-- Of two words that are equally near the smaller one wins, wherever it is written. -/
example :
    suggest .byLength "sho" ["shop", "sho", "shoe", "shop"] = some "shoe" ∧
      suggest (.fixed 0) "sho" ["shop", "sho", "shoe", "shop"] = none := by
  decide +kernel

end CodegenRegistry.Spelling
