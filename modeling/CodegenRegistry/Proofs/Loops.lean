import CodegenRegistry.Logged
import Mathlib.Data.List.Forall2
/-!
# Loops over lists

A loop fails with the first element that fails, and what comes after that element has no part in
the failure. It succeeds when every element does. A loop that appends what is not there yet keeps
the first occurrences.
-/

namespace CodegenRegistry

/-- A loop that appends the elements whose keys are new drops later repeats of a key. -/
theorem foldl_appendNew {α : Type} (key : α → String) (old new : List α) :
    new.foldl (fun kept x => if key x ∈ kept.map key then kept else kept ++ [x]) old =
      old ++ (new.filter fun x => key x ∉ old.map key).eraseDupsBy fun x y => key x == key y := by
  induction new generalizing old with
  | nil => simp
  | cons x new ih =>
      rw [List.foldl_cons]
      by_cases hx : key x ∈ old.map key
      · rw [if_pos hx, ih, List.filter_cons_of_neg (by simpa using hx)]
      · have hfilter : (new.filter fun y => key y ∉ (old ++ [x]).map key) =
            (new.filter fun y => key y ∉ old.map key).filter fun y => (key y == key x) = false := by
          rw [List.filter_filter]
          congr 1
          funext y
          by_cases hy : key y = key x <;> simp [hy]
        rw [if_neg hx, ih, List.filter_cons_of_pos (by simpa using hx), List.eraseDupsBy_cons,
          hfilter, List.append_assoc, List.singleton_append]

theorem foldl_appendNew_nil {α : Type} (key : α → String) (new : List α) :
    new.foldl (fun kept x => if key x ∈ kept.map key then kept else kept ++ [x]) [] =
      new.eraseDupsBy fun x y => key x == key y := by
  rw [foldl_appendNew, List.nil_append, List.filter_eq_self.2 (by simp)]

theorem eraseDups_filter (keep : String → Bool) (l : List String) :
    (l.filter keep).eraseDups = l.eraseDups.filter keep := by
  induction hn : l.length using Nat.strongRecOn generalizing l with
  | ind n ih =>
      cases l with
      | nil => rfl
      | cons x l =>
          have hlt : (l.filter fun y => !y == x).length < n := by
            have hle := List.length_filter_le (fun y => !y == x) l
            rw [List.length_cons] at hn
            omega
          have hcomm : (l.filter fun y => !y == x).filter keep =
              (l.filter keep).filter fun y => !y == x := by
            rw [List.filter_filter, List.filter_filter]
            simp only [Bool.and_comm]
          have hrest := ih _ hlt (l.filter fun y => !y == x) rfl
          rw [hcomm] at hrest
          rw [List.eraseDups_cons]
          by_cases hx : keep x
          · rw [List.filter_cons_of_pos hx, List.filter_cons_of_pos hx, List.eraseDups_cons, hrest]
          · -- without `x` there is nothing more to drop for the sake of `x`
            have hkeep : (l.filter keep).filter (fun y => !y == x) = l.filter keep := by
              apply List.filter_eq_self.2
              intro y hy
              have hne : y ≠ x := fun heq => hx (heq ▸ (List.mem_filter.1 hy).2)
              simpa using hne
            rw [List.filter_cons_of_neg hx, List.filter_cons_of_neg hx, ← hrest, hkeep]

theorem eraseDups_append_eq (l l' : List String) :
    (l ++ l').eraseDups = l.eraseDups ++ l'.eraseDups.filter (· ∉ l.eraseDups) := by
  have hremove : l'.removeAll l = l'.filter (· ∉ l.eraseDups) := by
    unfold List.removeAll
    congr 1
    funext x
    simp
  calc (l ++ l').eraseDups
      = l.eraseDups ++ (l'.removeAll l).eraseDups := List.eraseDups_append
    _ = l.eraseDups ++ (l'.filter (· ∉ l.eraseDups)).eraseDups := by rw [hremove]
    _ = l.eraseDups ++ l'.eraseDups.filter (· ∉ l.eraseDups) := by rw [eraseDups_filter]

theorem isSome_lookup_reverse_iff {α β : Type} [DecidableEq α] {l : List (α × β)} {x : α} :
    (l.reverse.lookup x).isSome ↔ x ∈ l.map Prod.fst := by
  rw [List.lookup_isSome_iff, List.mem_map]
  simp only [List.mem_reverse, beq_iff_eq]
  exact exists_congr fun _ => and_congr_right fun _ => eq_comm

def IsFirst {α : Type} (P : α → Prop) (x : α) (l : List α) : Prop :=
  ∃ before after, l = before ++ x :: after ∧ P x ∧ ∀ y ∈ before, ¬ P y

namespace IsFirst

variable {α : Type} {P Q : α → Prop} {x y : α} {l : List α}

theorem not_nil : ¬ IsFirst P x [] := by
  intro h
  obtain ⟨before, after, hsplit, -⟩ := h
  cases before <;> cases hsplit

theorem cons_iff : IsFirst P x (y :: l) ↔ y = x ∧ P x ∨ ¬ P y ∧ IsFirst P x l := by
  constructor
  · intro h
    obtain ⟨before, after, hsplit, hx, hbefore⟩ := h
    cases before with
    | nil =>
        obtain ⟨hy, -⟩ := List.cons.inj hsplit
        exact .inl ⟨hy, hx⟩
    | cons z before =>
        obtain ⟨rfl, rfl⟩ := List.cons.inj hsplit
        refine .inr ⟨hbefore y (by simp), before, after, rfl, hx, ?_⟩
        intro w hw
        exact hbefore w (by simp [hw])
  · intro h
    rcases h with ⟨rfl, hx⟩ | ⟨hy, before, after, rfl, hx, hbefore⟩
    · exact ⟨[], l, rfl, hx, by simp⟩
    · exact ⟨y :: before, after, rfl, hx, by simpa [hy] using hbefore⟩

theorem head (hx : P x) : IsFirst P x (x :: l) :=
  cons_iff.2 (.inl ⟨rfl, hx⟩)

theorem tail (hy : ¬ P y) (h : IsFirst P x l) : IsFirst P x (y :: l) :=
  cons_iff.2 (.inr ⟨hy, h⟩)

theorem holds (h : IsFirst P x l) : P x := by
  obtain ⟨before, after, -, hx, -⟩ := h
  exact hx

theorem mem (h : IsFirst P x l) : x ∈ l := by
  obtain ⟨before, after, rfl, -⟩ := h
  simp

theorem exists_of_mem (hmem : y ∈ l) (hy : P y) : ∃ x, IsFirst P x l := by
  induction l with
  | nil => cases hmem
  | cons z l ih =>
      by_cases hz : P z
      · exact ⟨z, .head hz⟩
      · have hrest : y ∈ l := by
          rcases List.mem_cons.1 hmem with rfl | hrest
          · exact absurd hy hz
          · exact hrest
        rcases ih hrest with ⟨x, hx⟩
        exact ⟨x, hx.tail hz⟩

/-- In another order there is a first element too, though perhaps not the same one. -/
theorem exists_of_perm {l' : List α} (hperm : l.Perm l') (h : IsFirst P x l) :
    ∃ y, IsFirst P y l' :=
  exists_of_mem (hperm.mem_iff.1 h.mem) h.holds

theorem congr (h : ∀ y ∈ l, P y ↔ Q y) : IsFirst P x l ↔ IsFirst Q x l := by
  induction l with
  | nil => simp [not_nil]
  | cons y l ih =>
      have hy : P y ↔ Q y := h y (by simp)
      have hx : y = x ∧ P x ↔ y = x ∧ Q x := by
        constructor
        · intro hfirst
          exact ⟨hfirst.1, hfirst.1 ▸ hy.1 (hfirst.1 ▸ hfirst.2)⟩
        · intro hfirst
          exact ⟨hfirst.1, hfirst.1 ▸ hy.2 (hfirst.1 ▸ hfirst.2)⟩
      rw [cons_iff, cons_iff, ih fun z hz => h z (by simp [hz]), hy, hx]

/-- A loop that ends with the first element that has `P`, and holds if that one has `E`. -/
theorem exists_iff_of_step {E : α → Prop} (loop : List α → Prop) (hnil : ¬ loop [])
    (hcons : ∀ y l, loop (y :: l) ↔ E y ∨ ¬ P y ∧ loop l) (hend : ∀ y, E y → P y) :
    loop l ↔ ∃ x, IsFirst P x l ∧ E x := by
  induction l with
  | nil => simp [hnil, not_nil]
  | cons y l ih =>
      rw [hcons, ih]
      constructor
      · intro h
        rcases h with hy | ⟨hy, x, hx, hend⟩
        · exact ⟨y, .head (hend y hy), hy⟩
        · exact ⟨x, hx.tail hy, hend⟩
      · intro h
        obtain ⟨x, hx, hend⟩ := h
        rcases cons_iff.1 hx with ⟨rfl, -⟩ | ⟨hy, hx⟩
        · exact .inl hend
        · exact .inr ⟨hy, x, hx, hend⟩

theorem find?_eq_some_iff {p : α → Bool} :
    l.find? p = some x ↔ IsFirst (fun y => p y = true) x l := by
  rw [List.find?_eq_some_iff_append]
  constructor
  · intro h
    obtain ⟨hx, before, after, hsplit, hbefore⟩ := h
    exact ⟨before, after, hsplit, hx, by simpa using hbefore⟩
  · intro h
    obtain ⟨before, after, hsplit, hx, hbefore⟩ := h
    exact ⟨hx, before, after, hsplit, by simpa using hbefore⟩

end IsFirst

theorem mapM_congr {ε α β : Type} {f g : α → Except ε β} {l : List α}
    (h : ∀ x ∈ l, f x = g x) : l.mapM f = l.mapM g := by
  induction l with
  | nil => rfl
  | cons x l ih =>
      rw [List.mapM_cons, List.mapM_cons, h x (by simp), ih fun y hy => h y (by simp [hy])]

theorem mapM_eq_ok_iff {ε α β : Type} {f : α → Except ε β} {l : List α} {results : List β} :
    l.mapM f = .ok results ↔ List.Forall₂ (fun x y => f x = .ok y) l results := by
  induction l generalizing results with
  | nil => simp [pure, Except.pure, eq_comm]
  | cons x l ih =>
      rw [List.mapM_cons, List.forall₂_cons_left_iff]
      simp only [← ih]
      cases f x <;> cases l.mapM f <;> simp [bind, Except.bind, pure, Except.pure, eq_comm]

theorem mapM_eq_error_iff {ε α β : Type} {f : α → Except ε β} {l : List α} {e : ε} :
    l.mapM f = .error e ↔ ∃ x, IsFirst (fun y => ∃ e', f y = .error e') x l ∧ f x = .error e := by
  apply IsFirst.exists_iff_of_step fun l => l.mapM f = .error e
  · simp [pure, Except.pure]
  · intro y l
    rw [List.mapM_cons]
    cases f y <;> cases l.mapM f <;> simp [bind, Except.bind, pure, Except.pure]
  · intro y hy
    exact ⟨e, hy⟩

theorem mapM_eq_error_congr {ε α α' β β' : Type} {f : α → Except ε β} {g : α' → Except ε β'}
    {l : List α} {l' : List α'} {e : ε}
    (h : List.Forall₂ (fun x y => ∀ e, f x = .error e ↔ g y = .error e) l l') :
    l.mapM f = .error e ↔ l'.mapM g = .error e := by
  induction h with
  | nil => simp [pure, Except.pure]
  | @cons x y l l' hxy _ ih =>
      rw [List.mapM_cons, List.mapM_cons]
      cases hx : f x with
      | error e' =>
          rw [(hxy e').1 hx]
          simp [bind, Except.bind]
      | ok b =>
          cases hy : g y with
          | error e' =>
              rw [(hxy e').2 hy] at hx
              cases hx
          | ok b' =>
              cases hl : l.mapM f <;> cases hl' : l'.mapM g <;>
                simp_all [bind, Except.bind, pure, Except.pure]

theorem mapM_mapError {ε ε' α β : Type} (f : α → Except ε β) (g : ε → ε') (l : List α) :
    l.mapM (fun x => (f x).mapError g) = (l.mapM f).mapError g := by
  induction l with
  | nil => rfl
  | cons x l ih =>
      rw [List.mapM_cons, List.mapM_cons, ih]
      cases f x with
      | error e => rfl
      | ok b => cases l.mapM f <;> rfl

theorem foldlM_eq_error_iff {ε α β : Type} {f : β → α → Except ε β} {l : List α} {b : β} {e : ε} :
    l.foldlM f b = .error e ↔
      ∃ before x after b', l = before ++ x :: after ∧ before.foldlM f b = .ok b' ∧
        f b' x = .error e := by
  induction l generalizing b with
  | nil => simp [pure, Except.pure]
  | cons y l ih =>
      rw [List.foldlM_cons]
      constructor
      · intro h
        cases hy : f b y with
        | error e' =>
            rw [hy] at h
            exact ⟨[], y, l, b, rfl, rfl, hy.trans h⟩
        | ok c =>
            rw [hy] at h
            obtain ⟨before, x, after, b', rfl, hbefore, hx⟩ := ih.1 h
            refine ⟨y :: before, x, after, b', rfl, ?_, hx⟩
            rw [List.foldlM_cons, hy]
            exact hbefore
      · intro h
        obtain ⟨before, x, after, b', hsplit, hbefore, hx⟩ := h
        cases before with
        | nil =>
            obtain ⟨rfl, rfl⟩ := List.cons.inj hsplit
            cases hbefore
            rw [hx]
            rfl
        | cons z before =>
            obtain ⟨rfl, rfl⟩ := List.cons.inj hsplit
            rw [List.foldlM_cons] at hbefore
            cases hy : f b y with
            | error e' =>
                rw [hy] at hbefore
                cases hbefore
            | ok c =>
                rw [hy] at hbefore
                exact ih.2 ⟨before, x, after, b', rfl, hbefore, hx⟩

theorem foldlM_mapError {ε ε' α β : Type} (f : β → α → Except ε β) (g : ε → ε') (l : List α)
    (b : β) : l.foldlM (fun b x => (f b x).mapError g) b = (l.foldlM f b).mapError g := by
  induction l generalizing b with
  | nil => rfl
  | cons x l ih =>
      rw [List.foldlM_cons, List.foldlM_cons]
      cases f b x with
      | error e => rfl
      | ok c => exact ih c

namespace Logged

variable {ε α β : Type}

theorem result_bind_eq_ok_iff {x : Logged ε α} {f : α → Logged ε β} {b : β} :
    (x >>= f).result = .ok b ↔ ∃ a, x.result = .ok a ∧ (f a).result = .ok b := by
  rw [result_bind]
  cases x.result <;> simp [Except.bind]

theorem result_bind_eq_error_iff {x : Logged ε α} {f : α → Logged ε β} {e : ε} :
    (x >>= f).result = .error e ↔
      x.result = .error e ∨ ∃ a, x.result = .ok a ∧ (f a).result = .error e := by
  rw [result_bind]
  cases x.result <;> simp [Except.bind]

theorem bind_congr_of_ok {x : Logged ε α} {f g : α → Logged ε β}
    (h : ∀ a, x.result = .ok a → f a = g a) : x >>= f = x >>= g := by
  show andThen x f = andThen x g
  unfold andThen
  cases hx : x.result with
  | error e => rfl
  | ok a => simp only [h a hx]

@[simp] theorem result_map (f : α → β) (x : Logged ε α) :
    (f <$> x).result = x.result.map f := by
  rw [map_eq_pure_bind, result_bind]
  cases x.result <;> rfl

@[simp] theorem log_map (f : α → β) (x : Logged ε α) : (f <$> x).log = x.log := by
  rw [map_eq_pure_bind]
  cases hx : x.result with
  | error e => exact log_bind_of_error _ hx
  | ok a => rw [log_bind_of_ok _ hx, log_pure, List.append_nil]

theorem result_forM_eq_ok_iff {f : α → Logged ε Unit} {l : List α} :
    (forM l f).result = .ok () ↔ ∀ x ∈ l, (f x).result = .ok () := by
  induction l with
  | nil => simp
  | cons x l ih =>
      rw [List.forM_cons, result_bind_eq_ok_iff, List.forall_mem_cons, ← ih]
      constructor
      · intro h
        obtain ⟨⟨⟩, hx, hrest⟩ := h
        exact ⟨hx, hrest⟩
      · intro h
        exact ⟨(), h.1, h.2⟩

theorem result_forM_eq_error_iff {f : α → Logged ε Unit} {l : List α} {e : ε} :
    (forM l f).result = .error e ↔
      ∃ x, IsFirst (fun y => (f y).result ≠ .ok ()) x l ∧ (f x).result = .error e := by
  apply IsFirst.exists_iff_of_step fun l => (forM l f).result = .error e
  · simp
  · intro y l
    rw [List.forM_cons, result_bind_eq_error_iff]
    constructor
    · intro h
      rcases h with hy | ⟨⟨⟩, hy, hrest⟩
      · exact .inl hy
      · exact .inr ⟨Classical.not_not.2 hy, hrest⟩
    · intro h
      rcases h with hy | ⟨hy, hrest⟩
      · exact .inl hy
      · exact .inr ⟨(), Classical.not_not.1 hy, hrest⟩
  · intro y hy
    simp [hy]

theorem result_foldlM (f : β → α → Logged ε β) (l : List α) (b : β) :
    (l.foldlM f b).result = l.foldlM (fun b x => (f b x).result) b := by
  induction l generalizing b with
  | nil => rfl
  | cons x l ih =>
      rw [List.foldlM_cons, List.foldlM_cons, result_bind]
      simp only [ih]
      rfl

theorem result_foldlM_eq_error_iff {f : β → α → Logged ε β} {l : List α} {b : β} {e : ε} :
    (l.foldlM f b).result = .error e ↔
      ∃ before x after b', l = before ++ x :: after ∧
        (before.foldlM f b).result = .ok b' ∧ (f b' x).result = .error e := by
  simp only [result_foldlM]
  exact foldlM_eq_error_iff

def Reports (P : Event → Prop) (x : Logged ε α) : Prop :=
  ∀ e ∈ x.log, P e

namespace Reports

variable {P Q : Event → Prop} {x : Logged ε α}

theorem mono (hPQ : ∀ e, P e → Q e) (hx : x.Reports P) : x.Reports Q :=
  fun e he => hPQ e (hx e he)

theorem of_log_eq_nil (h : x.log = []) : x.Reports P := by
  rw [Reports, h]
  exact List.forall_mem_nil P

theorem report {e : Event} (he : P e) : (Logged.report e : Logged ε Unit).Reports P :=
  List.forall_mem_singleton.2 he

theorem bind {f : α → Logged ε β} (hx : x.Reports P) (hf : ∀ a, (f a).Reports P) :
    (x >>= f).Reports P := by
  cases hresult : x.result with
  | error e =>
      rw [Reports, log_bind_of_error f hresult]
      exact hx
  | ok a =>
      rw [Reports, log_bind_of_ok f hresult]
      exact List.forall_mem_append.2 ⟨hx, hf a⟩

theorem forM {f : α → Logged ε Unit} (hf : ∀ a, (f a).Reports P) (l : List α) :
    (ForM.forM l f).Reports P := by
  induction l with
  | nil => exact of_log_eq_nil rfl
  | cons a l ih => exact (hf a).bind fun _ => ih

theorem foldlM {f : β → α → Logged ε β} (hf : ∀ b a, (f b a).Reports P) (l : List α) (b : β) :
    (l.foldlM f b).Reports P := by
  induction l generalizing b with
  | nil => exact of_log_eq_nil rfl
  | cons a l ih => exact (hf b a).bind fun c => ih c

end Reports

end Logged

end CodegenRegistry
